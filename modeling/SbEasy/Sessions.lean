import SbEasy.Records

/-!
Sessions: every request of a host and boot is applied once.

A session remembers the last sequence number, the hash of that request and the text of the
response. Only the next number changes the database, and the last one gets the stored text.
-/

namespace SbEasy

open Center Tx

section

variable [Platform]

/-- The last sequence number of a host and boot; zero before the first. -/
def lastSeq (db : Db) (host boot : Bytes) : ℤ :=
  ((db.sessions.find? (sameSession host boot)).map LeaseSession.requestSeq).getD 0

lemma sessionRow_response (host : Bytes) (request : Sbj) (now : ℤ) (p : Policy) :
    (sessionRow host request now p).response = dump p.toSbj (-1) := by
  rw [sessionRow]

/-- What a call does to the session of a host and boot: nothing, or one request is applied. -/
structure Accepts (c : Call) (db : Db) (host : Bytes) (request : Sbj) (p : Policy) : Prop where
  cmd : c.cmd = .leaseExchange host request
  ok : RequestOk host request c.now db
  applied : Applied host request c.now db p (c.next db)
  result : c.result db = .ok p.toSbj
  next : requestSeq request = lastSeq db host (requestBoot request) + 1

variable {c : Call} {db : Db} {host : Bytes} {request : Sbj} {p : Policy}

lemma Accepts.session (h : Accepts c db host request p) :
    (c.next db).sessions.find? (sameSession host (requestBoot request)) =
      some (sessionRow host request c.now p) := by
  obtain ⟨l, l', -, -, hdb⟩ := h.applied
  rw [hdb]
  apply Table.find?_upsert_self
  simp [sameSession, sessionRow]

lemma Accepts.lastSeq (h : Accepts c db host request p) :
    lastSeq (c.next db) host (requestBoot request) = requestSeq request := by
  rw [SbEasy.lastSeq, h.session]
  rfl

lemma Accepts.changes (h : Accepts c db host request p) : c.next db ≠ db := by
  intro he
  have h1 := h.lastSeq
  rw [he] at h1
  have h2 := h.next
  omega

lemma Accepts.users (h : Accepts c db host request p) :
    ∀ q ∈ p.users, ∃ u ∈ db.users, q.id = u.id ∧ q.epoch = u.epoch := by
  obtain ⟨l, l', -, hserved, -⟩ := h.applied
  intro q hq
  cases hserved with
  | none => cases hq
  | some node _ _ _ hleased =>
    obtain ⟨v, hv, hqv⟩ := leased_users hleased q hq
    exact ⟨v, (mem_hostUsers hv).1, hqv⟩

lemma sessions_cases (c : Call) (db : Db) :
    ((c.next db).sessions = db.sessions ∧
      ∀ host request, c.cmd = .leaseExchange host request → c.next db = db) ∨
    ∃ host request p, Accepts c db host request p := by
  rcases hcases : c.cases db with ⟨e, -, hdb⟩ | ⟨v, hv, heff⟩
  · left
    rw [hdb]
    exact ⟨rfl, fun _ _ _ => rfl⟩
  clear hcases
  cases hcmd : c.cmd with
  | leaseExchange host request =>
    rw [hcmd] at heff
    generalize hnext : c.next db = db' at heff
    cases heff with
    | read hread => simp at hread
    | leaseExchange hok hex =>
      cases hex with
      | replay _ _ _ _ _ hsame =>
        left
        rw [hsame]
        exact ⟨rfl, fun _ _ _ => rfl⟩
      | new p hseq hval happ =>
        subst hnext
        exact Or.inr ⟨host, request, p, hcmd, hok, happ, hval ▸ hv, hseq⟩
  | _ =>
    left
    rw [hcmd] at heff
    generalize c.next db = db' at heff
    refine ⟨?_, fun _ _ hr => by cases hr⟩
    cases heff <;> rfl

/-- The session of a host and boot: it stays, or one of its requests is applied. -/
lemma session_step (c : Call) (db : Db) (host boot : Bytes) :
    ((c.next db).sessions.find? (sameSession host boot) =
        db.sessions.find? (sameSession host boot) ∧
      ∀ request, c.cmd = .leaseExchange host request → requestBoot request = boot →
        c.next db = db) ∨
    ∃ request p, requestBoot request = boot ∧ Accepts c db host request p := by
  rcases sessions_cases c db with ⟨hsame, hnone⟩ | ⟨host', request, p, h⟩
  · left
    rw [hsame]
    exact ⟨rfl, fun request hr _ => hnone host request hr⟩
  by_cases hkey : host' = host ∧ requestBoot request = boot
  · obtain ⟨rfl, rfl⟩ := hkey
    exact Or.inr ⟨request, p, rfl, h⟩
  left
  refine ⟨?_, fun r hr hboot => absurd ?_ hkey⟩
  · obtain ⟨l, l', -, -, hdb⟩ := h.applied
    rw [hdb]
    apply Table.find?_upsert_of_disjoint
    · simpa [sameSession, sessionRow] using hkey
    · intro x _ hx
      simp only [sameSession, Bool.and_eq_true, beq_iff_eq] at hx
      constructor
      · simpa [sameSession, hx.1, hx.2] using hkey
      · simpa [sameSession, sessionRow] using hkey
  · have he := Cmd.leaseExchange.inj (h.cmd.symm.trans hr)
    exact ⟨he.1, he.2 ▸ hboot⟩

/-! ### The stored responses -/

/-- The responses in the sessions are the texts of policies with a property. -/
def Stored (Q : Policy → Prop) (db : Db) : Prop :=
  ∀ x ∈ db.sessions, ∃ p, Q p ∧ x.response = dump p.toSbj (-1) ∧ p.hostId = x.hostId ∧
    p.bootId = x.bootId ∧ p.requestSeq = x.requestSeq

omit [Platform] in
lemma served_names {boot : Bytes} {seq now : ℤ} {l l' : List ProxyLease}
    (h : Served db host boot seq now l p l') :
    p.hostId = host ∧ p.bootId = boot ∧ p.requestSeq = seq := by
  cases h <;> exact ⟨rfl, rfl, rfl⟩

lemma stored_step {Q : Policy → Prop} (h : Stored Q db)
    (hnew : ∀ host request p, Accepts c db host request p → Q p) : Stored Q (c.next db) := by
  rcases sessions_cases c db with ⟨hsame, -⟩ | ⟨host, request, p, hacc⟩
  · intro x hx
    exact h x (hsame ▸ hx)
  · obtain ⟨l, l', -, hserved, hdb⟩ := hacc.applied
    obtain ⟨h1, h2, h3⟩ := served_names hserved
    have hrow := sessionRow_response host request c.now p
    unfold Stored
    rw [hdb]
    apply Table.forall_upsert h
    · exact fun _ _ => ⟨p, hnew host request p hacc, hrow, h1, h2, h3⟩
    · exact ⟨p, hnew host request p hacc, hrow, h1, h2, h3⟩

lemma requestOk_spec {now : ℤ} (h : requestOk request now = true) :
    textOk (some (.str (requestBoot request))) 128 true = true ∧
      (1 ≤ requestSeq request ∧ requestSeq request ≤ safeInteger) ∧ 1 ≤ now ∧ now ≤ 4102444740 := by
  simp only [requestOk, Bool.and_eq_true] at h
  obtain ⟨⟨⟨⟨⟨-, hboot⟩, hseq⟩, -⟩, -⟩, hnow⟩ := h
  refine ⟨textOk_getStr hboot [], getInt_of_numberOk 0 hseq, ?_⟩
  simp only [Bool.not_eq_true', Bool.or_eq_false_iff, decide_eq_false_iff_not] at hnow
  omega

/-- New host identifiers are generated, or have a property. -/
def HostIds (P : Bytes → Prop) (c : Call) : Prop :=
  ∀ id enabled, c.cmd = .createHost id enabled → id = [] ∨ P id

lemma hosts_step {P : Bytes → Prop} (hP : ∀ id, IsUuid id → P id)
    (h : ∀ x ∈ db.hosts, P x.id) (hc : HostIds P c) : ∀ x ∈ (c.next db).hosts, P x.id := by
  rcases c.cases db with ⟨e, -, hdb⟩ | ⟨v, -, heff⟩
  · rw [hdb]; exact h
  revert heff
  generalize c.next db = db'
  generalize hcmd : c.cmd = cmd
  intro heff
  cases heff with
  | createHost x hid _ =>
    intro y hy
    rcases List.mem_append.mp hy with hy | hy
    · exact h y hy
    · rw [List.mem_singleton.mp hy]
      rcases hid with ⟨hne, hid⟩ | huuid
      · rw [hid]
        exact (hc _ _ hcmd).resolve_left hne
      · exact hP _ huuid
  | updateHost => exact Table.forall_update h fun _ hx _ => hx
  | deleteHost => exact fun x hx => h x (List.mem_of_mem_filter hx)
  | leaseExchange _ hex =>
    cases hex with
    | replay _ _ _ _ _ hsame => rw [hsame]; exact h
    | new _ _ _ happ =>
      obtain ⟨_, _, _, _, rfl⟩ := happ
      exact h
  | _ => exact h

/-- What the center keeps in its tables, as far as the text of a policy depends on it. -/
structure Steady (db : Db) : Prop where
  budget : Budget db.users db.leases
  records : Records db
  hosts : ∀ h ∈ db.hosts, Utf8.Valid h.id
  stored : Stored Policy.Typed db

lemma steady_fresh {hosts : List Host} (h : ∀ x ∈ hosts, Utf8.Valid x.id) :
    Steady (Db.fresh hosts) :=
  ⟨budget_run .refl, records_fresh hosts, h, by simp [Stored, Db.fresh]⟩

lemma Steady.typed (h : Steady db) (ha : Accepts c db host request p) : p.Typed := by
  obtain ⟨l, l', hrep, hserved, -⟩ := ha.applied
  obtain ⟨hboot, hseq, hnow⟩ := requestOk_spec ha.ok.envelope
  obtain ⟨x, hx, hid, -⟩ := ha.ok.host
  exact served_typed h.records (h.budget.reported hrep).1 (reported_uuid hrep h.records.leases)
    (hid ▸ h.hosts x hx) (valid_of_textOk hboot) hseq hnow hserved

lemma steady_step (h : Steady db) (hf : FreshUserIds db c)
    (hc : HostIds Utf8.Valid c) : Steady (c.next db) where
  budget := (budget_step h.budget hf).1
  records := records_step h.records
  hosts := hosts_step (fun _ hid => hid.valid) h.hosts hc
  stored := stored_step h.stored fun _ _ _ ha => h.typed ha

lemma steady_run {cs : List Call} (h : Steady db) (hf : freshAlong db cs = true)
    (hc : ∀ c ∈ cs, HostIds Utf8.Valid c) : Steady (runCalls db cs) := by
  induction cs generalizing db with
  | nil => exact h
  | cons c cs ih =>
    simp only [freshAlong, Bool.and_eq_true, decide_eq_true_eq] at hf
    exact ih (steady_step h hf.1 (hc c (by simp))) hf.2 fun x hx => hc x (by simp [hx])

end

end SbEasy

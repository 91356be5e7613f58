import SbEasy.Exchange

/-!
What a successful `sb_proxy_lease_exchange` has done to the tables.

The lease table changes in two passes: the reports raise `used_bytes` row by row, and the
grants extend one row, or add one, for each user that gets a lease.
-/

namespace SbEasy

namespace Center

open Tx

/-! ### The two passes over the lease table -/

/-- The `UPDATE` of `report_locked`. -/
def putUsed (id : Bytes) (used now : ℤ) (l : List ProxyLease) : List ProxyLease :=
  Table.update (fun r => r.id == id) (fun r => { r with usedBytes := used, updatedAt := now }) l

/-- The `INSERT ... ON CONFLICT` of `lease_locked`. -/
def putRow (new : ProxyLease) (l : List ProxyLease) : List ProxyLease :=
  Table.upsert (sameLease new.userId new.hostId new.bootId new.epoch)
    (fun r => { r with grantBytes := new.grantBytes, expiresAt := new.expiresAt
                       updatedAt := new.updatedAt }) new l

/-- The reports of a request, applied in order. -/
inductive Reported (host boot : Bytes) (now : ℤ) :
    List (Bytes × ℤ) → List ProxyLease → List ProxyLease → Prop
  | nil (l : List ProxyLease) : Reported host boot now [] l l
  | cons {id : Bytes} {used : ℤ} {rs : List (Bytes × ℤ)} {l l' : List ProxyLease}
      (r : ProxyLease) (mem : r ∈ l) (hid : r.id = id) (hhost : r.hostId = host)
      (hboot : r.bootId = boot) (low : r.usedBytes ≤ used) (high : used ≤ r.grantBytes)
      (rest : Reported host boot now rs (putUsed id used now l) l') :
      Reported host boot now ((id, used) :: rs) l l'

/-- One user gets a lease: the row `new` is written and `p` is answered. -/
structure Granted (db : Db) (host boot : Bytes) (now : ℤ) (u : ProxyUser) (l : List ProxyLease)
    (p : UserPolicy) (new : ProxyLease) : Prop where
  devices : policyDevices db u.id now ≠ []
  hosts : 1 ≤ hostCount db u.id now
  grant : new.grantBytes = nextGrant u.quotaBytes
    (Table.sum (Db.ofEpoch u.id u.epoch) ProxyLease.grantBytes l) (hostCount db u.id now)
    (((l.find? (sameLease u.id host boot u.epoch)).map ProxyLease.grantBytes).getD 0) new.usedBytes
  used : new.usedBytes =
    ((l.find? (sameLease u.id host boot u.epoch)).map ProxyLease.usedBytes).getD 0
  room : new.usedBytes < new.grantBytes
  known : ∀ r, l.find? (sameLease u.id host boot u.epoch) = some r → new.id = r.id
  unknown : l.find? (sameLease u.id host boot u.epoch) = none →
    (∃ raw, raw.length = 16 ∧ new.id = uuidText raw) ∧ ∀ r ∈ l, r.id ≠ new.id
  row : new = ⟨new.id, u.id, host, boot, u.epoch, new.grantBytes, new.usedBytes,
    leaseUntil u now, now⟩
  policy : p = ⟨u.id, u.epoch, ⟨new.id, new.grantBytes, new.usedBytes, leaseUntil u now⟩,
    policyDevices db u.id now⟩

/-- One user gets none: no device is active, or nothing of the grant is unused. -/
def NotGranted (db : Db) (host boot : Bytes) (now : ℤ) (u : ProxyUser) (l : List ProxyLease) : Prop :=
  policyDevices db u.id now = [] ∨ 1 ≤ hostCount db u.id now ∧
    nextGrant u.quotaBytes (Table.sum (Db.ofEpoch u.id u.epoch) ProxyLease.grantBytes l)
      (hostCount db u.id now)
      (((l.find? (sameLease u.id host boot u.epoch)).map ProxyLease.grantBytes).getD 0)
      (((l.find? (sameLease u.id host boot u.epoch)).map ProxyLease.usedBytes).getD 0) ≤
    ((l.find? (sameLease u.id host boot u.epoch)).map ProxyLease.usedBytes).getD 0

/-- The users of the host, in order, each skipped or given a lease. -/
inductive Leased (db : Db) (host boot : Bytes) (now : ℤ) :
    List ProxyUser → List ProxyLease → List UserPolicy → List ProxyLease → Prop
  | nil (l : List ProxyLease) : Leased db host boot now [] l [] l
  | skip {u : ProxyUser} {us : List ProxyUser} {l l' : List ProxyLease} {ps : List UserPolicy}
      (rest : Leased db host boot now us l ps l') : Leased db host boot now (u :: us) l ps l'
  | lease {u : ProxyUser} {us : List ProxyUser} {l l' : List ProxyLease} {ps : List UserPolicy}
      {p : UserPolicy} {new : ProxyLease} (granted : Granted db host boot now u l p new)
      (due : u.notBefore ≤ now) (rest : Leased db host boot now us (putRow new l) ps l') :
      Leased db host boot now (u :: us) l (p :: ps) l'

end Center

open Center Tx

/-- The fence lets a user pass at a reading of the clock. -/
def Passes (clock : ProxyClock) (reading now : ℤ) (u : ProxyUser) : Prop :=
  (clock.waitMs u.id u.epoch reading).1 ≤ 0 ∧ u.notBefore ≤ now

instance (clock : ProxyClock) (reading now : ℤ) (u : ProxyUser) :
    Decidable (Passes clock reading now u) := inferInstanceAs (Decidable (_ ∧ _))

/-- The users that the fence lets pass, in order, each at the next reading of the clock. -/
def fencePassed (now : ℤ) : ProxyClock → (ℕ → ℤ) → List ProxyUser → List ProxyUser
  | _, _, [] => []
  | clock, mono, u :: us =>
    let rest := fencePassed now (clock.waitMs u.id u.epoch (mono 0)).2 (fun k => mono (k + 1)) us
    if Passes clock (mono 0) now u then u :: rest else rest

/-- The users that passed, each left out or given a lease. -/
inductive Visited (db : Db) (host boot : Bytes) (now : ℤ) :
    List ProxyUser → List ProxyLease → List UserPolicy → List ProxyLease → Prop
  | nil (l : List ProxyLease) : Visited db host boot now [] l [] l
  | leave {u : ProxyUser} {us : List ProxyUser} {l l' : List ProxyLease} {ps : List UserPolicy}
      (none : NotGranted db host boot now u l) (rest : Visited db host boot now us l ps l') :
      Visited db host boot now (u :: us) l ps l'
  | lease {u : ProxyUser} {us : List ProxyUser} {l l' : List ProxyLease} {ps : List UserPolicy}
      {p : UserPolicy} {new : ProxyLease} (granted : Granted db host boot now u l p new)
      (rest : Visited db host boot now us (putRow new l) ps l') :
      Visited db host boot now (u :: us) l (p :: ps) l'

lemma visited_leases {db : Db} {host boot : Bytes} {now : ℤ} {us : List ProxyUser}
    {l₀ l l' : List ProxyLease} {ps : List UserPolicy}
    (h : Visited { db with leases := l₀ } host boot now us l ps l') :
    Visited db host boot now us l ps l' := by
  induction h with
  | nil l => exact .nil l
  | leave hnone _ ih => exact .leave hnone ih
  | lease hg _ ih =>
    obtain ⟨h1, h2, h3, h4, h5, h6, h7, h8, h9⟩ := hg
    exact .lease ⟨h1, h2, h3, h4, h5, h6, h7, h8, h9⟩ ih

/-- The users that a request of the host visits. -/
def servedUsers (db : Db) (host : Bytes) (now : ℤ) : List ProxyUser :=
  match db.ingress.find? fun n => n.hostId == host with
  | some node => if node.enabled && runtimeReady db host now then hostUsers db host now else []
  | none => []

/-- The users of a request that are visited. -/
def passedUsers (db : Db) (clock : ProxyClock) (mono : ℕ → ℤ) (host : Bytes) (now : ℤ) :
    List ProxyUser :=
  fencePassed now clock mono (servedUsers db host now)

namespace Center

variable {host boot : Bytes} {now : ℤ}

variable {db : Db} {us : List ProxyUser} {l l' : List ProxyLease} {ps : List UserPolicy}

lemma leased_of_visited {clock : ProxyClock} {mono : ℕ → ℤ}
    (hv : Visited db host boot now (fencePassed now clock mono us) l ps l') :
    Leased db host boot now us l ps l' := by
  induction us generalizing clock mono l ps with
  | nil =>
    cases hv
    exact .nil _
  | cons u us ih =>
    rw [fencePassed] at hv
    split_ifs at hv with hpass
    · cases hv with
      | leave _ hrest => exact .skip (ih hrest)
      | lease hg hrest => exact .lease hg hpass.2 (ih hrest)
    · exact .skip (ih hv)

lemma leased_leases {l₀ l l' : List ProxyLease}
    (h : Leased { db with leases := l₀ } host boot now us l ps l') :
    Leased db host boot now us l ps l' := by
  induction h with
  | nil l => exact .nil l
  | skip _ ih => exact .skip ih
  | lease hg hdue _ ih =>
    obtain ⟨h1, h2, h3, h4, h5, h6, h7, h8, h9⟩ := hg
    exact .lease ⟨h1, h2, h3, h4, h5, h6, h7, h8, h9⟩ hdue ih

/-! ### From the code to the passes -/

variable {s s' : Center}

lemma ok_putLease {new : ProxyLease} {u : Unit} (h : Ok (putLease new) s u s') :
    (s.db.leases.find? (sameLease new.userId new.hostId new.bootId new.epoch) = none →
        ∀ r ∈ s.db.leases, r.id ≠ new.id) ∧
      s'.db = { s.db with leases := putRow new s.db.leases } ∧ s'.clock = s.clock ∧
      s'.io.mono = s.io.mono := by
  simp only [putLease, ok_query_bind, ok_guard, ok_modify] at h
  obtain ⟨io, hsql, hv, rfl⟩ := h
  have hmono : io.mono = s.io.mono := mono_sql hsql
  refine ⟨fun hnone r hr he => ?_, rfl, rfl, hmono⟩
  have hany : s.db.leases.any (sameLease new.userId new.hostId new.bootId new.epoch) = false := by
    rw [List.any_eq_false]
    exact List.find?_eq_none.mp hnone
  simp only [hany, Bool.not_false, Bool.true_and, Bool.not_eq_true', List.any_eq_false,
    beq_iff_eq] at hv
  exact hv r hr he

/-- The identifier: the one of the row, or a generated one. -/
lemma ok_leaseId {row : Option ProxyLease} {id : Bytes} (h : Ok (leaseId row) s id s') :
    (∀ r, row = some r → id = r.id) ∧
      (row = none → ∃ raw, raw.length = 16 ∧ id = uuidText raw) ∧
      ∃ io, io.mono = s.io.mono ∧ s' = { s with io := io } := by
  cases row with
  | some l =>
    simp only [leaseId, ok_pure] at h
    exact ⟨fun r hr => by cases hr; exact h.1, by simp, s.io, rfl, h.2⟩
  | none =>
    have hmono := mono_uuidV4 h
    obtain ⟨⟨raw, -, hraw⟩, io, -, rfl⟩ := ok_uuidV4 h
    exact ⟨by simp, fun _ => ⟨raw, hraw⟩, io, hmono, rfl⟩

lemma ok_leaseLocked {user : ProxyUser} {p : Option UserPolicy}
    (h : Ok (leaseLocked host boot user now) s p s') :
    s'.clock = s.clock ∧ s'.io.mono = s.io.mono ∧
      ((p = none ∧ NotGranted s.db host boot now user s.db.leases ∧ s'.db = s.db) ∨
        ∃ q new, p = some q ∧ Granted s.db host boot now user s.db.leases q new ∧
          s'.db = { s.db with leases := putRow new s.db.leases }) := by
  simp only [leaseLocked, ok_query_bind] at h
  obtain ⟨io, hsql, h⟩ := h
  have hmono : io.mono = s.io.mono := mono_sql hsql
  split_ifs at h with hdev
  · simp only [ok_pure] at h
    rw [h.2]
    exact ⟨rfl, hmono, Or.inl ⟨h.1, .inl (List.isEmpty_iff.mp hdev), rfl⟩⟩
  simp only [ok_query_bind, ok_guard] at h
  obtain ⟨io₂, hsql₂, io₃, hsql₃, io₄, hsql₄, hhosts, h⟩ := h
  have hmono₄ : io₄.mono = s.io.mono :=
    (mono_sql hsql₄).trans ((mono_sql hsql₃).trans ((mono_sql hsql₂).trans hmono))
  split_ifs at h with hroom
  · simp only [ok_pure] at h
    rw [h.2]
    exact ⟨rfl, hmono₄, Or.inl ⟨h.1, .inr ⟨by simpa using hhosts, hroom⟩, rfl⟩⟩
  simp only [ok_bind] at h
  obtain ⟨id, s₅, hid, _, s₆, hput, hpure⟩ := h
  obtain ⟨rfl, rfl⟩ := ok_pure.mp hpure
  obtain ⟨hknown, hunknown, io₅, hmono₅, rfl⟩ := ok_leaseId hid
  obtain ⟨hnew, hdb, hclock, hmono₆⟩ := ok_putLease hput
  refine ⟨hclock, hmono₆.trans (hmono₅.trans hmono₄), Or.inr ⟨_, _, rfl,
    ⟨?_, by simpa using hhosts, rfl, rfl, by simpa using hroom, hknown,
      fun hn => ⟨hunknown hn, hnew hn⟩, rfl, rfl⟩, hdb⟩⟩
  simpa using hdev

lemma ok_leasesLocked {us : List ProxyUser} {ps : List UserPolicy}
    (h : Ok (leasesLocked host boot now us) s ps s') :
    ∃ l, Visited s.db host boot now (fencePassed now s.clock s.io.mono us) s.db.leases ps l ∧
      s'.db = { s.db with leases := l } := by
  induction us generalizing s ps with
  | nil =>
    simp only [leasesLocked, ok_bind, ok_pure] at h
    obtain ⟨_, s₁, h1, rfl, rfl⟩ := h
    obtain ⟨io, rfl⟩ := ok_sql h1
    exact ⟨_, .nil _, rfl⟩
  | cons u us ih =>
    simp only [leasesLocked, ok_bind] at h
    obtain ⟨_, s₁, h1, ms, s₂, h2, h⟩ := h
    have hmono := mono_sql h1
    obtain ⟨io, rfl⟩ := ok_sql h1
    obtain ⟨rfl, io₂, hmono₂, rfl⟩ := ok_waitMs h2
    dsimp only at hmono hmono₂
    rw [hmono] at hmono₂ h
    rw [fencePassed]
    dsimp only
    split_ifs at h with hwait
    · obtain ⟨l, hl, hdb⟩ := ih h
      dsimp only at hl
      rw [hmono₂] at hl
      have hheld : ¬ Passes s.clock (s.io.mono 0) now u := fun hpass =>
        hwait.elim (not_lt.mpr hpass.1) (not_lt.mpr hpass.2)
      rw [if_neg hheld]
      exact ⟨l, hl, hdb⟩
    · simp only [ok_bind, ok_pure] at h
      obtain ⟨p, s₃, h3, rest, s₄, h4, rfl, rfl⟩ := h
      obtain ⟨l, hl, hdb⟩ := ih h4
      rw [not_or, gt_iff_lt, gt_iff_lt, not_lt, not_lt] at hwait
      have hpass : Passes s.clock (s.io.mono 0) now u := hwait
      rw [if_pos hpass]
      obtain ⟨hclock, hmono₃, hvisit⟩ := ok_leaseLocked h3
      dsimp only at hclock hmono₃
      rw [hclock, hmono₃, hmono₂] at hl
      rcases hvisit with ⟨rfl, hnone, hs⟩ | ⟨q, new, rfl, hg, hs⟩
      · rw [hs] at hl hdb
        exact ⟨l, .leave hnone hl, hdb⟩
      · rw [hs] at hl hdb
        exact ⟨l, .lease hg (visited_leases hl), hdb⟩

variable [Platform]

/-- A report as the pair of a lease and its counter. -/
def reportPair (r : Sbj) : Bytes × ℤ :=
  (Sbj.getStr (some r) (lit "lease_id") [], Sbj.getInt (some r) (lit "used_bytes") 0)

lemma ok_reportsLocked {rs : List Sbj} {u : Unit} (h : Ok (reportsLocked host boot now rs) s u s') :
    ∃ l, Reported host boot now (rs.map reportPair) s.db.leases l ∧
      s'.db = { s.db with leases := l } ∧ s'.clock = s.clock ∧ s'.io.mono = s.io.mono := by
  induction rs generalizing s with
  | nil =>
    simp only [reportsLocked, ok_pure] at h
    obtain ⟨-, rfl⟩ := h
    exact ⟨_, .nil _, rfl, rfl, rfl⟩
  | cons r rs ih =>
    simp only [reportsLocked, ok_bind] at h
    obtain ⟨_, s₂, h1, h3⟩ := h
    simp only [reportLocked, ok_query_bind, ok_guard] at h1
    obtain ⟨io, hsql, hv, h2⟩ := h1
    have hmono := (mono_write h2).trans (mono_sql hsql)
    obtain ⟨io', rfl⟩ := ok_write h2
    obtain ⟨l, hl, hdb, hclock, hmono'⟩ := ih h3
    obtain ⟨x, hx, hxv⟩ := (Option.any_eq_true _ _).mp hv
    have hmem := List.mem_of_find?_eq_some hx
    have hp := List.find?_some hx
    simp only [Bool.and_eq_true, beq_iff_eq] at hp
    simp only [ge_iff_le, Bool.and_eq_true, decide_eq_true_eq] at hxv
    exact ⟨l, .cons x hmem hp.1.1 hp.1.2 hp.2 hxv.1 hxv.2 hl, hdb, hclock, hmono'.trans hmono⟩

/-- What the policy of a new request says, and the lease rows it leaves. -/
inductive Served (db : Db) (host boot : Bytes) (seq now : ℤ) :
    List ProxyLease → Policy → List ProxyLease → Prop
  | none (l : List ProxyLease) :
      Served db host boot seq now l ⟨host, boot, seq, now, now + leaseSeconds, none, []⟩ l
  | some {l l' : List ProxyLease} {ps : List UserPolicy} (node : IngressNode)
      (found : db.ingress.find? (fun n => n.hostId == host) = some node)
      (enabled : node.enabled = true) (ready : runtimeReady db host now = true)
      (leased : Leased db host boot now (hostUsers db host now) l ps l') :
      Served db host boot seq now l ⟨host, boot, seq, now, now + leaseSeconds,
        some ⟨node.listen, node.listenPort, node.serverKey⟩, ps⟩ l'

omit [Platform] in
lemma ok_policyLocked {seq : ℤ} {p : Policy} (h : Ok (policyLocked host boot seq now) s p s') :
    ∃ l, Served s.db host boot seq now s.db.leases p l ∧
      Visited s.db host boot now (passedUsers s.db s.clock s.io.mono host now) s.db.leases p.users l ∧
      s'.db = { s.db with leases := l } := by
  simp only [policyLocked, ok_query_bind] at h
  obtain ⟨io, hsql, io₂, hsql₂, h⟩ := h
  have hmono : io₂.mono = s.io.mono := (mono_sql hsql₂).trans (mono_sql hsql)
  have hnone : servedUsers s.db host now = [] → Visited s.db host boot now
      (passedUsers s.db s.clock s.io.mono host now) s.db.leases [] s.db.leases := by
    intro hus
    rw [passedUsers, hus]
    exact .nil _
  split at h
  · rename_i node hnode
    split_ifs at h with hready
    · simp only [ok_query_bind, ok_map] at h
      obtain ⟨io₃, hsql₃, ps, h, rfl⟩ := h
      obtain ⟨l, hl, hdb⟩ := ok_leasesLocked h
      have hboth := hready
      rw [Bool.and_eq_true] at hboth
      refine ⟨l, .some node hnode hboth.1 hboth.2 (leased_of_visited hl), ?_, hdb⟩
      have hmono₃ : io₃.mono = s.io.mono := (mono_sql hsql₃).trans hmono
      rw [passedUsers, servedUsers, hnode, ← hmono₃]
      simpa only [if_pos hready] using hl
    · obtain ⟨rfl, rfl⟩ := ok_pure.mp h
      refine ⟨_, .none _, hnone ?_, rfl⟩
      rw [servedUsers, hnode]
      exact if_neg hready
  · rename_i hnode
    obtain ⟨rfl, rfl⟩ := ok_pure.mp h
    exact ⟨_, .none _, hnone (by rw [servedUsers, hnode]), rfl⟩

/-- The session row a request leaves behind. -/
def sessionRow (host : Bytes) (request : Sbj) (now : ℤ) (p : Policy) : LeaseSession :=
  ⟨host, requestBoot request, requestSeq request, requestHash request, dump p.toSbj (-1), now⟩

/-- A new request: its reports, its leases, its session. -/
structure Applied (host : Bytes) (request : Sbj) (now : ℤ) (db : Db) (p : Policy) (db' : Db) :
    Prop where
  pass : ∃ l l', Reported host (requestBoot request) now ((requestReports request).map reportPair)
      db.leases l ∧ Served db host (requestBoot request) (requestSeq request) now l p l' ∧
    db' = { db with
      leases := l'
      sessions := Table.upsert (sameSession host (requestBoot request))
        (fun _ => sessionRow host request now p) (sessionRow host request now p) db.sessions }

end Center

/-- A new request: its reports, then its visits. -/
structure Renewed [Platform] (host : Bytes) (request : Sbj) (now : ℤ) (clock : ProxyClock)
    (mono : ℕ → ℤ) (db : Db) (p : Policy) (l l' : List ProxyLease) : Prop where
  reported : Reported host (requestBoot request) now ((requestReports request).map reportPair)
    db.leases l
  visits : Visited db host (requestBoot request) now (passedUsers db clock mono host now) l p.users l'

namespace Center

variable {host : Bytes} {now : ℤ} {s s' : Center} [Platform]

lemma ok_applyRequest {request v : Sbj} (h : Ok (applyRequest host request now) s v s') :
    ∃ p l, v = p.toSbj ∧ Applied host request now s.db p s'.db ∧
      Renewed host request now s.clock s.io.mono s.db p l s'.db.leases := by
  simp only [applyRequest, ok_bind, ok_pure, putSession] at h
  obtain ⟨_, s₁, h1, p, s₂, h2, _, s₃, h3, rfl, rfl⟩ := h
  obtain ⟨l, hl, hdb, hclock, hmono⟩ := ok_reportsLocked h1
  obtain ⟨l', hserved, hvisited, hdb'⟩ := ok_policyLocked h2
  obtain ⟨io, rfl⟩ := ok_write h3
  rw [hdb] at hserved hvisited hdb'
  rw [hclock, hmono] at hvisited
  simp only [hdb']
  refine ⟨p, l, rfl, ⟨l, l', hl, ?_, rfl⟩, hl, visited_leases hvisited⟩
  cases hserved with
  | none => exact .none _
  | some node hfound hon hready hleased => exact .some node hfound hon hready (leased_leases hleased)

/-- The two ways a call of `sb_proxy_lease_exchange` succeeds. -/
inductive Exchanged (host : Bytes) (request : Sbj) (now : ℤ) (db : Db) (v : Sbj) (db' : Db) : Prop
  | replay (x : LeaseSession)
      (found : db.sessions.find? (sameSession host (requestBoot request)) = some x)
      (seq : requestSeq request = x.requestSeq) (hash : requestHash request = x.requestHash)
      (stored : JsonParse.sbjParse x.response = .ok v) (same : db' = db)
  | new (p : Policy)
      (next : requestSeq request = (((db.sessions.find? (sameSession host (requestBoot request))).map
        LeaseSession.requestSeq).getD 0) + 1)
      (value : v = p.toSbj) (applied : Applied host request now db p db')

/-- A retry, or a new request with its visits. -/
def Answered (host : Bytes) (request : Sbj) (now : ℤ) (s : Center) (v : Sbj) (s' : Center) : Prop :=
  (requestSeq request = ((s.db.sessions.find? (sameSession host (requestBoot request))).map
      LeaseSession.requestSeq).getD 0 ∧ s'.db = s.db) ∨
    ∃ p l, v = p.toSbj ∧ Renewed host request now s.clock s.io.mono s.db p l s'.db.leases

lemma ok_exchangeLocked {request v : Sbj} (h : Ok (exchangeLocked host request now) s v s') :
    (∃ x ∈ s.db.hosts, x.id = host ∧ x.enabled = true) ∧
      Exchanged host request now s.db v s'.db ∧ Answered host request now s v s' := by
  simp only [exchangeLocked, ok_query_bind, ok_guard] at h
  obtain ⟨io, hsql, hknown, io₂, hsql₂, hseq, h⟩ := h
  have hmono : io₂.mono = s.io.mono := (mono_sql hsql₂).trans (mono_sql hsql)
  refine ⟨by simpa using hknown, ?_⟩
  simp only [Bool.or_eq_true, beq_iff_eq] at hseq
  split at h
  · rename_i x hreplay hx
    rw [hx] at hreplay
    simp only [Option.any_some, Bool.and_eq_true, beq_iff_eq] at hreplay
    split at h
    · rename_i w hw
      obtain ⟨rfl, rfl⟩ := ok_pure.mp h
      exact ⟨.replay x hx hreplay.1 hreplay.2 hw rfl, .inl ⟨by rw [hx]; exact hreplay.1, rfl⟩⟩
    · simp at h
  · rename_i hno
    obtain ⟨p, l, hv, happ, hrenewed⟩ := ok_applyRequest h
    refine ⟨.new p (hseq.resolve_left fun hr => ?_) hv happ, .inr ⟨p, l, hv, hmono ▸ hrenewed⟩⟩
    obtain ⟨x, hx, -⟩ := (Option.any_eq_true _ _).mp hr
    exact hno x hr hx

/-- A request that is accepted for processing. -/
structure RequestOk (host : Bytes) (request : Sbj) (now : ℤ) (db : Db) : Prop where
  envelope : requestOk request now = true
  reports : ∀ r ∈ requestReports request, reportOk r = true
  distinct : duplicateReports (requestReports request) = false
  host : ∃ x ∈ db.hosts, x.id = host ∧ x.enabled = true

lemma ok_leaseExchange {request v : Sbj} (h : Ok (leaseExchange host request now) s v s') :
    RequestOk host request now s.db ∧ Exchanged host request now s.db v s'.db ∧
      Answered host request now s v s' := by
  simp only [leaseExchange, ok_guard] at h
  obtain ⟨h1, h2, h3, h⟩ := h
  obtain ⟨io, s₁, h4, hdb, -, hmono⟩ := ok_atomically h
  obtain ⟨hhost, hex, hanswered⟩ := ok_exchangeLocked h4
  rw [Answered, hdb, ← hmono]
  exact ⟨⟨h1, by simpa using h2, by simpa using h3, hhost⟩, hex, hanswered⟩

end Center
end SbEasy

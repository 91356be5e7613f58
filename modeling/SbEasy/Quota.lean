import SbEasy.Budget

/-!
The budget along every run of the center.

Edits of users leave the lease table alone: a smaller quota is refused while more than it
is allocated, and a new epoch starts without rows.
-/

namespace SbEasy

open Center

namespace Budget

variable {users : List ProxyUser} {l : List ProxyLease}

lemma updateUsers (hb : Budget users l) {p : ProxyUser → Bool} {f : ProxyUser → ProxyUser}
    (hid : ∀ u, (f u).id = u.id) (hepoch : ∀ u ∈ users, p u = true → u.epoch ≤ (f u).epoch)
    (hquota : ∀ u ∈ users, p u = true → 0 ≤ (f u).quotaBytes ∧ (f u).quotaBytes ≤ safeInteger)
    (hwithin : ∀ u ∈ users, p u = true →
      granted l (f u).id (f u).epoch ≤ cap (f u).quotaBytes) :
    Budget (Table.update p f users) l := by
  refine ⟨?_, hb.leaseIds, hb.leaseKeys, fun x hx => ?_, hb.counters, fun u hu => ?_,
    fun u hu => ?_⟩
  · exact Table.nodup_update hb.userIds fun u _ _ => hid u
  · obtain ⟨u, hu, h1, h2⟩ := hb.owner x hx
    refine ⟨_, Table.mem_update.mpr ⟨u, hu, rfl⟩, ?_⟩
    split_ifs with hp
    · exact ⟨(hid u).trans h1, h2.trans (hepoch u hu hp)⟩
    · exact ⟨h1, h2⟩
  · obtain ⟨v, hv, rfl⟩ := Table.mem_update.mp hu
    split_ifs with hp
    · exact hquota v hv hp
    · exact hb.quota v hv
  · obtain ⟨v, hv, rfl⟩ := Table.mem_update.mp hu
    split_ifs with hp
    · exact hwithin v hv hp
    · exact hb.within v hv

lemma keepUsers (hb : Budget users l) (p : ProxyUser → Bool) {f : ProxyUser → ProxyUser}
    (hf : ∀ u, (f u).id = u.id ∧ (f u).epoch = u.epoch ∧ (f u).quotaBytes = u.quotaBytes) :
    Budget (Table.update p f users) l := by
  refine hb.updateUsers (fun u => (hf u).1) (fun u _ _ => (hf u).2.1.ge) (fun u hu _ => ?_)
    (fun u hu _ => ?_)
  · rw [(hf u).2.2]; exact hb.quota u hu
  · rw [(hf u).1, (hf u).2.1, (hf u).2.2]; exact hb.within u hu

lemma granted_unknown (hb : Budget users l) {id : Bytes} (h : ∀ u ∈ users, u.id ≠ id) (epoch : ℤ) :
    granted l id epoch = 0 := by
  have : l.filter (Db.ofEpoch id epoch) = [] := by
    rw [List.filter_eq_nil_iff]
    intro x hx hp
    simp only [Db.ofEpoch, Bool.and_eq_true, beq_iff_eq] at hp
    obtain ⟨u, hu, h1, -⟩ := hb.owner x hx
    exact h u hu (h1.trans hp.1)
  simp [granted, Table.sum, this]

lemma granted_later (hb : Budget users l) {u : ProxyUser} (hu : u ∈ users) {epoch : ℤ}
    (h : u.epoch < epoch) : granted l u.id epoch = 0 := by
  have : l.filter (Db.ofEpoch u.id epoch) = [] := by
    rw [List.filter_eq_nil_iff]
    intro x hx hp
    simp only [Db.ofEpoch, Bool.and_eq_true, beq_iff_eq] at hp
    obtain ⟨v, hv, h1, h2⟩ := hb.owner x hx
    obtain rfl := hb.eq_of_userId hv hu (h1.trans hp.1)
    omega
  simp [granted, Table.sum, this]

lemma cap_nonneg {q : ℤ} (h : 0 ≤ q) : 0 ≤ cap q := by
  unfold cap
  split_ifs
  · decide
  · exact h

lemma putUser (hb : Budget users l) {row : ProxyUser} (hok : RowOk row)
    (hfresh : (∀ u ∈ users, u.id ≠ row.id) ∨ ∃ old ∈ users, old.id = row.id ∧
      (row.quotaBytes = 0 ∨ granted l old.id old.epoch ≤ row.quotaBytes)) :
    Budget (Table.upsert (fun u => u.id == row.id) (userUpdate row) row users) l := by
  unfold Table.upsert
  rcases hfresh with hfresh | ⟨old, hold, hid, hq⟩
  · have hany : ¬ users.any (fun u => u.id == row.id) = true := by
      simpa using hfresh
    rw [if_neg hany]
    refine ⟨?_, hb.leaseIds, hb.leaseKeys, fun x hx => ?_, hb.counters, fun u hu => ?_,
      fun u hu => ?_⟩
    · have hids := Table.nodup_upsert (f := userUpdate row) hb.userIds row fun _ _ _ => rfl
      rw [Table.upsert, if_neg hany] at hids
      exact hids
    · obtain ⟨u, hu, h⟩ := hb.owner x hx
      exact ⟨u, by simp [hu], h⟩
    · rcases List.mem_append.mp hu with hu | hu
      · exact hb.quota u hu
      · rw [List.mem_singleton.mp hu]; exact hok.quota
    · rcases List.mem_append.mp hu with hu | hu
      · exact hb.within u hu
      · rw [List.mem_singleton.mp hu, hb.granted_unknown hfresh]
        exact cap_nonneg hok.quota.1
  · have hany : users.any (fun u => u.id == row.id) = true :=
      List.any_eq_true.mpr ⟨old, hold, beq_iff_eq.mpr hid⟩
    rw [if_pos hany]
    refine hb.updateUsers (fun _ => rfl) (fun _ _ _ => le_rfl) (fun _ _ _ => hok.quota)
      (fun u hu hp => ?_)
    obtain rfl := hb.eq_of_userId hu hold ((beq_iff_eq.mp hp).trans hid.symm)
    change granted l u.id u.epoch ≤ cap row.quotaBytes
    unfold cap
    split_ifs with h0
    · have h1 := hb.within u hu
      have h2 := hb.quota u hu
      unfold cap at h1
      split_ifs at h1 <;> omega
    · exact hq.resolve_left h0

end Budget

section

variable [Platform]

def Cmd.createsUser : Cmd → Bool
  | .userSave none _ => true
  | _ => false

/-- A call that creates a user does not draw an identifier in use. -/
def FreshUserIds (db : Db) (c : Call) : Prop :=
  c.cmd.createsUser = true → ∀ raw ∈ c.io.random, ∀ u ∈ db.users, u.id ≠ uuidText raw

instance (db : Db) (c : Call) : Decidable (FreshUserIds db c) := inferInstanceAs (Decidable (_ → _))

lemma budget_step {db : Db} {c : Call} (hb : Budget db.users db.leases) (hf : FreshUserIds db c) :
    Budget (c.next db).users (c.next db).leases ∧ Grows db.leases (c.next db).leases := by
  rcases c.cases db with ⟨e, -, hdb⟩ | ⟨v, -, heff⟩
  · rw [hdb]; exact ⟨hb, Grows.refl _⟩
  · revert heff
    generalize c.next db = db'
    generalize hcmd : c.cmd = cmd
    intro heff
    cases heff with
    | read | runtimeReport | deviceCreate | deviceRevoke | ingressSave | createHost | updateHost
    | deleteHost => exact ⟨hb, Grows.refl _⟩
    | userSave row hosts hok hadm =>
      refine ⟨hb.putUser hok ?_, Grows.refl _⟩
      cases hadm with
      | new raw hraw _ hid => exact Or.inl fun u hu => hid ▸ hf (by rw [hcmd]; rfl) raw hraw u hu
      | change old hmem hid _ hq => exact Or.inr ⟨old, hmem, hid, hq⟩
    | userRemove => exact ⟨hb.keepUsers _ fun _ => ⟨rfl, rfl, rfl⟩, Grows.refl _⟩
    | claimRotate hash => exact ⟨hb.keepUsers _ fun _ => ⟨rfl, rfl, rfl⟩, Grows.refl _⟩
    | userReset =>
      refine ⟨hb.updateUsers (fun _ => rfl) (fun u _ _ => by simp) (fun u hu _ => hb.quota u hu)
        (fun u hu _ => ?_), Grows.refl _⟩
      have h0 : granted db.leases u.id (u.epoch + 1) = 0 := hb.granted_later hu (by omega)
      exact h0.le.trans (Budget.cap_nonneg (hb.quota u hu).1)
    | leaseExchange hok hex =>
      cases hex with
      | replay x _ _ _ _ hsame => rw [hsame]; exact ⟨hb, Grows.refl _⟩
      | new p _ _ happ =>
        obtain ⟨l, l', hrep, hserved, rfl⟩ := happ
        obtain ⟨h1, h2⟩ := hb.reported hrep
        cases hserved with
        | none => exact ⟨h1, h2⟩
        | some node _ _ _ hleased =>
          obtain ⟨h3, h4⟩ := h1.leased
            (fun v hv => (List.mem_filter.mp (mem_orderBy.mp hv)).1) hleased
          exact ⟨h3, h2.trans h4⟩

/-- One call, with generated user identifiers that are not in use. -/
def Step (db db' : Db) : Prop := ∃ c : Call, FreshUserIds db c ∧ db' = c.next db

lemma budget_run {hosts : List Host} {db : Db}
    (h : Relation.ReflTransGen Step (Db.fresh hosts) db) : Budget db.users db.leases := by
  induction h with
  | refl =>
    refine ⟨by simp [Db.fresh], by simp [Db.fresh], by simp [Db.fresh], ?_, ?_, ?_, ?_⟩ <;>
      simp [Db.fresh]
  | tail _ hstep ih =>
    obtain ⟨c, hf, rfl⟩ := hstep
    exact (budget_step ih hf).1

/-- **Quota**: along every sequence of calls that starts from empty proxy tables, the grants
of a user's current epoch stay within the quota, over all hosts and boots; reported usage
stays within each grant; and no call lowers a counter of a lease row. -/
theorem grants_within_quota {hosts : List Host} {db : Db}
    (h : Relation.ReflTransGen Step (Db.fresh hosts) db) :
    (∀ u ∈ db.users, db.allocated u.id u.epoch ≤
      if u.quotaBytes = 0 then 2 ^ 53 - 1 else u.quotaBytes) ∧
    (∀ l ∈ db.leases, 0 ≤ l.usedBytes ∧ l.usedBytes ≤ l.grantBytes) ∧
    ∀ c : Call, FreshUserIds db c → ∀ l ∈ db.leases, ∃ l' ∈ (c.next db).leases,
      l'.id = l.id ∧ l.grantBytes ≤ l'.grantBytes ∧ l.usedBytes ≤ l'.usedBytes := by
  have hb := budget_run h
  refine ⟨fun u hu => hb.within u hu, hb.counters, fun c hc l hl => ?_⟩
  obtain ⟨l', hl', h1, -, h3, h4⟩ := (budget_step hb hc).2 l hl
  exact ⟨l', hl', h1, h3, h4⟩

/-- The calls of a run, one after the other. -/
def runCalls (db : Db) (cs : List Call) : Db := cs.foldl (fun db c => c.next db) db

/-- No call of the run draws the identifier of an existing user. -/
def freshAlong : Db → List Call → Bool
  | _, [] => true
  | db, c :: cs => decide (FreshUserIds db c) && freshAlong (c.next db) cs

lemma reach_runCalls {db : Db} {cs : List Call} (h : freshAlong db cs = true) :
    Relation.ReflTransGen Step db (runCalls db cs) := by
  induction cs generalizing db with
  | nil => exact .refl
  | cons c cs ih =>
    simp only [freshAlong, Bool.and_eq_true, decide_eq_true_eq] at h
    exact .head ⟨c, h.1, rfl⟩ (ih h.2)

/-- A call at second 1000, more than a minute after the process started. -/
def sampleCall (cmd : Cmd) (random : List Bytes) : Call :=
  ⟨cmd, 1000, ⟨0, 0, false, []⟩, ⟨fun _ => 70000, random, none⟩⟩

/-- A user with one device on one host, and the first exchange of that host. -/
def sampleCalls : List Call :=
  [sampleCall (.createHost (lit "self") true) [],
   sampleCall (.runtimeReport (lit "self") (some (.arr [.str (lit "proxy_users_v1")]))) [],
   sampleCall (.ingressSave (lit "self") (.obj [(lit "enabled", .bool true),
     (lit "listen", .str (lit "127.0.0.1")), (lit "listen_port", .int 8388),
     (lit "server", .str (lit "example"))])) [List.replicate 16 1],
   sampleCall (.userSave none (.obj [(lit "enabled", .bool true), (lit "expires_at", .int 0),
     (lit "host_ids", .arr [.str (lit "self")]), (lit "max_devices", .int 1),
     (lit "name", .str (lit "a")), (lit "quota_bytes", .int 1000)])) [List.replicate 16 2],
   sampleCall (.deviceCreate (uuidText (List.replicate 16 2)) (.obj [(lit "name", .str (lit "d"))]))
     [List.replicate 16 3, List.replicate 16 4, List.replicate 32 5],
   sampleCall (.leaseExchange (lit "self") (.obj [(lit "boot_id", .str (lit "b")),
     (lit "reports", .arr []), (lit "request_seq", .int 1), (lit "version", .int 1)]))
     [List.replicate 16 6]]

end

theorem grants_within_quota_sample :
    let db := @runCalls .sample (Db.fresh []) sampleCalls
    db.leases.map ProxyLease.grantBytes = [1000] ∧
      ∀ u ∈ db.users, db.allocated u.id u.epoch ≤
        if u.quotaBytes = 0 then 2 ^ 53 - 1 else u.quotaBytes :=
  ⟨by decide +kernel, (@grants_within_quota .sample [] _
    (@reach_runCalls .sample _ _ (by decide +kernel))).1⟩

end SbEasy

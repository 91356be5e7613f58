import SbEasy.GrantVisits

/-!
How grants grow: what one exchange adds to the lease of each user that it visits, whom it leaves
out, and that the arithmetic of `lease_locked` stays within 64 bits.
-/

namespace SbEasy

open Center Tx

/-- How a grant may grow, with `unallocated` of the quota left. -/
structure Growth (unallocated before used after : ℤ) : Prop where
  mono : before ≤ after
  chunk : after - before ≤ 64 * 2 ^ 20
  enough : 0 < before → min (before / 2) (32 * 2 ^ 20) < before - used → after = before
  exhausted : before = used → 0 < unallocated → before + 1 ≤ after
  room : after - before ≤ unallocated

lemma extends_iff {grant used : ℤ} (h : 0 ≤ grant) :
    Extends grant used ↔ grant = 0 ∨ grant - used ≤ min (grant / 2) (32 * 2 ^ 20) := by
  have hhalf : Int.tdiv grant 2 = grant / 2 := Int.tdiv_eq_ediv_of_nonneg h
  have hchunk : Int.tdiv grantChunk 2 = 32 * 2 ^ 20 := by decide
  unfold Extends
  rw [hhalf, hchunk]
  split_ifs with hlt
  · rw [min_eq_right hlt.le]
  · rw [min_eq_left (not_lt.mp hlt)]

lemma nextGrant_growth {quota allocated hosts grant used : ℤ} (hh : 1 ≤ hosts) (hused : 0 ≤ used)
    (hle : used ≤ grant) (hwithin : allocated ≤ cap quota) :
    Growth (cap quota - allocated) grant used (nextGrant quota allocated hosts grant used) := by
  have hiff := @extends_iff grant used (hused.trans hle)
  by_cases h : Extends grant used ∧ 0 < cap quota - allocated
  · obtain ⟨add, hpos, hroom, hchunk, heq⟩ := nextGrant_extends hh h.1 h.2
    rw [heq]
    refine ⟨by omega, ?_, fun h1 h2 => ?_, fun _ _ => by omega, by omega⟩
    · unfold grantChunk at hchunk
      omega
    · have := hiff.mp h.1
      omega
  · rw [nextGrant_keeps h]
    refine ⟨le_rfl, by simp, fun _ _ => rfl, fun h1 h2 => absurd ⟨hiff.mpr ?_, h2⟩ h, by omega⟩
    omega

/-! ### Arithmetic in 64 bits -/

/-- The result of an operation on `int64_t`, if there is one. -/
def int64 (z : ℤ) : Option ℤ := if -2 ^ 63 ≤ z ∧ z < 2 ^ 63 then some z else none

/-- `SUM(grant_bytes)`, row by row. -/
def checkedSum (grants : List ℤ) : Option ℤ := grants.foldlM (fun sum g => int64 (sum + g)) 0

/-- The grant of `lease_locked`, operation by operation. -/
def checkedGrant (quota allocated hosts grant used : ℤ) : Option ℤ := do
  let available ← int64 ((if quota ≠ 0 then quota else safeInteger) - allocated)
  let half ← int64 (Int.tdiv grant 2)
  let threshold := if half > Int.tdiv grantChunk 2 then Int.tdiv grantChunk 2 else half
  let unused ← int64 (grant - used)
  if (grant = 0 ∨ unused ≤ threshold) ∧ available > 0 then
    let share ← int64 (Int.tdiv available hosts)
    let add ← int64 (share + if Int.tmod available hosts ≠ 0 then 1 else 0)
    int64 (grant + if add > grantChunk then grantChunk else add)
  else some grant

/-- The end of a lease, operation by operation. -/
def checkedUntil (u : ProxyUser) (now : ℤ) : Option ℤ := do
  let until_ ← int64 (now + leaseSeconds)
  some (if u.expiresAt ≠ 0 ∧ u.expiresAt < until_ then u.expiresAt else until_)

/-- The arithmetic of `lease_locked` for a user: the oldest report that counts, the sum of the
grants, the new grant and its end. -/
def checkedLease (u : ProxyUser) (grants : List ℤ) (hosts grant used now : ℤ) :
    Option (ℤ × ℤ × ℤ × ℤ) := do
  let allocated ← checkedSum grants
  let since ← int64 (now - runtimeFreshSeconds)
  let next ← checkedGrant u.quotaBytes allocated hosts grant used
  let until_ ← checkedUntil u now
  some (since, allocated, next, until_)

lemma int64_of_bounds {z : ℤ} (h : -2 ^ 63 ≤ z ∧ z < 2 ^ 63) : int64 z = some z := if_pos h

lemma checkedSum_eq {grants : List ℤ} (hnonneg : ∀ g ∈ grants, 0 ≤ g)
    (hsum : grants.sum < 2 ^ 63) : checkedSum grants = some grants.sum := by
  suffices hgen : ∀ (sum : ℤ), 0 ≤ sum → sum + grants.sum < 2 ^ 63 →
      grants.foldlM (fun sum g => int64 (sum + g)) sum = some (sum + grants.sum) by
    simpa [checkedSum] using hgen 0 le_rfl (by omega)
  clear hsum
  induction grants with
  | nil => simp
  | cons g grants ih =>
    intro sum h0 hlt
    have hg := hnonneg g (by simp)
    have hrest : 0 ≤ grants.sum := List.sum_nonneg fun x hx => hnonneg x (by simp [hx])
    rw [List.sum_cons] at hlt ⊢
    rw [List.foldlM_cons, int64_of_bounds (by omega), Option.bind_eq_bind, Option.bind_some,
      ih (fun x hx => hnonneg x (by simp [hx])) _ (by omega) (by omega), add_assoc]

lemma checkedGrant_eq {quota allocated hosts grant used : ℤ} (hh : 1 ≤ hosts) (hused : 0 ≤ used)
    (hle : used ≤ grant) (halloc : grant ≤ allocated) (hwithin : allocated ≤ cap quota)
    (hcap : cap quota ≤ safeInteger) :
    checkedGrant quota allocated hosts grant used =
      some (nextGrant quota allocated hosts grant used) := by
  unfold safeInteger at hcap
  have hhalf : Int.tdiv grant 2 = grant / 2 := Int.tdiv_eq_ediv_of_nonneg (hused.trans hle)
  unfold checkedGrant nextGrant
  simp only [cap_eq]
  simp only [Option.bind_eq_bind]
  rw [int64_of_bounds (by omega), Option.bind_some, int64_of_bounds (by rw [hhalf]; omega),
    Option.bind_some, int64_of_bounds (by omega), Option.bind_some]
  by_cases hext : Extends grant used ∧ cap quota - allocated > 0
  · obtain ⟨hpos, hshare⟩ := share_bounds hext.2 hh
    have hdiv : 0 ≤ Int.tdiv (cap quota - allocated) hosts := Int.tdiv_nonneg hext.2.le (by omega)
    have hchunk : (0 : ℤ) < grantChunk ∧ grantChunk < 2 ^ 62 := by decide
    unfold Extends at hext
    rw [if_pos hext, if_pos hext]
    rw [int64_of_bounds (by split_ifs at hshare <;> omega), Option.bind_some,
      int64_of_bounds (by omega), Option.bind_some, int64_of_bounds]
    split_ifs <;> omega
  · unfold Extends at hext
    rw [if_neg hext, if_neg hext]

lemma checkedUntil_eq {u : ProxyUser} {now : ℤ} (h : 1 ≤ now ∧ now ≤ 4102444740) :
    checkedUntil u now = some (leaseUntil u now) := by
  unfold checkedUntil
  rw [int64_of_bounds (by unfold leaseSeconds; omega)]
  rfl

def leaseGrant (l : List ProxyLease) (u : ProxyUser) (host boot : Bytes) : ℤ :=
  ((l.find? (sameLease u.id host boot u.epoch)).map ProxyLease.grantBytes).getD 0

def leaseUsed (l : List ProxyLease) (u : ProxyUser) (host boot : Bytes) : ℤ :=
  ((l.find? (sameLease u.id host boot u.epoch)).map ProxyLease.usedBytes).getD 0

section

variable {users : List ProxyUser} {u : ProxyUser} {l l' : List ProxyLease} {host boot : Bytes}

lemma lease_congr (h : ofUser u.id l = ofUser u.id l') : leaseGrant l u host boot =
    leaseGrant l' u host boot ∧ leaseUsed l u host boot = leaseUsed l' u host boot := by
  have hfind : l.find? (sameLease u.id host boot u.epoch) =
      l'.find? (sameLease u.id host boot u.epoch) := by
    rw [← find?_ofUser, h, find?_ofUser]
  rw [leaseGrant, leaseUsed, hfind]
  exact ⟨rfl, rfl⟩

lemma granted_congr (h : ofUser u.id l = ofUser u.id l') :
    granted l u.id u.epoch = granted l' u.id u.epoch := by
  rw [← granted_ofUser, h, granted_ofUser]

lemma reported_grants {now : ℤ} {rs : List (Bytes × ℤ)} {host' boot' : Bytes}
    (h : Reported host' boot' now rs l l') : leaseGrant l' u host boot = leaseGrant l u host boot ∧
      granted l' u.id u.epoch = granted l u.id u.epoch := by
  induction h with
  | nil l => exact ⟨rfl, rfl⟩
  | cons _ _ _ _ _ _ _ _ ih =>
    rw [ih.1, ih.2, granted_putUsed]
    refine ⟨?_, rfl⟩
    rw [leaseGrant, putUsed, Table.find?_update fun r => by rfl, Option.map_map]
    congr 2
    funext r
    rw [Function.comp_apply]
    split_ifs <;> rfl

lemma Budget.lease_counters (hb : Budget users l) :
    0 ≤ leaseUsed l u host boot ∧ leaseUsed l u host boot ≤ leaseGrant l u host boot := by
  unfold leaseUsed leaseGrant
  cases hf : l.find? (sameLease u.id host boot u.epoch) with
  | none => exact ⟨le_rfl, le_rfl⟩
  | some r => exact hb.counters r (List.mem_of_find?_eq_some hf)

lemma Budget.leaseGrant_le (hb : Budget users l) :
    leaseGrant l u host boot ≤ granted l u.id u.epoch := by
  unfold leaseGrant
  cases hf : l.find? (sameLease u.id host boot u.epoch) with
  | none => exact Table.sum_nonneg fun r hr _ => hb.grant_nonneg hr
  | some r =>
    refine Table.le_sum_of_mem (fun x hx _ => hb.grant_nonneg hx) (List.mem_of_find?_eq_some hf) ?_
    have hkey := sameLease_iff.mp (List.find?_some hf)
    simp only [ProxyLease.key, Prod.mk.injEq] at hkey
    simp [Db.ofEpoch, hkey.1, hkey.2.2.2]

lemma lease_putRow {db : Db} {now : ℤ} {p : UserPolicy} {new : ProxyLease}
    (hg : Granted db host boot now u l p new) :
    leaseGrant (putRow new l) u host boot = new.grantBytes ∧
      leaseUsed (putRow new l) u host boot = new.usedBytes := by
  have hkey : sameLease new.userId new.hostId new.bootId new.epoch =
      sameLease u.id host boot u.epoch := by rw [hg.row]
  have hused := hg.used
  unfold leaseGrant leaseUsed putRow Table.upsert
  rw [hkey]
  split_ifs with hany
  · rw [Table.find?_update fun r => by rfl]
    obtain ⟨r, hr⟩ := Option.isSome_iff_exists.mp (List.find?_isSome.mpr (List.any_eq_true.mp hany))
    rw [hr] at hused ⊢
    simp only [Option.map_some, Option.getD_some] at hused ⊢
    rw [if_pos (List.find?_some hr), hused]
    exact ⟨rfl, rfl⟩
  · have hnone : l.find? (sameLease u.id host boot u.epoch) = none := by
      rw [List.find?_eq_none]
      exact fun r hr hs => hany (List.any_eq_true.mpr ⟨r, hr, hs⟩)
    have hnew : sameLease u.id host boot u.epoch new = true := by
      rw [← hkey]
      simp [sameLease]
    rw [List.find?_append, hnone, Option.none_or, List.find?_singleton, if_pos hnew]
    exact ⟨rfl, rfl⟩

end

/-! ### An exchange -/

/-- A device of the user is enabled and has not expired. -/
def HasDevice (db : Db) (u : ProxyUser) (now : ℤ) : Prop :=
  ∃ d ∈ db.devices, Db.activeDevice u.id now d = true

lemma policyDevices_eq_nil_iff {db : Db} {u : ProxyUser} {now : ℤ} :
    policyDevices db u.id now = [] ↔ ¬ HasDevice db u now := by
  rw [policyDevices, List.map_eq_nil_iff, HasDevice, List.eq_nil_iff_forall_not_mem]
  simp only [mem_orderBy, List.mem_filter]
  exact ⟨fun h ⟨d, hd⟩ => h d hd, fun h d hd => h ⟨d, hd⟩⟩

lemma fencePassed_sublist (now : ℤ) (clock : ProxyClock) (mono : ℕ → ℤ) (us : List ProxyUser) :
    (fencePassed now clock mono us).Sublist us := by
  induction us generalizing clock mono with
  | nil => exact .slnil
  | cons u us ih =>
    rw [fencePassed]
    split_ifs
    · exact (ih _ _).cons_cons u
    · exact (ih _ _).cons u

lemma servedUsers_sublist (db : Db) (host : Bytes) (now : ℤ) :
    (servedUsers db host now).Sublist (hostUsers db host now) := by
  unfold servedUsers
  split
  · split_ifs
    · exact .refl _
    · exact List.nil_sublist _
  · exact List.nil_sublist _

/-- What an exchange does for one user that the fence lets pass: `after` is the lease table it
leaves. -/
structure UserGrows (db : Db) (host boot : Bytes) (now : ℤ) (p : Policy) (after : List ProxyLease)
    (u : ProxyUser) : Prop where
  growth : HasDevice db u now → Growth (cap u.quotaBytes - db.allocated u.id u.epoch)
    (leaseGrant db.leases u host boot) (leaseUsed after u host boot) (leaseGrant after u host boot)
  omitted : (∀ q ∈ p.users, q.id ≠ u.id) ↔
    ¬ HasDevice db u now ∨ leaseGrant after u host boot = leaseUsed after u host boot
  returned : ∀ q ∈ p.users, q.id = u.id → q.epoch = u.epoch ∧
    q.lease.grantBytes = leaseGrant after u host boot ∧
    q.lease.usedBytes = leaseUsed after u host boot
  range : HasDevice db u now → ∃ next, checkedLease u
    ((db.leases.filter (Db.ofEpoch u.id u.epoch)).map ProxyLease.grantBytes)
    (hostCount db u.id now) (leaseGrant db.leases u host boot) (leaseUsed after u host boot) now =
      some (now - runtimeFreshSeconds, db.allocated u.id u.epoch, next, leaseUntil u now) ∧
    leaseGrant after u host boot = next

section

variable {db : Db} {host boot : Bytes} {now : ℤ} {u : ProxyUser} {rs : List (Bytes × ℤ)}
  {l l' : List ProxyLease} {p : Policy}

lemma notGranted_le {l₁ : List ProxyLease} (h : NotGranted db host boot now u l₁)
    (hbefore : ofUser u.id l₁ = ofUser u.id l) (hrep : Reported host boot now rs db.leases l)
    (hdev : HasDevice db u now) :
    1 ≤ hostCount db u.id now ∧ nextGrant u.quotaBytes (db.allocated u.id u.epoch)
      (hostCount db u.id now) (leaseGrant db.leases u host boot) (leaseUsed l u host boot) ≤
        leaseUsed l u host boot := by
  rcases h with hnone | ⟨hhosts, hle⟩
  · exact absurd hdev (policyDevices_eq_nil_iff.mp hnone)
  · have hgrants := @reported_grants u db.leases l host boot _ _ _ _ hrep
    obtain ⟨hgrant, hused⟩ := @lease_congr u l₁ l host boot hbefore
    change nextGrant _ (granted l₁ u.id u.epoch) _ (leaseGrant l₁ u host boot)
      (leaseUsed l₁ u host boot) ≤ leaseUsed l₁ u host boot at hle
    rw [granted_congr hbefore, hgrants.2, hgrant, hgrants.1, hused] at hle
    exact ⟨hhosts, hle⟩

lemma VisitedUser.next (h : VisitedUser db host boot now u l p.users l')
    (hb : Budget db.users db.leases) (hu : u ∈ db.users)
    (hrep : Reported host boot now rs db.leases l) (hdev : HasDevice db u now) :
    1 ≤ hostCount db u.id now ∧ leaseUsed l' u host boot = leaseUsed l u host boot ∧
      leaseGrant l' u host boot = nextGrant u.quotaBytes (db.allocated u.id u.epoch)
        (hostCount db u.id now) (leaseGrant db.leases u host boot) (leaseUsed l' u host boot) := by
  have hgrants := @reported_grants u db.leases l host boot _ _ _ _ hrep
  have hcounters := @Budget.lease_counters db.users u l host boot (hb.reported hrep).1
  have hsum : db.allocated u.id u.epoch = granted db.leases u.id u.epoch := rfl
  rw [hgrants.1] at hcounters
  cases h with
  | @leave l₁ hbefore hnone homit hafter =>
    obtain ⟨hgrant, hused⟩ := @lease_congr u l' l host boot (hafter.trans hbefore)
    obtain ⟨hhosts, hle⟩ := notGranted_le hnone hbefore hrep hdev
    have hmono := (nextGrant_growth (Int.ofNat_le.mpr hhosts) hcounters.1 hcounters.2
      (hb.within u hu)).mono
    rw [hused, hgrant, hgrants.1]
    rw [hsum] at hle ⊢
    exact ⟨hhosts, rfl, by omega⟩
  | @lease l₁ q new hbefore hg hmem honly hafter =>
    obtain ⟨hgrant, hused⟩ := @lease_congr u l₁ l host boot hbefore
    obtain ⟨hgrant', hused'⟩ := @lease_congr u l' _ host boot hafter
    obtain ⟨hnew, hnew'⟩ := lease_putRow hg
    have hnext : new.grantBytes = nextGrant u.quotaBytes (granted l₁ u.id u.epoch)
      (hostCount db u.id now) (leaseGrant l₁ u host boot) new.usedBytes := hg.grant
    have hsame : new.usedBytes = leaseUsed l₁ u host boot := hg.used
    rw [granted_congr hbefore, hgrants.2, hgrant, hgrants.1] at hnext
    rw [hused', hnew', hgrant', hnew, hsum]
    exact ⟨hg.hosts, hsame.trans hused, hnext⟩

lemma VisitedUser.grows (h : VisitedUser db host boot now u l p.users l')
    (hb : Budget db.users db.leases) (hu : u ∈ db.users)
    (hrep : Reported host boot now rs db.leases l) (hnow : 1 ≤ now ∧ now ≤ 4102444740) :
    UserGrows db host boot now p l' u := by
  have hgrants := @reported_grants u db.leases l host boot _ _ _ _ hrep
  have hcounters := @Budget.lease_counters db.users u l host boot (hb.reported hrep).1
  rw [hgrants.1] at hcounters
  have hwithin := hb.within u hu
  have hcap : cap u.quotaBytes ≤ safeInteger := by
    unfold cap
    split_ifs
    · exact le_rfl
    · exact (hb.quota u hu).2
  have hnextOf := h.next hb hu hrep
  refine ⟨fun hdev => ?_, ?_, ?_, fun hdev => ?_⟩
  · obtain ⟨hhosts, hused, hnext⟩ := hnextOf hdev
    rw [hnext, hused]
    exact nextGrant_growth (Int.ofNat_le.mpr hhosts) hcounters.1 hcounters.2 hwithin
  · cases h with
    | @leave l₁ hbefore hnone homit hafter =>
      refine iff_of_true homit (or_iff_not_imp_left.mpr fun hdev => ?_)
      rw [not_not] at hdev
      obtain ⟨hhosts, hle⟩ := notGranted_le hnone hbefore hrep hdev
      obtain ⟨-, hused, hnext⟩ := hnextOf hdev
      have hmono := (nextGrant_growth (Int.ofNat_le.mpr hhosts) hcounters.1 hcounters.2 hwithin).mono
      rw [hnext, hused]
      change nextGrant _ (granted db.leases u.id u.epoch) _ _ _ ≤ _ at hle
      change nextGrant _ (granted db.leases u.id u.epoch) _ _ _ = _
      omega
    | @lease l₁ q new hbefore hg hmem honly hafter =>
      have hid : q.id = u.id := by rw [hg.policy]
      refine iff_of_false (fun hall => hall q hmem hid) ?_
      rintro (hdev | heq)
      · exact hg.devices (policyDevices_eq_nil_iff.mpr hdev)
      · obtain ⟨hgrant', hused'⟩ := @lease_congr u l' _ host boot hafter
        rw [hgrant', hused', (lease_putRow hg).1, (lease_putRow hg).2] at heq
        exact absurd hg.room (by omega)
  · cases h with
    | leave _ _ homit _ => exact fun q hq hid => absurd hid (homit q hq)
    | @lease l₁ q new hbefore hg hmem honly hafter =>
      intro q' hq' hid
      obtain ⟨hgrant', hused'⟩ := @lease_congr u l' _ host boot hafter
      rw [honly q' hq' hid, hgrant', hused', (lease_putRow hg).1, (lease_putRow hg).2, hg.policy]
      exact ⟨rfl, rfl, rfl⟩
  · obtain ⟨hhosts, hused, hnext⟩ := hnextOf hdev
    refine ⟨_, ?_, hnext⟩
    rw [hused]
    have hbound : granted db.leases u.id u.epoch ≤ 9007199254740991 := hwithin.trans hcap
    have hsum : checkedSum ((db.leases.filter (Db.ofEpoch u.id u.epoch)).map ProxyLease.grantBytes) =
        some (db.allocated u.id u.epoch) := by
      refine checkedSum_eq (fun g hg => ?_) (lt_of_le_of_lt hbound (by norm_num))
      obtain ⟨r, hr, rfl⟩ := List.mem_map.mp hg
      exact hb.grant_nonneg (List.mem_filter.mp hr).1
    have hsince : int64 (now - runtimeFreshSeconds) = some (now - runtimeFreshSeconds) :=
      int64_of_bounds (by unfold runtimeFreshSeconds; omega)
    have hgrant := checkedGrant_eq (Int.ofNat_le.mpr hhosts) hcounters.1 hcounters.2
      hb.leaseGrant_le hwithin hcap
    unfold checkedLease
    rw [hsum, hsince, checkedUntil_eq hnow]
    simp only [Option.bind_eq_bind, Option.bind_some]
    change (checkedGrant _ (granted db.leases u.id u.epoch) _ _ _).bind _ = _
    rw [hgrant]
    rfl

end

section

variable [Platform]

/-- What an exchange that answers `p` does for the users of its host that the fence lets pass, at the
readings of the clock that the call takes. -/
structure GrantsGrow (c : Call) (db : Db) (host : Bytes) (request : Sbj) (p : Policy) : Prop where
  answered : ∀ q ∈ p.users, ∃ u ∈ passedUsers db c.clock c.io.mono host c.now, q.id = u.id
  users : ∀ u ∈ passedUsers db c.clock c.io.mono host c.now,
    UserGrows db host (requestBoot request) c.now p (c.next db).leases u

/-- **Grant growth**: in every state the center can reach, an exchange that succeeds is a retry,
which changes nothing, or extends the leases of the users that the fence lets pass as `UserGrows`
says. -/
theorem exchange_grows {hosts : List Host} {db : Db}
    (h : Relation.ReflTransGen Step (Db.fresh hosts) db) {c : Call} {host : Bytes} {request v : Sbj}
    (hcmd : c.cmd = .leaseExchange host request) (hv : c.result db = .ok v) :
    (requestSeq request = lastSeq db host (requestBoot request) ∧ c.next db = db) ∨
      ∃ p, v = p.toSbj ∧ GrantsGrow c db host request p := by
  have hb := budget_run h
  have hok := Call.ok_exec hv
  rw [hcmd] at hok
  obtain ⟨⟨hrequest, -, -, -⟩, -, hanswered⟩ := ok_leaseExchange hok
  rcases hanswered with hretry | ⟨p, l, rfl, hrep, hvisited⟩
  · exact .inl hretry
  · have hsub : (passedUsers db c.clock c.io.mono host c.now).Sublist (hostUsers db host c.now) :=
      (fencePassed_sublist _ _ _ _).trans (servedUsers_sublist db host c.now)
    have hnow : 1 ≤ c.now ∧ c.now ≤ 4102444740 := by
      simp only [requestOk, Bool.and_eq_true, Bool.not_eq_true', Bool.or_eq_false_iff,
        decide_eq_false_iff_not] at hrequest
      omega
    refine .inr ⟨p, rfl, hvisited.answered, fun u hu => ?_⟩
    have hnodup := (hostUsers_nodup hb.userIds host c.now).sublist (hsub.map _)
    exact (hvisited.user hnodup hu).grows hb (mem_hostUsers (hsub.subset hu)).1 hrep hnow

end

/-- A host with a user of 1000 bytes, before its first exchange. -/
def sampleHost : Db := @runCalls .sample (Db.fresh []) (sampleCalls.take 5)

def sampleRequest : Sbj :=
  .obj [(lit "boot_id", .str (lit "b")), (lit "reports", .arr []), (lit "request_seq", .int 1),
    (lit "version", .int 1)]

def growthExchange : Call :=
  sampleCall (.leaseExchange (lit "self") sampleRequest) [List.replicate 16 6]

theorem exchange_grows_sample : ∃ p,
    @Call.result .sample growthExchange sampleHost = .ok p.toSbj ∧
      (passedUsers sampleHost growthExchange.clock growthExchange.io.mono (lit "self")
        growthExchange.now).length = 1 ∧
      @GrantsGrow .sample growthExchange sampleHost (lit "self") sampleRequest p := by
  have hok : (@Call.result .sample growthExchange sampleHost).isOk = true := by decide +kernel
  cases hv : @Call.result .sample growthExchange sampleHost with
  | error e => rw [hv] at hok; cases hok
  | ok v =>
    have hreach := @reach_runCalls .sample (Db.fresh []) (sampleCalls.take 5) (by decide +kernel)
    rcases @exchange_grows .sample [] sampleHost hreach growthExchange (lit "self") sampleRequest v
      rfl hv with ⟨hretry, -⟩ | ⟨p, rfl, hgrows⟩
    · exact absurd hretry (by decide +kernel)
    · exact ⟨p, rfl, by decide +kernel, hgrows⟩

end SbEasy

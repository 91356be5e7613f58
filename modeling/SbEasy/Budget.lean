import Mathlib.Logic.Relation
import SbEasy.Commands

/-!
The budget of a user: the grants of the current epoch stay within the quota, whatever hosts
and boots they went to, and no counter of a lease row ever falls.
-/

namespace SbEasy

open Center

/-- What a quota allows; zero stands for no limit. -/
def cap (quota : ℤ) : ℤ := if quota = 0 then safeInteger else quota

/-- The columns of a lease row that never change. -/
def ProxyLease.key (l : ProxyLease) : Bytes × Bytes × Bytes × ℤ :=
  (l.userId, l.hostId, l.bootId, l.epoch)

/-- Every row is still there, with counters no lower. -/
def Grows (l l' : List ProxyLease) : Prop :=
  ∀ r ∈ l, ∃ r' ∈ l', r'.id = r.id ∧ r'.key = r.key ∧ r.grantBytes ≤ r'.grantBytes ∧
    r.usedBytes ≤ r'.usedBytes

lemma Grows.refl (l : List ProxyLease) : Grows l l := fun r hr => ⟨r, hr, rfl, rfl, le_rfl, le_rfl⟩

lemma Grows.trans {l₁ l₂ l₃ : List ProxyLease} (h : Grows l₁ l₂) (h' : Grows l₂ l₃) :
    Grows l₁ l₃ := by
  intro r hr
  obtain ⟨r', hr', h1, h2, h3, h4⟩ := h r hr
  obtain ⟨r'', hr'', h1', h2', h3', h4'⟩ := h' r' hr'
  exact ⟨r'', hr'', h1'.trans h1, h2'.trans h2, h3.trans h3', h4.trans h4'⟩

lemma Grows.update {l : List ProxyLease} {p : ProxyLease → Bool} {f : ProxyLease → ProxyLease}
    (h : ∀ r ∈ l, p r = true → (f r).id = r.id ∧ (f r).key = r.key ∧
      r.grantBytes ≤ (f r).grantBytes ∧ r.usedBytes ≤ (f r).usedBytes) :
    Grows l (Table.update p f l) := by
  intro r hr
  refine ⟨_, Table.mem_update.mpr ⟨r, hr, rfl⟩, ?_⟩
  split_ifs with hp
  · exact h r hr hp
  · exact ⟨rfl, rfl, le_rfl, le_rfl⟩

/-- The sum of the grants of a user in an epoch. -/
def granted (l : List ProxyLease) (user : Bytes) (epoch : ℤ) : ℤ :=
  Table.sum (Db.ofEpoch user epoch) ProxyLease.grantBytes l

section
variable (id : Bytes) (used now : ℤ) (l : List ProxyLease)

lemma map_id_putUsed : (putUsed id used now l).map ProxyLease.id = l.map ProxyLease.id :=
  Table.map_update fun _ _ _ => rfl

lemma map_key_putUsed : (putUsed id used now l).map ProxyLease.key = l.map ProxyLease.key :=
  Table.map_update fun _ _ _ => rfl

lemma granted_putUsed (user : Bytes) (epoch : ℤ) :
    granted (putUsed id used now l) user epoch = granted l user epoch :=
  Table.sum_update_eq (fun _ _ _ => rfl) fun _ _ _ _ => rfl

end

structure Budget (users : List ProxyUser) (leases : List ProxyLease) : Prop where
  userIds : (users.map ProxyUser.id).Nodup
  leaseIds : (leases.map ProxyLease.id).Nodup
  leaseKeys : (leases.map ProxyLease.key).Nodup
  owner : ∀ l ∈ leases, ∃ u ∈ users, u.id = l.userId ∧ l.epoch ≤ u.epoch
  counters : ∀ l ∈ leases, 0 ≤ l.usedBytes ∧ l.usedBytes ≤ l.grantBytes
  quota : ∀ u ∈ users, 0 ≤ u.quotaBytes ∧ u.quotaBytes ≤ safeInteger
  within : ∀ u ∈ users, granted leases u.id u.epoch ≤ cap u.quotaBytes

namespace Budget

variable {users : List ProxyUser} {l l' : List ProxyLease}

lemma eq_of_id (h : Budget users l) {a b : ProxyLease} (ha : a ∈ l) (hb : b ∈ l) (hid : a.id = b.id) :
    a = b := List.inj_on_of_nodup_map h.leaseIds ha hb hid

lemma eq_of_key (h : Budget users l) {a b : ProxyLease} (ha : a ∈ l) (hb : b ∈ l)
    (hk : a.key = b.key) : a = b := List.inj_on_of_nodup_map h.leaseKeys ha hb hk

lemma eq_of_userId (h : Budget users l) {a b : ProxyUser} (ha : a ∈ users) (hb : b ∈ users)
    (hid : a.id = b.id) : a = b := List.inj_on_of_nodup_map h.userIds ha hb hid

lemma grant_nonneg (h : Budget users l) {r : ProxyLease} (hr : r ∈ l) : 0 ≤ r.grantBytes :=
  (h.counters r hr).1.trans (h.counters r hr).2

lemma putUsed_grows (h : Budget users l) {r : ProxyLease} (hr : r ∈ l) {used now : ℤ}
    (hlow : r.usedBytes ≤ used) : Grows l (putUsed r.id used now l) := by
  refine Grows.update fun x hx hp => ⟨rfl, rfl, le_rfl, ?_⟩
  rw [h.eq_of_id hx hr (beq_iff_eq.mp hp)]
  exact hlow

lemma putUsed (h : Budget users l) {r : ProxyLease} (hr : r ∈ l) {used now : ℤ}
    (hlow : r.usedBytes ≤ used) (hhigh : used ≤ r.grantBytes) :
    Budget users (putUsed r.id used now l) := by
  have hrow : ∀ x ∈ Center.putUsed r.id used now l, ∃ y ∈ l, x.userId = y.userId ∧
      x.epoch = y.epoch ∧ 0 ≤ x.usedBytes ∧ x.usedBytes ≤ x.grantBytes := by
    intro x hx
    obtain ⟨y, hy, rfl⟩ := Table.mem_update.mp hx
    refine ⟨y, hy, ?_⟩
    split_ifs with hp
    · obtain rfl := h.eq_of_id hy hr (beq_iff_eq.mp hp)
      exact ⟨rfl, rfl, (h.counters y hy).1.trans hlow, hhigh⟩
    · exact ⟨rfl, rfl, h.counters y hy⟩
  refine ⟨h.userIds, ?_, ?_, fun x hx => ?_, fun x hx => ?_, h.quota, fun u hu => ?_⟩
  · rw [map_id_putUsed]; exact h.leaseIds
  · rw [map_key_putUsed]; exact h.leaseKeys
  · obtain ⟨y, hy, h1, h2, -⟩ := hrow x hx
    rw [h1, h2]; exact h.owner y hy
  · obtain ⟨-, -, -, -, h3⟩ := hrow x hx
    exact h3
  · rw [granted_putUsed]
    exact h.within u hu

lemma reported (h : Budget users l) {host boot : Bytes} {now : ℤ} {rs : List (Bytes × ℤ)}
    (hr : Reported host boot now rs l l') : Budget users l' ∧ Grows l l' := by
  induction hr with
  | nil l => exact ⟨h, Grows.refl l⟩
  | cons r mem hid _ _ low high _ ih =>
    subst hid
    obtain ⟨hb, hg⟩ := ih (h.putUsed mem low high)
    exact ⟨hb, (h.putUsed_grows mem low).trans hg⟩

end Budget

/-! ### Grants -/

lemma cap_eq (quota : ℤ) : (if quota ≠ 0 then quota else safeInteger) = cap quota := by
  unfold cap
  split_ifs <;> simp_all

/-- The share of a host: no more than what is available, and never nothing. -/
lemma share_bounds {available hosts : ℤ} (hpos : 0 < available) (hh : 1 ≤ hosts) :
    0 < Int.tdiv available hosts + (if Int.tmod available hosts ≠ 0 then 1 else 0) ∧
      Int.tdiv available hosts + (if Int.tmod available hosts ≠ 0 then 1 else 0) ≤ available := by
  rw [Int.tdiv_eq_ediv_of_nonneg hpos.le, Int.tmod_eq_emod_of_nonneg hpos.le]
  have hq0 : 0 ≤ available / hosts := Int.ediv_nonneg hpos.le (by omega)
  have hr0 : 0 ≤ available % hosts := Int.emod_nonneg _ (by omega)
  have heq : hosts * (available / hosts) + available % hosts = available := Int.mul_ediv_add_emod _ _
  have hle : available / hosts ≤ hosts * (available / hosts) := by nlinarith
  by_cases hz : available % hosts = 0
  · have hq1 : 0 < available / hosts := by
      rcases hq0.lt_or_eq with h | h
      · exact h
      · rw [← h, hz] at heq
        omega
    rw [if_neg (not_not.mpr hz)]
    omega
  · rw [if_pos hz]
    omega

/-- When a grant is extended: it is new, or little of it is unused. -/
def Extends (grant used : ℤ) : Prop :=
  grant = 0 ∨ grant - used ≤ if Int.tdiv grant 2 > Int.tdiv grantChunk 2 then
    Int.tdiv grantChunk 2 else Int.tdiv grant 2

instance (grant used : ℤ) : Decidable (Extends grant used) := inferInstanceAs (Decidable (_ ∨ _))

lemma nextGrant_extends {quota allocated hosts grant used : ℤ} (hh : 1 ≤ hosts)
    (he : Extends grant used) (hpos : 0 < cap quota - allocated) :
    ∃ add, 0 < add ∧ add ≤ cap quota - allocated ∧ add ≤ grantChunk ∧
      nextGrant quota allocated hosts grant used = grant + add := by
  obtain ⟨hshare, hle⟩ := share_bounds hpos hh
  have hchunk : (0 : ℤ) < grantChunk := by decide
  unfold nextGrant
  simp only [cap_eq]
  rw [if_pos ⟨he, hpos⟩]
  refine ⟨_, ?_, ?_, ?_, rfl⟩
  all_goals
    split_ifs at hshare hle ⊢
    all_goals omega

lemma nextGrant_keeps {quota allocated hosts grant used : ℤ}
    (h : ¬ (Extends grant used ∧ 0 < cap quota - allocated)) :
    nextGrant quota allocated hosts grant used = grant := by
  unfold nextGrant
  simp only [cap_eq]
  exact if_neg h

lemma nextGrant_spec (quota allocated grant used : ℤ) {hosts : ℤ} (hh : 1 ≤ hosts) :
    nextGrant quota allocated hosts grant used = grant ∨
      (grant < nextGrant quota allocated hosts grant used ∧
        nextGrant quota allocated hosts grant used - grant ≤ cap quota - allocated) := by
  by_cases h : Extends grant used ∧ 0 < cap quota - allocated
  · obtain ⟨add, hpos, hle, -, heq⟩ := nextGrant_extends hh h.1 h.2
    right
    omega
  · exact .inl (nextGrant_keeps h)

lemma sameLease_iff {user host boot : Bytes} {epoch : ℤ} {r : ProxyLease} :
    sameLease user host boot epoch r = true ↔ r.key = (user, host, boot, epoch) := by
  simp [sameLease, ProxyLease.key, and_assoc]

namespace Budget

variable {users : List ProxyUser} {l l' : List ProxyLease} {db : Db} {host boot : Bytes} {now : ℤ}
  {u : ProxyUser} {p : UserPolicy} {new : ProxyLease}

lemma granted_old (hg : Granted db host boot now u l p new) {r : ProxyLease}
    (hr : l.find? (sameLease u.id host boot u.epoch) = some r) :
    r ∈ l ∧ r.key = new.key ∧ new.id = r.id ∧ new.usedBytes = r.usedBytes ∧
      r.grantBytes ≤ new.grantBytes ∧
      (new.grantBytes = r.grantBytes ∨
        new.grantBytes - r.grantBytes ≤ cap u.quotaBytes - granted l u.id u.epoch) := by
  have hkey := sameLease_iff.mp (List.find?_some hr)
  have hgrant := hg.grant
  have hused := hg.used
  rw [hr] at hgrant hused
  simp only [Option.map_some, Option.getD_some] at hgrant hused
  have hspec := nextGrant_spec u.quotaBytes (granted l u.id u.epoch) r.grantBytes new.usedBytes
    (Int.ofNat_le.mpr hg.hosts)
  rw [granted, ← hgrant] at hspec
  refine ⟨List.mem_of_find?_eq_some hr, ?_, hg.known r hr, hused, ?_, ?_⟩
  · rw [hkey, hg.row]; rfl
  · omega
  · exact hspec.imp id fun h => h.2

lemma row_key (hg : Granted db host boot now u l p new) :
    new.key = (u.id, host, boot, u.epoch) := by rw [hg.row]; rfl

/-- The row is the one that `sameLease` finds. -/
lemma putRow_some (hb : Budget users l) (hg : Granted db host boot now u l p new) {r : ProxyLease}
    (hr : l.find? (sameLease u.id host boot u.epoch) = some r) :
    putRow new l = Table.update (fun x => x.id == r.id) (fun x => { x with
      grantBytes := new.grantBytes, expiresAt := new.expiresAt, updatedAt := new.updatedAt }) l := by
  obtain ⟨hmem, hkey, -⟩ := granted_old hg hr
  have hany : l.any (sameLease new.userId new.hostId new.bootId new.epoch) = true :=
    List.any_eq_true.mpr ⟨r, hmem, sameLease_iff.mpr hkey⟩
  rw [putRow, Table.upsert, if_pos hany]
  refine List.map_congr_left fun x hx => ?_
  have hiff : sameLease new.userId new.hostId new.bootId new.epoch x = (x.id == r.id) := by
    rw [Bool.eq_iff_iff, sameLease_iff, beq_iff_eq]
    refine ⟨fun h => ?_, fun h => ?_⟩
    · rw [hb.eq_of_key hx hmem (h.trans hkey.symm)]
    · rw [hb.eq_of_id hx hmem h]; exact hkey
  simp only [hiff]

lemma putRow_none (hg : Granted db host boot now u l p new)
    (hr : l.find? (sameLease u.id host boot u.epoch) = none) : putRow new l = l ++ [new] := by
  have hk := row_key hg
  have hany : ¬ l.any (sameLease new.userId new.hostId new.bootId new.epoch) = true := by
    intro h
    obtain ⟨x, hx, hp⟩ := List.any_eq_true.mp h
    refine List.find?_eq_none.mp hr x hx (sameLease_iff.mpr ?_)
    rw [sameLease_iff.mp hp, ← hk]; rfl
  rw [putRow, Table.upsert, if_neg hany]

lemma extend (hb : Budget users l) (hu : u ∈ users) (hg : Granted db host boot now u l p new)
    {r : ProxyLease} (hr : l.find? (sameLease u.id host boot u.epoch) = some r) :
    Budget users (putRow new l) ∧ Grows l (putRow new l) := by
  obtain ⟨hmem, hkey, -, hused, hle, hroom⟩ := granted_old hg hr
  rw [putRow_some hb hg hr]
  set f : ProxyLease → ProxyLease := fun x => { x with
    grantBytes := new.grantBytes, expiresAt := new.expiresAt, updatedAt := new.updatedAt } with hf
  have hone : ∀ x ∈ l, (x.id == r.id) = true → x = r := fun x hx h =>
    hb.eq_of_id hx hmem (beq_iff_eq.mp h)
  have hrow : ∀ x ∈ Table.update (fun x => x.id == r.id) f l, ∃ y ∈ l, x.userId = y.userId ∧
      x.epoch = y.epoch ∧ 0 ≤ x.usedBytes ∧ x.usedBytes ≤ x.grantBytes := by
    intro x hx
    obtain ⟨y, hy, rfl⟩ := Table.mem_update.mp hx
    refine ⟨y, hy, ?_⟩
    split_ifs with hp
    · obtain rfl := hone y hy hp
      exact ⟨rfl, rfl, (hb.counters y hy).1, (hb.counters y hy).2.trans hle⟩
    · exact ⟨rfl, rfl, hb.counters y hy⟩
  have hkeyr : r.userId = u.id ∧ r.epoch = u.epoch := by
    have := hkey.trans (row_key hg)
    simp only [ProxyLease.key, Prod.mk.injEq] at this
    exact ⟨this.1, this.2.2.2⟩
  refine ⟨⟨hb.userIds, ?_, ?_, fun x hx => ?_, fun x hx => ?_, hb.quota, fun v hv => ?_⟩, ?_⟩
  · exact Table.nodup_update hb.leaseIds fun _ _ _ => rfl
  · exact Table.nodup_update hb.leaseKeys fun _ _ _ => rfl
  · obtain ⟨y, hy, h1, h2, -⟩ := hrow x hx
    rw [h1, h2]; exact hb.owner y hy
  · obtain ⟨-, -, -, -, h3⟩ := hrow x hx
    exact h3
  · rw [granted, Table.sum_update_one hmem hone (beq_self_eq_true _) hb.leaseIds.of_map rfl]
    have hv' := hb.within v hv
    unfold granted at hv'
    split_ifs with hp
    · simp only [Db.ofEpoch, Bool.and_eq_true, beq_iff_eq] at hp
      obtain rfl := hb.eq_of_userId hv hu (hp.1.symm.trans hkeyr.1)
      unfold granted at hroom
      simp only [hf]
      omega
    · omega
  · refine Grows.update fun x hx hp => ?_
    obtain rfl := hone x hx hp
    exact ⟨rfl, rfl, hle, le_rfl⟩

lemma insert (hb : Budget users l) (hu : u ∈ users) (hg : Granted db host boot now u l p new)
    (hr : l.find? (sameLease u.id host boot u.epoch) = none) :
    Budget users (putRow new l) ∧ Grows l (putRow new l) := by
  have hk := row_key hg
  have hnew : new.userId = u.id ∧ new.epoch = u.epoch := by
    simp only [ProxyLease.key, Prod.mk.injEq] at hk
    exact ⟨hk.1, hk.2.2.2⟩
  have hgrant := hg.grant
  have hused := hg.used
  rw [hr] at hgrant hused
  simp only [Option.map_none, Option.getD_none] at hgrant hused
  have hspec := nextGrant_spec u.quotaBytes (granted l u.id u.epoch) 0 new.usedBytes
    (Int.ofNat_le.mpr hg.hosts)
  rw [granted, ← hgrant] at hspec
  have hroom := hg.room
  rw [putRow_none hg hr]
  refine ⟨⟨hb.userIds, ?_, ?_, fun x hx => ?_, fun x hx => ?_, hb.quota, fun v hv => ?_⟩, ?_⟩
  · rw [List.map_append, List.nodup_append]
    refine ⟨hb.leaseIds, by simp, fun a ha b hb' => ?_⟩
    obtain ⟨x, hx, rfl⟩ := List.mem_map.mp ha
    rw [List.map_singleton, List.mem_singleton] at hb'
    rw [hb']
    exact (hg.unknown hr).2 x hx
  · rw [List.map_append, List.nodup_append]
    refine ⟨hb.leaseKeys, by simp, fun a ha b hb' => ?_⟩
    obtain ⟨x, hx, rfl⟩ := List.mem_map.mp ha
    rw [List.map_singleton, List.mem_singleton] at hb'
    rw [hb']
    exact fun h => List.find?_eq_none.mp hr x hx (sameLease_iff.mpr (h.trans hk))
  · rcases List.mem_append.mp hx with hx | hx
    · exact hb.owner x hx
    · rw [List.mem_singleton.mp hx]
      exact ⟨u, hu, hnew.1.symm, hnew.2.le⟩
  · rcases List.mem_append.mp hx with hx | hx
    · exact hb.counters x hx
    · rw [List.mem_singleton.mp hx]
      omega
  · rw [granted, Table.sum_snoc]
    have hv' := hb.within v hv
    unfold granted at hv'
    split_ifs with hp
    · simp only [Db.ofEpoch, Bool.and_eq_true, beq_iff_eq] at hp
      obtain rfl := hb.eq_of_userId hv hu (hp.1.symm.trans hnew.1)
      omega
    · omega
  · intro x hx
    exact ⟨x, by simp [hx], rfl, rfl, le_rfl, le_rfl⟩

lemma lease (hb : Budget users l) (hu : u ∈ users) (hg : Granted db host boot now u l p new) :
    Budget users (putRow new l) ∧ Grows l (putRow new l) := by
  cases hr : l.find? (sameLease u.id host boot u.epoch) with
  | some r => exact hb.extend hu hg hr
  | none => exact hb.insert hu hg hr

lemma leased {us : List ProxyUser} {ps : List UserPolicy} (hb : Budget users l)
    (hus : ∀ v ∈ us, v ∈ users) (h : Leased db host boot now us l ps l') :
    Budget users l' ∧ Grows l l' := by
  induction h with
  | nil l => exact ⟨hb, Grows.refl l⟩
  | skip _ ih => exact ih hb fun v hv => hus v (by simp [hv])
  | @lease u us l l' ps p new hg _ _ ih =>
    obtain ⟨h1, h2⟩ := hb.lease (hus u (by simp)) hg
    obtain ⟨h3, h4⟩ := ih h1 fun v hv => hus v (by simp [hv])
    exact ⟨h3, h2.trans h4⟩

end Budget

end SbEasy

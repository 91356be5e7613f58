import SbEasy.Quota

/-!
How many devices a user has, and how many users there are.

A device counts while it is enabled and not expired, so the count falls as time passes and
rises only when a device is created.
-/

namespace SbEasy

open Center

/-! ### Counting devices -/

lemma Db.activeDevices_anti (db : Db) (user : Bytes) {t t' : ℤ} (h : t ≤ t') :
    db.activeDevices user t' ≤ db.activeDevices user t := by
  apply List.countP_mono_left
  intro d _ hd
  simp only [Db.activeDevice, Bool.and_eq_true, Bool.or_eq_true, beq_iff_eq,
    decide_eq_true_eq] at hd ⊢
  exact ⟨hd.1, hd.2.imp_right fun he => by omega⟩

lemma Db.activeDevices_disable (db : Db) (p : ProxyDevice → Bool) {f : ProxyDevice → ProxyDevice}
    (hf : ∀ d, (f d).enabled = false) (user : Bytes) (t : ℤ) :
    ({ db with devices := Table.update p f db.devices }).activeDevices user t ≤
      db.activeDevices user t := by
  apply Table.countP_update_le
  intro d _ _ hd
  simp [Db.activeDevice, hf d] at hd

/-- The limits at a time. -/
structure Limits (db : Db) (t : ℤ) : Prop where
  userIds : (db.users.map ProxyUser.id).Nodup
  owner : ∀ d ∈ db.devices, ∃ u ∈ db.users, u.id = d.userId
  range : ∀ u ∈ db.users, 1 ≤ u.maxDevices ∧ u.maxDevices ≤ 32
  devices : ∀ u ∈ db.users, (db.activeDevices u.id t : ℤ) ≤ u.maxDevices
  users : db.activeUsers ≤ 256

namespace Limits

variable {db : Db} {t : ℤ}

lemma later (h : Limits db t) {t' : ℤ} (ht : t ≤ t') : Limits db t' where
  userIds := h.userIds
  owner := h.owner
  range := h.range
  devices u hu := by
    have := db.activeDevices_anti u.id ht
    have := h.devices u hu
    omega
  users := h.users

lemma frame (h : Limits db t) {db' : Db} (hu : db'.users = db.users)
    (hd : db'.devices = db.devices) : Limits db' t := by
  obtain ⟨h1, h2, h3, h4, h5⟩ := h
  refine ⟨hu ▸ h1, ?_, hu ▸ h3, ?_, ?_⟩
  · rw [hu, hd]; exact h2
  · unfold Db.activeDevices at h4 ⊢
    rw [hu, hd]; exact h4
  · unfold Db.activeUsers at h5 ⊢
    rw [hu]; exact h5

lemma updateUsers (h : Limits db t) (p : ProxyUser → Bool) {f : ProxyUser → ProxyUser}
    (hf : ∀ u, (f u).id = u.id ∧ (f u).maxDevices = u.maxDevices ∧
      ((f u).deleted = false → u.deleted = false)) :
    Limits { db with users := Table.update p f db.users } t where
  userIds := Table.nodup_update h.userIds fun u _ _ => (hf u).1
  owner d hd := by
    obtain ⟨u, hu, hid⟩ := h.owner d hd
    refine ⟨_, Table.mem_update.mpr ⟨u, hu, rfl⟩, ?_⟩
    split_ifs
    · exact (hf u).1.trans hid
    · exact hid
  range u hu := by
    obtain ⟨v, hv, rfl⟩ := Table.mem_update.mp hu
    split_ifs
    · rw [(hf v).2.1]; exact h.range v hv
    · exact h.range v hv
  devices u hu := by
    obtain ⟨v, hv, rfl⟩ := Table.mem_update.mp hu
    split_ifs
    · rw [(hf v).1, (hf v).2.1]; exact h.devices v hv
    · exact h.devices v hv
  users := by
    refine le_trans (Table.countP_update_le fun u _ _ hu => ?_) h.users
    simp only [Bool.not_eq_true'] at hu ⊢
    exact (hf u).2.2 hu

lemma disable (h : Limits db t) (p : ProxyDevice → Bool) {f : ProxyDevice → ProxyDevice}
    (hf : ∀ d, (f d).enabled = false) (howner : ∀ d, (f d).userId = d.userId) :
    Limits { db with devices := Table.update p f db.devices } t where
  userIds := h.userIds
  owner d hd := by
    obtain ⟨x, hx, rfl⟩ := Table.mem_update.mp hd
    obtain ⟨u, hu, hid⟩ := h.owner x hx
    refine ⟨u, hu, ?_⟩
    split_ifs
    · exact hid.trans (howner x).symm
    · exact hid
  range := h.range
  devices u hu := by
    have := db.activeDevices_disable p hf u.id t
    have := h.devices u hu
    omega
  users := h.users

lemma eq_of_userId (h : Limits db t) {u v : ProxyUser} (hu : u ∈ db.users) (hv : v ∈ db.users)
    (hid : u.id = v.id) : u = v :=
  List.inj_on_of_nodup_map h.userIds hu hv hid

lemma addDevice (h : Limits db t) {u : ProxyUser} (hu : u ∈ db.users) {d : ProxyDevice}
    (howner : d.userId = u.id) (hroom : (db.activeDevices u.id t : ℤ) < u.maxDevices) :
    Limits { db with devices := db.devices ++ [d] } t where
  userIds := h.userIds
  owner x hx := by
    rcases List.mem_append.mp hx with hx | hx
    · exact h.owner x hx
    · rw [List.mem_singleton.mp hx]
      exact ⟨u, hu, howner.symm⟩
  range := h.range
  devices v hv := by
    have hcount : ({ db with devices := db.devices ++ [d] } : Db).activeDevices v.id t ≤
        db.activeDevices v.id t + if v.id = u.id then 1 else 0 := by
      simp only [Db.activeDevices, List.countP_append, List.countP_singleton, Db.activeDevice,
        howner]
      split_ifs <;> simp_all
    have hv' := h.devices v hv
    split_ifs at hcount with hid
    · obtain rfl := h.eq_of_userId hv hu hid
      omega
    · omega
  users := h.users

lemma activeDevices_unknown (h : Limits db t) {id : Bytes} (hid : ∀ u ∈ db.users, u.id ≠ id) :
    db.activeDevices id t = 0 := by
  rw [Db.activeDevices, List.countP_eq_zero]
  intro d hd hact
  obtain ⟨u, hu, howner⟩ := h.owner d hd
  simp only [Db.activeDevice, Bool.and_eq_true, beq_iff_eq] at hact
  exact hid u hu (howner.trans hact.1.1)

lemma addUser (h : Limits db t) {row : ProxyUser} (hok : RowOk row)
    (hnew : ∀ u ∈ db.users, u.id ≠ row.id) (hroom : db.activeUsers < 256) :
    Limits { db with users := db.users ++ [row] } t where
  userIds := by
    have hids := Table.nodup_upsert (f := id) h.userIds row fun _ _ _ => rfl
    have hany : ¬ db.users.any (fun u => u.id == row.id) = true := by simpa using hnew
    rw [Table.upsert, if_neg hany] at hids
    exact hids
  owner d hd := by
    obtain ⟨u, hu, hid⟩ := h.owner d hd
    exact ⟨u, List.mem_append_left _ hu, hid⟩
  range u hu := by
    rcases List.mem_append.mp hu with hu | hu
    · exact h.range u hu
    · rw [List.mem_singleton.mp hu]; exact hok.devices
  devices u hu := by
    rcases List.mem_append.mp hu with hu | hu
    · exact h.devices u hu
    · have hzero := h.activeDevices_unknown hnew
      rw [List.mem_singleton.mp hu]
      change (db.activeDevices row.id t : ℤ) ≤ row.maxDevices
      have := hok.devices
      omega
  users := by
    have : ({ db with users := db.users ++ [row] } : Db).activeUsers ≤ db.activeUsers + 1 := by
      simp only [Db.activeUsers, List.countP_append, List.countP_singleton]
      split_ifs <;> omega
    omega

lemma changeUser (h : Limits db t) {row : ProxyUser} (hok : RowOk row)
    (hroom : (db.activeDevices row.id t : ℤ) ≤ row.maxDevices) :
    Limits { db with
      users := Table.update (fun u => u.id == row.id) (userUpdate row) db.users } t where
  userIds := Table.nodup_update h.userIds fun _ _ _ => rfl
  owner d hd := by
    obtain ⟨u, hu, hid⟩ := h.owner d hd
    refine ⟨_, Table.mem_update.mpr ⟨u, hu, rfl⟩, ?_⟩
    split_ifs <;> exact hid
  range u hu := by
    obtain ⟨v, hv, rfl⟩ := Table.mem_update.mp hu
    split_ifs
    · exact hok.devices
    · exact h.range v hv
  devices u hu := by
    obtain ⟨v, hv, rfl⟩ := Table.mem_update.mp hu
    split_ifs with hid
    · change (db.activeDevices v.id t : ℤ) ≤ row.maxDevices
      rw [beq_iff_eq.mp hid]
      exact hroom
    · exact h.devices v hv
  users := by
    have hle : (Table.update (fun u => u.id == row.id) (userUpdate row) db.users).countP
        (fun u => !u.deleted) ≤ db.activeUsers := Table.countP_update_le fun _ _ _ hu => hu
    exact hle.trans h.users

end Limits

/-! ### Runs -/

section

variable [Platform]

lemma limits_step {db : Db} {c : Call} (h : Limits db c.now) (hf : FreshUserIds db c) :
    Limits (c.next db) c.now := by
  rcases c.cases db with ⟨e, -, hdb⟩ | ⟨v, -, heff⟩
  · rw [hdb]; exact h
  revert heff
  generalize c.next db = db'
  generalize hcmd : c.cmd = cmd
  intro heff
  cases heff with
  | read | runtimeReport | ingressSave | createHost | updateHost | deleteHost =>
    exact h.frame rfl rfl
  | userSave row hosts hok hadm =>
    suffices hu : Limits { db with
        users := Table.upsert (fun u => u.id == row.id) (userUpdate row) row db.users } c.now from
      hu.frame rfl rfl
    unfold Table.upsert
    cases hadm with
    | new raw hraw _ hid hroom =>
      have hnew : ∀ u ∈ db.users, u.id ≠ row.id := fun u hu =>
        hid ▸ hf (by rw [hcmd]; rfl) raw hraw u hu
      rw [if_neg (by simpa using hnew)]
      exact h.addUser hok hnew hroom
    | change old hmem hid _ _ hroom =>
      have hany : db.users.any (fun u => u.id == row.id) = true :=
        List.any_eq_true.mpr ⟨old, hmem, beq_iff_eq.mpr hid⟩
      rw [if_pos hany]
      exact h.changeUser hok hroom
  | userRemove => exact (h.updateUsers _ (by simp)).disable _ (by simp) (by simp)
  | userReset | claimRotate => exact h.updateUsers _ (by simp)
  | deviceCreate u d hmem hid howner _ hroom =>
    subst hid
    exact h.addDevice hmem howner hroom
  | deviceRevoke => exact h.disable _ (by simp) (by simp)
  | leaseExchange _ hex =>
    cases hex with
    | replay _ _ _ _ _ hsame => rw [hsame]; exact h
    | new _ _ _ happ =>
      obtain ⟨_, _, _, _, rfl⟩ := happ
      exact h.frame rfl rfl

/-- One call, at a time that is not before the last one. -/
def TimedStep (s s' : Db × ℤ) : Prop :=
  ∃ c : Call, s.2 ≤ c.now ∧ FreshUserIds s.1 c ∧ s' = (c.next s.1, c.now)

lemma limits_run {hosts : List Host} {t₀ : ℤ} {s : Db × ℤ}
    (h : Relation.ReflTransGen TimedStep (Db.fresh hosts, t₀) s) : Limits s.1 s.2 := by
  induction h with
  | refl => exact ⟨by simp [Db.fresh], by simp [Db.fresh], by simp [Db.fresh], by simp [Db.fresh],
      by simp [Db.fresh, Db.activeUsers]⟩
  | tail _ hstep ih =>
    obtain ⟨c, hnow, hf, rfl⟩ := hstep
    exact limits_step (ih.later hnow) hf

lemma reach_timed {s : Db × ℤ} {cs : List Call} (hf : freshAlong s.1 cs = true)
    (hnow : (s.2 :: cs.map Call.now).IsChain (· ≤ ·)) :
    Relation.ReflTransGen TimedStep s (runCalls s.1 cs, (cs.map Call.now).getLastD s.2) := by
  induction cs generalizing s with
  | nil => exact .refl
  | cons c cs ih =>
    simp only [freshAlong, Bool.and_eq_true, decide_eq_true_eq] at hf
    rw [List.map_cons, List.isChain_cons_cons] at hnow
    have hrest := ih (s := (c.next s.1, c.now)) hf.2 hnow.2
    rw [List.map_cons, List.getLastD_cons]
    exact .head ⟨c, hnow.1, hf.1, rfl⟩ hrest

/-- **Limits**: along every run whose times do not go back, each user has at most
`max_devices` devices that are enabled and unexpired, now and later; the limit is between 1
and 32; and at most 256 users are not deleted. -/
theorem devices_within_limit {hosts : List Host} {t₀ : ℤ} {s : Db × ℤ}
    (h : Relation.ReflTransGen TimedStep (Db.fresh hosts, t₀) s) :
    (∀ u ∈ s.1.users, 1 ≤ u.maxDevices ∧ u.maxDevices ≤ 32 ∧
      ∀ t, s.2 ≤ t → (s.1.activeDevices u.id t : ℤ) ≤ u.maxDevices) ∧
    s.1.activeUsers ≤ 256 := by
  have hl := limits_run h
  refine ⟨fun u hu => ?_, hl.users⟩
  obtain ⟨h1, h2⟩ := hl.range u hu
  exact ⟨h1, h2, fun t ht => (hl.later ht).devices u hu⟩

end

theorem devices_within_limit_sample :
    let db := @runCalls .sample (Db.fresh []) sampleCalls
    db.users.map (fun u => db.activeDevices u.id 1000) = [1] ∧
      ∀ u ∈ db.users, 1 ≤ u.maxDevices ∧ u.maxDevices ≤ 32 ∧
        ∀ t, 1000 ≤ t → (db.activeDevices u.id t : ℤ) ≤ u.maxDevices := by
  intro db
  refine ⟨by decide +kernel, ?_⟩
  have hreach : Relation.ReflTransGen (@TimedStep .sample) (Db.fresh [], 0) (db, 1000) :=
    @reach_timed .sample (Db.fresh [], 0) sampleCalls (by decide +kernel) (by decide +kernel)
  clear_value db
  exact (@devices_within_limit .sample _ _ _ hreach).1

end SbEasy

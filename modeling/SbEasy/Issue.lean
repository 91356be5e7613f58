import SbEasy.Budget

/-!
The leases an exchange issues, read off the lease table it leaves.

Each user of the host is visited once, and a visit touches only the row of that user, host,
boot and epoch. So the rows of the final table say what the policies say.
-/

namespace SbEasy

open Center

variable {db : Db} {host boot : Bytes} {now : ℤ} {l l' : List ProxyLease} {u : ProxyUser}
  {p : UserPolicy} {new : ProxyLease} {users us : List ProxyUser} {ps : List UserPolicy}

lemma mem_putRow_other {r : ProxyLease} (h : r.key ≠ new.key) : r ∈ putRow new l ↔ r ∈ l := by
  have hkey : sameLease new.userId new.hostId new.bootId new.epoch r = false := by
    rw [Bool.eq_false_iff]
    exact fun hs => h (sameLease_iff.mp hs)
  unfold putRow Table.upsert
  split_ifs
  · rw [Table.mem_update]
    constructor
    · rintro ⟨x, hx, hxr⟩
      split_ifs at hxr with hs
      · refine absurd ?_ h
        rw [← hxr]
        exact sameLease_iff.mp hs
      · exact hxr ▸ hx
    · exact fun hr => ⟨r, hr, by simp [hkey]⟩
  · rw [List.mem_append, List.mem_singleton]
    exact ⟨fun hr => hr.resolve_right fun e => h (e ▸ rfl), Or.inl⟩

/-- A row that carries the values of another, whenever it was last written. -/
def SameLease (r new : ProxyLease) : Prop :=
  r.id = new.id ∧ r.key = new.key ∧ r.grantBytes = new.grantBytes ∧
    r.usedBytes = new.usedBytes ∧ r.expiresAt = new.expiresAt

lemma putRow_issued (hb : Budget users l) (hg : Granted db host boot now u l p new) :
    ∃ r ∈ putRow new l, SameLease r new := by
  cases hr : l.find? (sameLease u.id host boot u.epoch) with
  | some r =>
    obtain ⟨hmem, hkey, hid, hused, -⟩ := Budget.granted_old hg hr
    rw [Budget.putRow_some hb hg hr]
    refine ⟨_, Table.mem_update.mpr ⟨r, hmem, rfl⟩, ?_⟩
    rw [if_pos (beq_self_eq_true r.id)]
    exact ⟨hid.symm, hkey, rfl, hused.symm, rfl⟩
  | none =>
    rw [Budget.putRow_none hg hr]
    exact ⟨new, by simp, rfl, rfl, rfl, rfl, rfl⟩

/-- The lease of a user, as the policy and the table have it. -/
structure Issued (db : Db) (host boot : Bytes) (now : ℤ) (l : List ProxyLease) (u : ProxyUser)
    (p : UserPolicy) : Prop where
  row : ∃ r ∈ l, r.key = (u.id, host, boot, u.epoch) ∧ p.lease.id = r.id ∧
    p.lease.grantBytes = r.grantBytes ∧ p.lease.usedBytes = r.usedBytes
  user : p.id = u.id ∧ p.epoch = u.epoch
  room : p.lease.usedBytes < p.lease.grantBytes
  expiry : p.lease.expiresAt = leaseUntil u now
  devices : p.devices = policyDevices db u.id now ∧ policyDevices db u.id now ≠ []
  due : u.notBefore ≤ now

lemma leased_other {r : ProxyLease} (hk : ∀ v ∈ us, r.key ≠ (v.id, host, boot, v.epoch))
    (h : Leased db host boot now us l ps l') : r ∈ l' ↔ r ∈ l := by
  induction h with
  | nil l => exact Iff.rfl
  | skip _ ih => exact ih fun v hv => hk v (by simp [hv])
  | @lease u us l l' ps p new hg _ _ ih =>
    rw [ih fun v hv => hk v (by simp [hv])]
    apply mem_putRow_other
    rw [Budget.row_key hg]
    exact hk u (by simp)

lemma leased_users (h : Leased db host boot now us l ps l') :
    ∀ q ∈ ps, ∃ v ∈ us, q.id = v.id ∧ q.epoch = v.epoch := by
  induction h with
  | nil l => simp
  | skip _ ih =>
    intro q hq
    obtain ⟨v, hv, hqv⟩ := ih q hq
    exact ⟨v, List.mem_cons_of_mem _ hv, hqv⟩
  | @lease u us l l' ps p new hg _ _ ih =>
    intro q hq
    rcases List.mem_cons.mp hq with rfl | hq
    · refine ⟨u, by simp, ?_⟩
      rw [hg.policy]
      exact ⟨rfl, rfl⟩
    · obtain ⟨v, hv, hqv⟩ := ih q hq
      exact ⟨v, List.mem_cons_of_mem _ hv, hqv⟩

lemma exists_of_forall₂ {α β : Type} {R : α → β → Prop} {as : List α} {bs : List β}
    (h : List.Forall₂ R as bs) {b : β} (hb : b ∈ bs) : ∃ a ∈ as, R a b := by
  induction h with
  | nil => cases hb
  | @cons a b' _ _ hab _ ih =>
    rcases List.mem_cons.mp hb with rfl | hb
    · exact ⟨a, by simp, hab⟩
    · obtain ⟨x, hx, hr⟩ := ih hb
      exact ⟨x, by simp [hx], hr⟩

lemma leased_issued (hb : Budget users l) (hus : ∀ v ∈ us, v ∈ users)
    (hnd : (us.map ProxyUser.id).Nodup) (h : Leased db host boot now us l ps l') :
    ∃ vs, vs.Sublist us ∧ List.Forall₂ (Issued db host boot now l') vs ps := by
  induction h with
  | nil l => exact ⟨[], .slnil, .nil⟩
  | skip _ ih =>
    obtain ⟨vs, hsub, hall⟩ := ih hb (fun v hv => hus v (by simp [hv]))
      (List.nodup_cons.mp (by simpa using hnd)).2
    exact ⟨vs, hsub.cons _, hall⟩
  | @lease u us l l' ps p new hg hdue hrest ih =>
    rw [List.map_cons, List.nodup_cons] at hnd
    obtain ⟨vs, hsub, hall⟩ := ih (hb.lease (hus u (by simp)) hg).1 (fun v hv => hus v (by simp [hv])) hnd.2
    refine ⟨u :: vs, hsub.cons_cons u, .cons ?_ hall⟩
    obtain ⟨r, hr, hid, hkey, hgrant, hused, -⟩ := putRow_issued hb hg
    rw [Budget.row_key hg] at hkey
    -- the users visited later have other identifiers, so the row stays
    have hr' : r ∈ l' := by
      refine (leased_other (fun v hv hk => hnd.1 ?_) hrest).mpr hr
      rw [hkey] at hk
      exact (Prod.mk.inj hk).1 ▸ List.mem_map_of_mem hv
    have hpol := hg.policy
    refine ⟨⟨r, hr', hkey, ?_⟩, ?_, ?_, ?_, ⟨?_, hg.devices⟩, hdue⟩
    · rw [hpol]; exact ⟨hid.symm, hgrant.symm, hused.symm⟩
    · rw [hpol]; exact ⟨rfl, rfl⟩
    · rw [hpol]; exact hg.room
    · rw [hpol]
    · rw [hpol]

lemma Budget.grant_le (hb : Budget users l) {r : ProxyLease} (hr : r ∈ l)
    (hu : u ∈ users) (hid : r.userId = u.id) (hepoch : r.epoch = u.epoch) :
    r.grantBytes ≤ safeInteger := by
  have hsum : r.grantBytes ≤ granted l u.id u.epoch := by
    apply Table.le_sum_of_mem (fun x hx _ => hb.grant_nonneg hx) hr
    simp [Db.ofEpoch, hid, hepoch]
  have hwithin := hb.within u hu
  have hquota := hb.quota u hu
  unfold cap at hwithin
  split_ifs at hwithin <;> omega

end SbEasy

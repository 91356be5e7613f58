import SbEasy.Sessions

/-!
The visits of an exchange: each user of the host in turn is held back by the fence of its epoch,
left out, or given a lease. What one visit does concerns the rows of that user alone.
-/

namespace SbEasy

open Center Tx

/-! ### The rows of one user -/

def ofUser (user : Bytes) (l : List ProxyLease) : List ProxyLease :=
  l.filter fun r => r.userId == user

section

variable {l : List ProxyLease}

lemma find?_ofUser (user host boot : Bytes) (epoch : ℤ) (l : List ProxyLease) :
    (ofUser user l).find? (sameLease user host boot epoch) =
      l.find? (sameLease user host boot epoch) := by
  rw [ofUser, List.find?_filter]
  congr 1
  funext r
  rw [Bool.eq_iff_iff, decide_eq_true_iff]
  refine ⟨And.right, fun h => ⟨?_, h⟩⟩
  simp only [sameLease, Bool.and_eq_true] at h
  exact h.1.1.1

lemma granted_ofUser (user : Bytes) (epoch : ℤ) (l : List ProxyLease) :
    granted (ofUser user l) user epoch = granted l user epoch := by
  rw [granted, granted, Table.sum, Table.sum, ofUser, List.filter_filter]
  congr 3
  funext r
  simp only [Db.ofEpoch]
  cases r.userId == user <;> simp

lemma ofUser_putRow {user : Bytes} {new : ProxyLease} (h : new.userId ≠ user) :
    ofUser user (putRow new l) = ofUser user l := by
  have hne : ∀ r : ProxyLease, r.userId = new.userId → (r.userId == user) = false := by
    intro r hr
    rw [hr]
    exact beq_false_of_ne h
  refine Table.filter_upsert_of_disjoint (hne new rfl) fun r _ hr => ?_
  simp only [sameLease, Bool.and_eq_true, beq_iff_eq] at hr
  exact ⟨hne r hr.1.1.1, hne r hr.1.1.1⟩

/-- What an exchange makes of a user that passed: the rows before the visit, and those it leaves. -/
inductive VisitedUser (db : Db) (host boot : Bytes) (now : ℤ) (u : ProxyUser) (l : List ProxyLease)
    (ps : List UserPolicy) (l' : List ProxyLease) : Prop
  | leave {l₁ : List ProxyLease} (before : ofUser u.id l₁ = ofUser u.id l)
      (none : NotGranted db host boot now u l₁) (omitted : ∀ p ∈ ps, p.id ≠ u.id)
      (after : ofUser u.id l' = ofUser u.id l₁)
  | lease {l₁ : List ProxyLease} {p : UserPolicy} {new : ProxyLease}
      (before : ofUser u.id l₁ = ofUser u.id l) (granted : Granted db host boot now u l₁ p new)
      (returned : p ∈ ps) (only : ∀ q ∈ ps, q.id = u.id → q = p)
      (after : ofUser u.id l' = ofUser u.id (putRow new l₁))

variable {db : Db} {host boot : Bytes} {now : ℤ} {us : List ProxyUser} {l' : List ProxyLease}
  {ps : List UserPolicy}

lemma Visited.other (h : Visited db host boot now us l ps l') {user : Bytes}
    (hu : ∀ v ∈ us, v.id ≠ user) :
    ofUser user l' = ofUser user l ∧ ∀ p ∈ ps, p.id ≠ user := by
  induction h with
  | nil l => exact ⟨rfl, fun p hp => by cases hp⟩
  | leave _ _ ih => exact ih fun v hv => hu v (by simp [hv])
  | @lease u us l l' ps p new hg _ ih =>
    obtain ⟨hrows, hids⟩ := ih fun v hv => hu v (by simp [hv])
    have hne := hu u (by simp)
    have hnew : new.userId = u.id := by rw [hg.row]
    constructor
    · rw [hrows]
      exact ofUser_putRow (hnew ▸ hne)
    · intro q hq
      rcases List.mem_cons.mp hq with rfl | hq
      · rw [hg.policy]
        exact hne
      · exact hids q hq

lemma Visited.user (h : Visited db host boot now us l ps l') (hnd : (us.map ProxyUser.id).Nodup)
    {u : ProxyUser} (hu : u ∈ us) : VisitedUser db host boot now u l ps l' := by
  induction h with
  | nil l => cases hu
  | @leave v us l l' ps hnone hrest ih =>
    rw [List.map_cons, List.nodup_cons] at hnd
    rcases List.mem_cons.mp hu with rfl | hu
    · have hne : ∀ w ∈ us, w.id ≠ u.id := fun w hw he => hnd.1 (he ▸ List.mem_map_of_mem hw)
      have hother := hrest.other hne
      exact .leave rfl hnone hother.2 hother.1
    · exact ih hnd.2 hu
  | @lease v us l l' ps p new hg hrest ih =>
    rw [List.map_cons, List.nodup_cons] at hnd
    rcases List.mem_cons.mp hu with rfl | hu
    · have hne : ∀ w ∈ us, w.id ≠ u.id := fun w hw he => hnd.1 (he ▸ List.mem_map_of_mem hw)
      have hother := hrest.other hne
      refine .lease rfl hg (by simp) (fun q hq hid => ?_) hother.1
      exact (List.mem_cons.mp hq).resolve_right fun hq => hother.2 q hq hid
    · have hne : v.id ≠ u.id := fun he => hnd.1 (he ▸ List.mem_map_of_mem hu)
      have hrow : new.userId = v.id := by rw [hg.row]
      have hsame : ofUser u.id (putRow new l) = ofUser u.id l := ofUser_putRow (hrow ▸ hne)
      cases ih hnd.2 hu with
      | leave hbefore hnone homit hafter =>
        refine .leave (hbefore.trans hsame) hnone (fun q hq => ?_) hafter
        rcases List.mem_cons.mp hq with rfl | hq
        · rw [hg.policy]
          exact hne
        · exact homit q hq
      | lease hbefore hg' hmem honly hafter =>
        refine .lease (hbefore.trans hsame) hg' (by simp [hmem]) (fun q hq hid => ?_) hafter
        rcases List.mem_cons.mp hq with rfl | hq
        · rw [hg.policy] at hid
          exact absurd hid hne
        · exact honly q hq hid

lemma Visited.answered (h : Visited db host boot now us l ps l') :
    ∀ p ∈ ps, ∃ u ∈ us, p.id = u.id := by
  induction h with
  | nil l => exact fun p hp => by cases hp
  | leave _ _ ih =>
    intro p hp
    obtain ⟨u, hu, hid⟩ := ih p hp
    exact ⟨u, by simp [hu], hid⟩
  | @lease u us l l' ps p new hg _ ih =>
    intro q hq
    rcases List.mem_cons.mp hq with rfl | hq
    · refine ⟨u, by simp, ?_⟩
      rw [hg.policy]
    · obtain ⟨v, hv, hid⟩ := ih q hq
      exact ⟨v, by simp [hv], hid⟩

end

end SbEasy

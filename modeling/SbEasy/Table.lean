import Mathlib.Tactic

/-!
Tables as lists of rows: what `UPDATE`, `DELETE` and a checked `INSERT` do to membership,
to keys and to sums over the rows that satisfy a condition.
-/

namespace SbEasy.Table

variable {ρ κ : Type*}

/-- `UPDATE ... SET f WHERE p` -/
def update (p : ρ → Bool) (f : ρ → ρ) (t : List ρ) : List ρ := t.map fun r => if p r then f r else r

/-- `INSERT ... ON CONFLICT DO UPDATE`: change the rows in conflict, or add a new one. -/
def upsert (p : ρ → Bool) (f : ρ → ρ) (new : ρ) (t : List ρ) : List ρ :=
  if t.any p then update p f t else t ++ [new]

/-- `INSERT OR REPLACE`: the rows in conflict with the new one go. -/
def replace (conflict : ρ → ρ → Bool) (new : ρ) (t : List ρ) : List ρ :=
  t.filter (fun r => !conflict new r) ++ [new]

/-- `SELECT SUM(f) ... WHERE p` -/
def sum (p : ρ → Bool) (f : ρ → ℤ) (t : List ρ) : ℤ := ((t.filter p).map f).sum

variable {p q : ρ → Bool} {f : ρ → ρ} {g : ρ → ℤ} {t : List ρ}

lemma mem_update {r : ρ} :
    r ∈ update p f t ↔ ∃ r₀ ∈ t, (if p r₀ then f r₀ else r₀) = r := by
  simp only [update, List.mem_map]

lemma update_cons (r : ρ) : update p f (r :: t) = (if p r then f r else r) :: update p f t := rfl

lemma update_eq_self (h : ∀ r ∈ t, ¬ p r = true) : update p f t = t := by
  unfold update
  refine (List.map_congr_left fun r hr => ?_).trans (List.map_id t)
  rw [if_neg (h r hr)]; rfl

variable {k : ρ → κ}

lemma map_update (hk : ∀ r ∈ t, p r = true → k (f r) = k r) : (update p f t).map k = t.map k := by
  unfold update
  rw [List.map_map]
  refine List.map_congr_left fun r hr => ?_
  by_cases h : p r = true
  · simp [h, hk r hr h]
  · simp [h]

variable {P : ρ → Prop} {new : ρ}

lemma forall_update (h : ∀ r ∈ t, P r) (hf : ∀ r, P r → p r = true → P (f r)) :
    ∀ r ∈ update p f t, P r := by
  intro r hr
  obtain ⟨x, hx, rfl⟩ := mem_update.mp hr
  split_ifs with hp
  · exact hf x (h x hx) hp
  · exact h x hx

lemma forall_upsert (h : ∀ r ∈ t, P r) (hf : ∀ r, P r → P (f r))
    (hnew : P new) : ∀ r ∈ upsert p f new t, P r := by
  unfold upsert
  split_ifs
  · exact forall_update h fun r hr _ => hf r hr
  · intro r hr
    rcases List.mem_append.mp hr with hr | hr
    · exact h r hr
    · rw [List.mem_singleton.mp hr]
      exact hnew

lemma find?_upsert_self (hnew : p new = true) :
    (upsert p (fun _ => new) new t).find? p = some new := by
  unfold upsert
  split_ifs with hany
  · induction t with
    | nil => simp at hany
    | cons r t ih =>
      rw [update_cons]
      by_cases hr : p r = true
      · simp [hr, hnew]
      · simp only [hr, List.any_cons, Bool.false_or] at hany ⊢
        simp only [Bool.false_eq_true, if_false]
        rw [List.find?_cons_of_neg (by simpa using hr)]
        exact ih hany
  · rw [List.find?_append, List.find?_eq_none.mpr, Option.none_or]
    · simp [hnew]
    · simpa using hany

lemma filter_upsert_of_disjoint (hnew : q new = false)
    (hf : ∀ r ∈ t, p r = true → q r = false ∧ q (f r) = false) :
    (upsert p f new t).filter q = t.filter q := by
  unfold upsert
  split_ifs with hany
  · clear hany
    induction t with
    | nil => rfl
    | cons r t ih =>
      have ih' := ih fun x hx => hf x (by simp [hx])
      rw [update_cons]
      by_cases hr : p r = true
      · obtain ⟨h1, h2⟩ := hf r (by simp) hr
        simp [hr, h1, h2, ih']
      · simp only [hr, Bool.false_eq_true, if_false, List.filter_cons, ih']
  · rw [List.filter_append]
    simp [hnew]

lemma find?_upsert_of_disjoint (hnew : q new = false)
    (hf : ∀ r ∈ t, p r = true → q r = false ∧ q (f r) = false) :
    (upsert p f new t).find? q = t.find? q := by
  rw [← List.head?_filter, filter_upsert_of_disjoint hnew hf, List.head?_filter]

lemma find?_update (hq : ∀ r, q (f r) = q r) :
    (update p f t).find? q = (t.find? q).map fun r => if p r then f r else r := by
  unfold update
  rw [List.find?_map]
  congr 2
  funext r
  rw [Function.comp_apply]
  split_ifs
  · exact hq r
  · rfl

section

variable [BEq κ] [LawfulBEq κ] [DecidableEq κ] {k : ρ → κ} {a b : κ}

omit [DecidableEq κ] in
lemma find?_of_mem (h : (t.map k).Nodup) {r : ρ} (hr : r ∈ t) (hk : k r = a) :
    (t.find? fun x => k x == a) = some r := by
  have hsome : (t.find? fun x => k x == a).isSome = true :=
    List.find?_isSome.mpr ⟨r, hr, by simpa using hk⟩
  obtain ⟨r', hr'⟩ := Option.isSome_iff_exists.mp hsome
  have hk' : k r' = a := by simpa using List.find?_some hr'
  rw [hr', List.inj_on_of_nodup_map h (List.mem_of_find?_eq_some hr') hr (hk'.trans hk.symm)]

lemma find?_update_key (hk : ∀ r, k (f r) = k r) :
    (update (fun r => k r == a) f t).find? (fun r => k r == b) =
      if a = b then (t.find? fun r => k r == b).map f else t.find? fun r => k r == b := by
  rw [find?_update fun r => by rw [hk r]]
  cases h : t.find? fun r => k r == b with
  | none => simp
  | some r =>
    have hr : k r = b := by simpa using List.find?_some h
    by_cases hab : a = b
    · simp [hr, hab]
    · simp [hr, hab, Ne.symm hab]

lemma find?_upsert_key {new : ρ} (hk : ∀ r, k (f r) = k r) (hnew : k new = a) :
    (upsert (fun r => k r == a) f new t).find? (fun r => k r == b) =
      if a = b then some (((t.find? fun r => k r == b).map f).getD new)
      else t.find? fun r => k r == b := by
  unfold upsert
  split_ifs with hany hab hab
  · rw [find?_update_key hk, if_pos hab]
    obtain ⟨r, hr, hra⟩ := List.any_eq_true.mp hany
    rw [hab] at hra
    have hsome : (t.find? fun r => k r == b).isSome = true := List.find?_isSome.mpr ⟨r, hr, hra⟩
    obtain ⟨r', hr'⟩ := Option.isSome_iff_exists.mp hsome
    rw [hr']
    rfl
  · rw [find?_update_key hk, if_neg hab]
  · have hnone : (t.find? fun r => k r == b) = none := by
      rw [List.find?_eq_none]
      simpa [hab] using hany
    rw [List.find?_append, hnone]
    simp [hnew, hab]
  · rw [List.find?_append]
    simp [hnew, hab]

lemma find?_filter_key :
    (t.filter fun r => k r != a).find? (fun r => k r == b) =
      if a = b then none else t.find? fun r => k r == b := by
  rw [List.find?_filter]
  split_ifs with hab
  · rw [List.find?_eq_none]
    simp [hab]
  · congr 1
    funext r
    by_cases hr : k r = b
    · simp [hr, Ne.symm hab]
    · simp [hr]

end

lemma map_upsert_key [BEq κ] [LawfulBEq κ] [DecidableEq κ] {a : κ} {new : ρ}
    (hk : ∀ r, k (f r) = k r) (hnew : k new = a) : (upsert (fun r => k r == a) f new t).map k =
      if a ∈ t.map k then t.map k else t.map k ++ [a] := by
  have hany : t.any (fun r => k r == a) = true ↔ a ∈ t.map k := by simp
  unfold upsert
  by_cases h : a ∈ t.map k
  · rw [if_pos h, if_pos (hany.mpr h), map_update fun r _ _ => hk r]
  · rw [if_neg h, if_neg (mt hany.mp h), List.map_append, List.map_singleton, hnew]

lemma nodup_append {r : ρ} (h : (t.map k).Nodup) (hnew : ∀ x ∈ t, k x ≠ k r) :
    ((t ++ [r]).map k).Nodup := by
  rw [List.map_append, List.nodup_append]
  refine ⟨h, by simp, fun a ha b hb => ?_⟩
  obtain ⟨x, hx, rfl⟩ := List.mem_map.mp ha
  rw [List.map_singleton, List.mem_singleton] at hb
  rw [hb]
  exact hnew x hx

lemma nodup_update (h : (t.map k).Nodup) (hk : ∀ r ∈ t, p r = true → k (f r) = k r) :
    ((update p f t).map k).Nodup := by
  rw [map_update hk]
  exact h

lemma nodup_upsert [BEq κ] [LawfulBEq κ] (h : (t.map k).Nodup)
    (new : ρ) (hf : ∀ r ∈ t, k r = k new → k (f r) = k r) :
    ((upsert (fun r => k r == k new) f new t).map k).Nodup := by
  unfold upsert
  split_ifs with hany
  · exact nodup_update h fun r hr he => hf r hr (by simpa using he)
  · refine nodup_append h fun r hr hk => hany ?_
    exact List.any_eq_true.mpr ⟨r, hr, by rw [hk, beq_self_eq_true]⟩

lemma countP_update_le (h : ∀ r ∈ t, p r = true → q (f r) = true → q r = true) :
    (update p f t).countP q ≤ t.countP q := by
  unfold update
  rw [List.countP_map]
  apply List.countP_mono_left
  intro r hr hq
  by_cases hp : p r = true
  · simp only [Function.comp_apply, hp, if_true] at hq
    exact h r hr hp hq
  · simpa [hp] using hq

lemma countP_le_one {c : κ} (h : (t.map k).Nodup) (hp : ∀ r ∈ t, p r = true → k r = c) :
    t.countP p ≤ 1 := by
  induction t with
  | nil => simp
  | cons r t ih =>
    obtain ⟨hr, h⟩ := List.nodup_cons.mp h
    by_cases hpr : p r = true
    · have hrest : t.countP p = 0 := by
        rw [List.countP_eq_zero]
        intro x hx hpx
        refine hr ?_
        rw [hp r (by simp) hpr, ← hp x (by simp [hx]) hpx]
        exact List.mem_map_of_mem hx
      rw [List.countP_cons_of_pos hpr, hrest]
    · rw [List.countP_cons_of_neg hpr]
      exact ih h fun x hx => hp x (by simp [hx])

@[simp] lemma sum_nil : sum p g [] = 0 := rfl

lemma sum_cons (r : ρ) : sum p g (r :: t) = (if p r then g r else 0) + sum p g t := by
  by_cases h : p r = true <;> simp [sum, h]

lemma sum_append (u : List ρ) : sum p g (t ++ u) = sum p g t + sum p g u := by
  simp [sum]

lemma sum_snoc (r : ρ) : sum p g (t ++ [r]) = sum p g t + if p r then g r else 0 := by
  rw [sum_append, sum_cons, sum_nil, add_zero]

lemma sum_nonneg (h : ∀ r ∈ t, p r = true → 0 ≤ g r) : 0 ≤ sum p g t := by
  refine List.sum_nonneg fun x hx => ?_
  obtain ⟨r, hr, rfl⟩ := List.mem_map.mp hx
  obtain ⟨hr, hp⟩ := List.mem_filter.mp hr
  exact h r hr hp

lemma le_sum_of_mem (h : ∀ r ∈ t, p r = true → 0 ≤ g r) {r : ρ} (hr : r ∈ t) (hp : p r = true) :
    g r ≤ sum p g t := by
  induction t with
  | nil => cases hr
  | cons a t ih =>
    have hrest : 0 ≤ sum p g t := sum_nonneg fun r hr => h r (by simp [hr])
    have ha : 0 ≤ if p a then g a else 0 := by
      split_ifs with hpa
      · exact h a (by simp) hpa
      · exact le_rfl
    rw [sum_cons]
    rcases List.mem_cons.mp hr with rfl | hr
    · rw [if_pos hp]; omega
    · have := ih (fun r hr => h r (by simp [hr])) hr
      omega

lemma sum_update_eq (hp : ∀ r ∈ t, q r = true → p (f r) = p r)
    (hg : ∀ r ∈ t, q r = true → p r = true → g (f r) = g r) :
    sum p g (update q f t) = sum p g t := by
  induction t with
  | nil => rfl
  | cons a t ih =>
    have ih := ih (fun r hr => hp r (by simp [hr])) (fun r hr => hg r (by simp [hr]))
    rw [update_cons, sum_cons, sum_cons, ih]
    by_cases hq : q a = true
    · have h1 := hp a (by simp) hq
      rw [if_pos hq, h1]
      by_cases hpa : p a = true
      · rw [if_pos hpa, if_pos hpa, hg a (by simp) hq hpa]
      · rw [if_neg hpa, if_neg hpa]
    · rw [if_neg hq]

lemma sum_update_one {r : ρ} (hr : r ∈ t) (hone : ∀ x ∈ t, q x = true → x = r) (hq : q r = true)
    (hnd : t.Nodup) (hp : p (f r) = p r) :
    sum p g (update q f t) = sum p g t + if p r then g (f r) - g r else 0 := by
  induction t with
  | nil => cases hr
  | cons a t ih =>
    obtain ⟨hat, hnd⟩ := List.nodup_cons.mp hnd
    rw [update_cons, sum_cons, sum_cons]
    rcases List.mem_cons.mp hr with rfl | hr'
    · have hrest : update q f t = t := update_eq_self fun x hx hqx => by
        have := hone x (by simp [hx]) hqx
        subst this
        exact hat hx
      rw [if_pos hq, hp, hrest]
      split_ifs <;> omega
    · have hqa : ¬ q a = true := fun h => by
        have := hone a (by simp) h
        subst this
        exact hat hr'
      rw [if_neg hqa, ih hr' (fun x hx => hone x (by simp [hx])) hnd]
      omega

lemma sum_upsert_key [BEq κ] [LawfulBEq κ] {new : ρ} (h : (t.map k).Nodup)
    (hp : ∀ r, k r = k new → p (f r) = p new ∧ p r = p new) :
    sum p g (upsert (fun r => k r == k new) f new t) = sum p g t +
      if p new then ((t.find? fun r => k r == k new).map fun r => g (f r) - g r).getD (g new)
      else 0 := by
  unfold upsert
  by_cases hany : (t.any fun r => k r == k new) = true
  · obtain ⟨r, hr, hkey⟩ := List.any_eq_true.mp hany
    have hk : k r = k new := by simpa using hkey
    have hone : ∀ x ∈ t, (k x == k new) = true → x = r := fun x hx hx' =>
      List.inj_on_of_nodup_map h hx hr ((by simpa using hx' : k x = k new).trans hk.symm)
    obtain ⟨hpf, hpr⟩ := hp r hk
    rw [if_pos hany, sum_update_one hr hone hkey h.of_map (hpf.trans hpr.symm), hpr,
      find?_of_mem h hr hk]
    rfl
  · have hnone : (t.find? fun r => k r == k new) = none := by simpa using hany
    rw [if_neg hany, sum_snoc, hnone]
    rfl

end SbEasy.Table

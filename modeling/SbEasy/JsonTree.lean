import SbEasy.JsonEdit

/-!
Passes over whole JSON values: the names of members at any depth, and values without the
members of certain names.
-/

namespace SbEasy.Sbj

/-- `sbj_has` -/
def has (o : Option Sbj) (k : Bytes) : Bool := (get o k).isSome

/-- `sbj_size` -/
def size : Option Sbj → ℕ
  | some (.arr l) => l.length
  | some (.obj m) => m.length
  | v => if isNull v then 0 else 1

/-- An object put together member by member. -/
def build (l : List (Bytes × Sbj)) : Sbj := l.foldl (fun o p => o.set p.1 p.2) (.obj [])

/-- Several calls of `sbj_del`. -/
def eraseKeys (keys : List Bytes) (o : Sbj) : Sbj := keys.foldl Sbj.del o

mutual
/-- A member has a name with the property `p`, at any depth, but not inside a member whose name is
skipped. -/
def names (skip p : Bytes → Bool) : Sbj → Bool
  | .arr l => namesItems skip p l
  | .obj m => namesMembers skip p m
  | _ => false
def namesItems (skip p : Bytes → Bool) : List Sbj → Bool
  | [] => false
  | v :: l => v.names skip p || namesItems skip p l
def namesMembers (skip p : Bytes → Bool) : List (Bytes × Sbj) → Bool
  | [] => false
  | (k, v) :: m => (!skip k && (p k || v.names skip p)) || namesMembers skip p m
end

mutual
/-- A value without the members of certain names, at any depth. -/
def without (drop : Bytes → Bool) : Sbj → Sbj
  | .arr l => .arr (withoutItems drop l)
  | .obj m => .obj (withoutMembers drop m)
  | v => v
def withoutItems (drop : Bytes → Bool) : List Sbj → List Sbj
  | [] => []
  | v :: l => v.without drop :: withoutItems drop l
def withoutMembers (drop : Bytes → Bool) : List (Bytes × Sbj) → List (Bytes × Sbj)
  | [] => []
  | (k, v) :: m =>
    if drop k then withoutMembers drop m else (k, v.without drop) :: withoutMembers drop m
end

variable {skip p drop : Bytes → Bool}

lemma namesMembers_eq (m : List (Bytes × Sbj)) :
    namesMembers skip p m = m.any fun q => !skip q.1 && (p q.1 || q.2.names skip p) := by
  induction m with
  | nil => rfl
  | cons q m ih =>
    obtain ⟨k, v⟩ := q
    rw [namesMembers, ih, List.any_cons]

lemma withoutItems_eq (l : List Sbj) : withoutItems drop l = l.map (without drop) := by
  induction l with
  | nil => rfl
  | cons v l ih => rw [withoutItems, ih, List.map_cons]

lemma withoutMembers_eq (m : List (Bytes × Sbj)) :
    withoutMembers drop m =
      (m.filter fun q => !drop q.1).map fun q => (q.1, q.2.without drop) := by
  induction m with
  | nil => rfl
  | cons q m ih =>
    obtain ⟨k, v⟩ := q
    rw [withoutMembers, ih]
    cases hk : drop k <;> simp [hk]

lemma isObject_without (v : Sbj) : isObject (some (v.without drop)) = isObject (some v) := by
  cases v <;> rfl

mutual
lemma names_without (v : Sbj) : (v.without drop).names (fun _ => false) p = v.names drop p := by
  cases v with
  | arr l =>
    rw [without, names, names]
    exact namesItems_without l
  | obj m =>
    rw [without, names, names]
    exact namesMembers_without m
  | _ => rfl
lemma namesItems_without (l : List Sbj) :
    namesItems (fun _ => false) p (withoutItems drop l) = namesItems drop p l := by
  match l with
  | [] => rfl
  | v :: l => rw [withoutItems, namesItems, namesItems, names_without v, namesItems_without l]
lemma namesMembers_without (m : List (Bytes × Sbj)) :
    namesMembers (fun _ => false) p (withoutMembers drop m) = namesMembers drop p m := by
  match m with
  | [] => rfl
  | (k, v) :: m =>
    rw [withoutMembers, namesMembers, ← namesMembers_without m]
    cases hk : drop k with
    | true => simp
    | false => simp [namesMembers, names_without v]
end

lemma sorted_withoutMembers {m : List (Bytes × Sbj)} (h : SortedAssoc.Sorted m) :
    SortedAssoc.Sorted (withoutMembers drop m) := by
  rw [withoutMembers_eq]
  exact SortedAssoc.sorted_map _ (h.filter _)

variable {o : Sbj}

lemma IsObj.without (h : o.IsObj) (drop : Bytes → Bool) : (o.without drop).IsObj := by
  obtain ⟨m, rfl, hs⟩ := h
  exact ⟨_, rfl, sorted_withoutMembers hs⟩

lemma IsObj.get_without (h : o.IsObj) (k : Bytes) : Sbj.get (some (o.without drop)) k =
      if drop k then none else (Sbj.get (some o) k).map (Sbj.without drop) := by
  obtain ⟨m, rfl, hs⟩ := h
  have hs' : SortedAssoc.Sorted (withoutMembers drop m) := sorted_withoutMembers hs
  refine Option.ext fun w => ?_
  rw [Sbj.get, Sbj.without, members, SortedAssoc.get_eq_some_iff hs', withoutMembers_eq, List.mem_map]
  split_ifs with hk
  · simp only [iff_false]
    rintro ⟨q, hq, heq⟩
    rw [List.mem_filter] at hq
    cases heq
    simp [hk] at hq
  · rw [Option.map_eq_some_iff]
    constructor
    · rintro ⟨q, hq, heq⟩
      cases heq
      exact ⟨q.2, (SortedAssoc.get_eq_some_iff hs).mpr (List.mem_filter.mp hq).1, rfl⟩
    · rintro ⟨v, hv, rfl⟩
      have hmem := (SortedAssoc.get_eq_some_iff hs).mp hv
      exact ⟨(k, v), List.mem_filter.mpr ⟨hmem, by simpa using hk⟩, rfl⟩

variable {v : Sbj} {l : List (Bytes × Sbj)} {k : Bytes}

lemma Ordered.get_without (h : v.Ordered) (k : Bytes) : Sbj.get (some (v.without drop)) k =
      if drop k then none else (Sbj.get (some v) k).map (Sbj.without drop) := by
  cases v with
  | obj m => exact IsObj.get_without ⟨m, rfl, h.1⟩ k
  | _ => simp [Sbj.get, members, Sbj.without]

lemma IsObj.eraseKeys (h : o.IsObj) (keys : List Bytes) : (o.eraseKeys keys).IsObj := by
  induction keys generalizing o with
  | nil => exact h
  | cons k keys ih => exact ih (h.del k)

lemma IsObj.get_del (h : o.IsObj) (k k' : Bytes) :
    Sbj.get (some (o.del k)) k' = if k' = k then none else Sbj.get (some o) k' := by
  split_ifs with hk
  · obtain ⟨m, rfl, hs⟩ := h
    rw [hk]
    exact SortedAssoc.get_del_self hs
  · exact h.get_del_ne hk

lemma IsObj.get_eraseKeys (h : o.IsObj) (keys : List Bytes) (k : Bytes) :
    Sbj.get (some (o.eraseKeys keys)) k = if k ∈ keys then none else Sbj.get (some o) k := by
  induction keys generalizing o with
  | nil => simp [Sbj.eraseKeys]
  | cons a keys ih =>
    have hrest := ih (h.del a)
    rw [Sbj.eraseKeys, List.foldl_cons, ← Sbj.eraseKeys, hrest, h.get_del]
    by_cases hk : k = a
    · simp [hk]
    · simp [hk]

lemma IsObj.get_set_eq (h : o.IsObj) (k k' : Bytes) (v : Sbj) :
    Sbj.get (some (o.set k v)) k' = if k' = k then some v else Sbj.get (some o) k' := by
  split_ifs with hk
  · rw [hk, h.get_set]
  · exact h.get_set_ne hk

lemma IsObj.get_modify_eq (h : o.IsObj) (k k' : Bytes) (f : Sbj → Sbj) :
    Sbj.get (some (o.modify k f)) k' =
      if k' = k then (Sbj.get (some o) k).map f else Sbj.get (some o) k' := by
  split_ifs with hk
  · rw [hk, h.get_modify]
  · exact h.get_modify_ne hk f

lemma Ordered.set {v : Sbj} (h : o.Ordered) (hv : v.Ordered) (k : Bytes) : (o.set k v).Ordered := by
  cases o with
  | obj m =>
    refine ⟨SortedAssoc.sorted_set h.1 v, orderedMembers_iff.mpr fun q hq => ?_⟩
    rcases SortedAssoc.mem_set h.1 hq with rfl | hq
    · exact hv
    · exact orderedMembers_iff.mp h.2 q hq
  | _ => exact h

lemma Ordered.del (h : o.Ordered) (k : Bytes) : (o.del k).Ordered := by
  cases o with
  | obj m =>
    refine ⟨SortedAssoc.sorted_del h.1, orderedMembers_iff.mpr fun q hq => ?_⟩
    exact orderedMembers_iff.mp h.2 q ((SortedAssoc.mem_del h.1).mp hq).1
  | _ => exact h

lemma build_snoc (l : List (Bytes × Sbj)) (p : Bytes × Sbj) :
    build (l ++ [p]) = (build l).set p.1 p.2 := by
  simp [build]

lemma isObj_build (l : List (Bytes × Sbj)) : (build l).IsObj := by
  induction l using List.reverseRecOn with
  | nil => exact isObj_nil
  | append_singleton l p ih => rw [build_snoc]; exact ih.set _ _

lemma get_build (hl : (l.map Prod.fst).Nodup)
    (h : (k, v) ∈ l) : get (some (build l)) k = some v := by
  induction l using List.reverseRecOn with
  | nil => cases h
  | append_singleton l p ih =>
    rw [List.map_append, List.nodup_append] at hl
    rw [build_snoc]
    rcases List.mem_append.mp h with h | h
    · have hk : k ≠ p.1 := hl.2.2 k (List.mem_map_of_mem h) p.1 (by simp)
      rw [(isObj_build l).get_set_ne hk]
      exact ih hl.1 h
    · obtain rfl := List.mem_singleton.mp h
      exact (isObj_build l).get_set

lemma mem_of_get_build (h : get (some (build l)) k = some v) : (k, v) ∈ l := by
  induction l using List.reverseRecOn with
  | nil => rw [build, List.foldl_nil, get, members, SortedAssoc.get_nil] at h; cases h
  | append_singleton l p ih =>
    rw [build_snoc, (isObj_build l).get_set_eq] at h
    split_ifs at h with hk
    · cases h
      simp [hk]
    · exact List.mem_append_left _ (ih h)

lemma ordered_build {l : List (Bytes × Sbj)} (h : ∀ p ∈ l, p.2.Ordered) : (build l).Ordered := by
  induction l using List.reverseRecOn with
  | nil => exact ordered_nil
  | append_singleton l p ih =>
    rw [build_snoc]
    exact (ih fun q hq => h q (by simp [hq])).set (h p (by simp)) _

end SbEasy.Sbj

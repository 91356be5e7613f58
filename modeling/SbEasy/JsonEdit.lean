import SbEasy.JsonSound

/-!
Editing of JSON values: what `sbj_set`, `sbj_del` and the reads after them make of an
object, and the order of keys that every `sbj` keeps.
-/

namespace SbEasy.Sbj

lemma cstr_cstr (s : Bytes) : cstr (cstr s) = cstr s := List.takeWhile_idem

/-- `sbj_del` -/
def del (o : Sbj) (k : Bytes) : Sbj :=
  match o with
  | .obj m => .obj (SortedAssoc.del m k)
  | o => o

/-- `sbj_type_name` -/
def typeName : Option Sbj → String
  | none => "null"
  | some .null => "null"
  | some (.bool _) => "boolean"
  | some (.int _) => "number"
  | some (.uint _) => "number"
  | some (.float _) => "number"
  | some (.str _) => "string"
  | some (.arr _) => "array"
  | some (.obj _) => "object"

mutual
/-- The keys of every object in a value are in order, as `sbj_setn` keeps them. -/
def Ordered : Sbj → Prop
  | .arr l => OrderedItems l
  | .obj m => SortedAssoc.Sorted m ∧ OrderedMembers m
  | _ => True
def OrderedItems : List Sbj → Prop
  | [] => True
  | v :: l => v.Ordered ∧ OrderedItems l
def OrderedMembers : List (Bytes × Sbj) → Prop
  | [] => True
  | p :: m => p.2.Ordered ∧ OrderedMembers m
end

lemma ordered_nil : (Sbj.obj []).Ordered := ⟨.nil, trivial⟩

lemma orderedItems_iff {l : List Sbj} : OrderedItems l ↔ ∀ v ∈ l, v.Ordered := by
  induction l with
  | nil => simp [OrderedItems]
  | cons v l ih => simp [OrderedItems, ih]

lemma orderedMembers_iff {m : List (Bytes × Sbj)} : OrderedMembers m ↔ ∀ p ∈ m, p.2.Ordered := by
  induction m with
  | nil => simp [OrderedMembers]
  | cons p m ih => simp [OrderedMembers, ih]

mutual
lemma Wf.ordered (v : Sbj) (h : v.Wf) : v.Ordered := by
  cases v with
  | arr l => exact wfItems_ordered l h
  | obj m => exact ⟨h.1, wfMembers_ordered m h.2⟩
  | _ => trivial
lemma wfItems_ordered (l : List Sbj) (h : WfItems l) : OrderedItems l := by
  match l with
  | [] => trivial
  | v :: l => exact ⟨Wf.ordered v h.1, wfItems_ordered l h.2⟩
lemma wfMembers_ordered (m : List (Bytes × Sbj)) (h : WfMembers m) : OrderedMembers m := by
  match m with
  | [] => trivial
  | (_, v) :: m => exact ⟨Wf.ordered v h.2.1, wfMembers_ordered m h.2.2⟩
end

/-- An object whose own keys are in order. -/
def IsObj (v : Sbj) : Prop := ∃ m, v = .obj m ∧ SortedAssoc.Sorted m

lemma isObj_nil : IsObj (.obj []) := ⟨[], rfl, .nil⟩

lemma Ordered.isObj {v : Sbj} (h : v.Ordered) (ho : isObject (some v) = true) : v.IsObj := by
  cases v with
  | obj m => exact ⟨m, rfl, h.1⟩
  | _ => cases ho

lemma Ordered.get {v w : Sbj} {k : Bytes} (h : v.Ordered) (hw : get (some v) k = some w) :
    w.Ordered := by
  cases v with
  | obj m =>
    have hmem := (SortedAssoc.get_eq_some_iff h.1).mp hw
    exact orderedMembers_iff.mp h.2 _ hmem
  | _ => simp [Sbj.get, members] at hw

lemma Ordered.items {l : List Sbj} (h : (Sbj.arr l).Ordered) {v : Sbj} (hv : v ∈ l) : v.Ordered :=
  orderedItems_iff.mp h v hv

section

variable {o : Sbj} {k k' : Bytes} {v : Sbj}

lemma IsObj.isObject (h : o.IsObj) : isObject (some o) = true := by
  obtain ⟨m, rfl, -⟩ := h
  rfl

lemma IsObj.set (h : o.IsObj) (k : Bytes) (v : Sbj) : (o.set k v).IsObj := by
  obtain ⟨m, rfl, hs⟩ := h
  exact ⟨_, rfl, SortedAssoc.sorted_set hs v⟩

lemma IsObj.del (h : o.IsObj) (k : Bytes) : (o.del k).IsObj := by
  obtain ⟨m, rfl, hs⟩ := h
  exact ⟨_, rfl, SortedAssoc.sorted_del hs⟩

lemma IsObj.get_set (h : o.IsObj) : Sbj.get (some (o.set k v)) k = some v := by
  obtain ⟨m, rfl, hs⟩ := h
  exact SortedAssoc.get_set_self hs v

lemma IsObj.get_set_ne (h : o.IsObj) (hk : k' ≠ k) :
    Sbj.get (some (o.set k v)) k' = Sbj.get (some o) k' := by
  obtain ⟨m, rfl, hs⟩ := h
  exact SortedAssoc.get_set_of_ne hs v hk

lemma IsObj.get_del_ne (h : o.IsObj) (hk : k' ≠ k) :
    Sbj.get (some (o.del k)) k' = Sbj.get (some o) k' := by
  obtain ⟨m, rfl, hs⟩ := h
  exact SortedAssoc.get_del_of_ne hs hk

lemma IsObj.ext {o' : Sbj} (h : o.IsObj) (h' : o'.IsObj)
    (hget : ∀ k, Sbj.get (some o) k = Sbj.get (some o') k) : o = o' := by
  obtain ⟨m, rfl, hs⟩ := h
  obtain ⟨m', rfl, hs'⟩ := h'
  rw [SortedAssoc.ext_get hs hs' hget]

end

/-- An object with what it holds under a key. -/
structure Has (o : Sbj) (k : Bytes) (v : Option Sbj) : Prop where
  obj : o.IsObj
  get : Sbj.get (some o) k = v

namespace Has

variable {o : Sbj} {k : Bytes} {v : Option Sbj}

lemma nil (k : Bytes) : Has (.obj []) k none := ⟨isObj_nil, SortedAssoc.get_nil k⟩

lemma set_self (h : o.IsObj) (k : Bytes) (w : Sbj) : Has (o.set k w) k (some w) :=
  ⟨h.set k w, h.get_set⟩

lemma set (h : Has o k v) {k' : Bytes} (hk : k ≠ k') (w : Sbj) : Has (o.set k' w) k v :=
  ⟨h.obj.set k' w, by rw [h.obj.get_set_ne hk, h.get]⟩

end Has

@[simp] lemma get_obj_nil (k : Bytes) : get (some (.obj [])) k = none := SortedAssoc.get_nil k

/-- Change a member in place, if there is one. -/
def modify (o : Sbj) (k : Bytes) (f : Sbj → Sbj) : Sbj :=
  match get (some o) k with
  | some v => o.set k (f v)
  | none => o

@[simp] lemma items_arr (l : List Sbj) : items (some (.arr l)) = l := rfl

lemma IsObj.modify {o : Sbj} (h : o.IsObj) (k : Bytes) (f : Sbj → Sbj) : (o.modify k f).IsObj := by
  unfold Sbj.modify
  split
  · exact h.set _ _
  · exact h

lemma IsObj.get_modify {o : Sbj} (h : o.IsObj) (k : Bytes) (f : Sbj → Sbj) :
    get (some (o.modify k f)) k = (get (some o) k).map f := by
  unfold Sbj.modify
  split
  next v hv => rw [h.get_set, hv]; rfl
  next hv => rw [hv]; rfl

lemma IsObj.get_modify_ne {o : Sbj} (h : o.IsObj) {k k' : Bytes} (hk : k' ≠ k) (f : Sbj → Sbj) :
    get (some (o.modify k f)) k' = get (some o) k' := by
  unfold Sbj.modify
  split
  · exact h.get_set_ne hk
  · rfl

end SbEasy.Sbj

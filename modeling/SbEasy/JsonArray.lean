import SbEasy.JsonTree

/-!
Edits of arrays: a value is pushed at the end, an item is changed in place.
-/

namespace SbEasy.Sbj

/-- `sbj_arr_push` -/
def push (v : Sbj) : Sbj → Sbj
  | .arr l => .arr (l ++ [v])
  | o => o

/-- Change an item of an array in place. -/
def modifyAt (v : Sbj) (i : ℕ) (f : Sbj → Sbj) : Sbj :=
  match v with
  | .arr l => .arr (l.modify i f)
  | o => o

lemma ordered_arr {l : List Sbj} (h : ∀ o ∈ l, o.Ordered) : (Sbj.arr l).Ordered :=
  orderedItems_iff.mpr h

lemma get_of_not_object {v : Sbj} (h : isObject (some v) = false) (k : Bytes) :
    get (some v) k = none := by
  cases v with
  | obj m => cases h
  | _ => exact SortedAssoc.get_nil k

section

variable {v : Sbj} (h : v.Ordered)
include h

lemma Ordered.modify {f : Sbj → Sbj} (hf : ∀ w, w.Ordered → (f w).Ordered) (k : Bytes) :
    (v.modify k f).Ordered := by
  unfold Sbj.modify
  split
  · next w hw => exact h.set (hf w (h.get hw)) k
  · exact h

lemma Ordered.modifyAt {f : Sbj → Sbj} (hf : ∀ w, w.Ordered → (f w).Ordered) (i : ℕ) :
    (v.modifyAt i f).Ordered := by
  cases v with
  | arr l =>
    refine ordered_arr fun o ho => ?_
    obtain ⟨j, hj⟩ := List.mem_iff_getElem?.mp ho
    rw [List.getElem?_modify, Option.map_eq_map, Option.map_eq_some_iff] at hj
    obtain ⟨a, ha, rfl⟩ := hj
    have hord := h.items (List.mem_of_getElem? ha)
    split_ifs
    · exact hf a hord
    · exact hord
  | _ => exact h

end

end SbEasy.Sbj

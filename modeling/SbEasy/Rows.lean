import Mathlib.Tactic

/-!
A table whose rows stay at their positions, so that a position serves as a pointer: rows are
changed and appended, never removed.
-/

namespace SbEasy.Rows

variable {α : Type*} {R : α → α → Prop} {l l' l'' : List α}

/-- Every row is still at its position, changed as `R` allows. -/
def Grows (R : α → α → Prop) (l l' : List α) : Prop :=
  ∀ (i : ℕ) (a : α), l[i]? = some a → ∃ a', l'[i]? = some a' ∧ R a a'

lemma Grows.refl (hR : ∀ a, R a a) (l : List α) : Grows R l l := fun _ a ha => ⟨a, ha, hR a⟩

lemma Grows.trans (hR : ∀ {a b c}, R a b → R b c → R a c) (h : Grows R l l') (h' : Grows R l' l'') :
    Grows R l l'' := by
  intro i a ha
  obtain ⟨b, hb, hab⟩ := h i a ha
  obtain ⟨c, hc, hbc⟩ := h' i b hb
  exact ⟨c, hc, hR hab hbc⟩

lemma Grows.mono {S : α → α → Prop} (h : Grows R l l') (hRS : ∀ a a', R a a' → S a a') :
    Grows S l l' := by
  intro i a ha
  obtain ⟨a', ha', hR⟩ := h i a ha
  exact ⟨a', ha', hRS a a' hR⟩

lemma grows_append (hR : ∀ a, R a a) (l more : List α) : Grows R l (l ++ more) := by
  intro i a ha
  have hi : i < l.length := (List.getElem?_eq_some_iff.mp ha).1
  exact ⟨a, by rw [List.getElem?_append_left hi, ha], hR a⟩

lemma forall₂_map {f : α → α} (hf : ∀ a, R a (f a)) (l : List α) : List.Forall₂ R l (l.map f) := by
  rw [List.forall₂_map_right_iff, List.forall₂_same]
  exact fun a _ => hf a

lemma forall₂_modify {f : α → α} (hR : ∀ a, R a a) (hf : ∀ a, R a (f a)) (l : List α) (i : ℕ) :
    List.Forall₂ R l (l.modify i f) := by
  induction l generalizing i with
  | nil => cases i <;> exact .nil
  | cons a l ih =>
    cases i with
    | zero => exact .cons (hf a) (List.forall₂_same.mpr fun a _ => hR a)
    | succ i => exact .cons (hR a) (ih i)

lemma forall₂_trans (hR : ∀ {a b c}, R a b → R b c → R a c) (h : List.Forall₂ R l l')
    (h' : List.Forall₂ R l' l'') : List.Forall₂ R l l'' := by
  induction h generalizing l'' with
  | nil => exact h'
  | cons hab _ ih =>
    cases h' with
    | cons hbc h' => exact .cons (hR hab hbc) (ih h')

lemma grows_of_forall₂ (h : List.Forall₂ R l l') : Grows R l l' := by
  induction h with
  | nil => exact fun i a ha => by simp at ha
  | cons hab _ ih =>
    intro i a ha
    cases i with
    | zero => exact ⟨_, rfl, by simpa using (Option.some.inj ha) ▸ hab⟩
    | succ i => exact ih i a ha

lemma row_of_forall₂ (h : List.Forall₂ R l l') {i : ℕ} {a' : α} (ha' : l'[i]? = some a') :
    ∃ a, l[i]? = some a ∧ R a a' :=
  grows_of_forall₂ h.flip i a' ha'

end SbEasy.Rows

import Mathlib.Data.Nat.Digits.Lemmas
import Mathlib.Tactic

/-!
Numbers by their digits, the most significant digit first. Digits that are read one by one extend
the number at its low end, and lists of digits of one length are told apart by their numbers.
-/

namespace SbEasy.Radix

variable {b : ℕ}

/-- The number that digits stand for. -/
def value (b : ℕ) (ds : List ℕ) : ℕ := Nat.ofDigits b ds.reverse

@[simp] lemma value_nil : value b [] = 0 := rfl

lemma value_append (l l' : List ℕ) : value b (l ++ l') = value b l * b ^ l'.length + value b l' := by
  rw [value, List.reverse_append, Nat.ofDigits_append, List.length_reverse, value, value]
  ring

lemma value_singleton (d : ℕ) : value b [d] = d := by simp [value]

lemma value_snoc (l : List ℕ) (d : ℕ) : value b (l ++ [d]) = value b l * b + d := by
  rw [value_append, List.length_singleton, pow_one, value_singleton]

lemma value_lt (hb : 1 < b) {l : List ℕ} (hl : ∀ d ∈ l, d < b) : value b l < b ^ l.length := by
  rw [value, ← List.length_reverse]
  exact Nat.ofDigits_lt_base_pow_length hb fun d hd => hl d (List.mem_reverse.mp hd)

lemma value_take (hb : 1 < b) {l l' : List ℕ} (hl' : ∀ d ∈ l', d < b) :
    value b l = value b (l ++ l') / b ^ l'.length := by
  have hpos : 0 < b ^ l'.length := by positivity
  rw [value_append, Nat.add_comm, Nat.add_mul_div_right _ _ hpos,
    Nat.div_eq_of_lt (value_lt hb hl'), Nat.zero_add]

lemma value_inj (hb : 1 < b) {l l' : List ℕ} (hlen : l.length = l'.length) (hl : ∀ d ∈ l, d < b)
    (hl' : ∀ d ∈ l', d < b) (h : value b l = value b l') : l = l' := by
  refine List.reverse_injective (Nat.ofDigits_inj_of_len_eq hb ?_ ?_ ?_ h)
  · rw [List.length_reverse, List.length_reverse, hlen]
  · exact fun d hd => hl d (List.mem_reverse.mp hd)
  · exact fun d hd => hl' d (List.mem_reverse.mp hd)

end SbEasy.Radix

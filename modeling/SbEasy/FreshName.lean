import Mathlib.Tactic

/-!
Search of a name that is not in use: as long as the candidate is taken, the next one is
tried. Among candidates that never repeat, a finite list of taken names leaves one free.
-/

namespace SbEasy.FreshName

variable {α : Type*}

/-- The search, with a bound on the number of steps. -/
def search (used : α → Bool) (next : α → α) : ℕ → α → α
  | 0, a => a
  | fuel + 1, a => if used a then search used next fuel (next a) else a

lemma search_eq (used : α → Bool) (next : α → α) (fuel : ℕ) (a : α) :
    ∃ n ≤ fuel, search used next fuel a = next^[n] a ∧ (∀ i < n, used (next^[i] a) = true) ∧
      (used (next^[n] a) = true → n = fuel) := by
  induction fuel generalizing a with
  | zero => exact ⟨0, le_rfl, rfl, by simp, fun _ => rfl⟩
  | succ fuel ih =>
    by_cases hu : used a = true
    · obtain ⟨n, hn, he, hall, hlast⟩ := ih (next a)
      refine ⟨n + 1, by omega, ?_, ?_, fun h => by rw [hlast h]⟩
      · rw [search, if_pos hu, he]
        rfl
      · rintro (_ | i) hi
        · exact hu
        · exact hall i (by omega)
    · exact ⟨0, by omega, by rw [search, if_neg hu]; rfl, by simp, fun h => absurd h hu⟩

/-- **The search ends**: with more candidates than taken names, the result is free. -/
theorem search_free [DecidableEq α] {used : α → Bool} {next : α → α} {a : α} {names : List α}
    (hinj : Function.Injective fun n => next^[n] a) (hused : ∀ b, used b = true → b ∈ names)
    {fuel : ℕ} (hf : names.length ≤ fuel) : used (search used next fuel a) = false := by
  obtain ⟨n, hn, he, hall, hlast⟩ := search_eq used next fuel a
  rw [he]
  by_contra hu
  rw [Bool.not_eq_false] at hu
  -- All candidates up to the bound are taken, and they are pairwise different.
  have hsub : ((List.range (n + 1)).map fun i => next^[i] a) ⊆ names := by
    intro b hb
    obtain ⟨i, hi, rfl⟩ := List.mem_map.mp hb
    rcases Nat.lt_or_ge i n with hlt | hge
    · exact hused _ (hall i hlt)
    · have : i = n := by
        have := List.mem_range.mp hi
        omega
      exact hused _ (this ▸ hu)
  have hnodup : ((List.range (n + 1)).map fun i => next^[i] a).Nodup :=
    List.Nodup.map hinj List.nodup_range
  have hle := (hnodup.subperm hsub).length_le
  rw [List.length_map, List.length_range] at hle
  have := hlast hu
  omega

lemma injective_of_length {β : Type*} {next : List β → List β}
    (h : ∀ l, l.length < (next l).length) (l : List β) :
    Function.Injective fun n => next^[n] l := by
  have hmono : StrictMono fun n => (next^[n] l).length := by
    refine strictMono_nat_of_lt_succ fun n => ?_
    rw [Function.iterate_succ_apply']
    exact h _
  intro n m he
  exact hmono.injective (congrArg List.length he)

end SbEasy.FreshName

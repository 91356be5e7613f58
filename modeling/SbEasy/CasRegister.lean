import Mathlib.Tactic

/-!
Registers with a revision that change only by compare-and-swap: a write names the revision it
replaces. The revisions that the successful writes name are then determined by their order.
-/

namespace SbEasy

/-- How often a register has been written, and what was written last. -/
structure Register (α : Type*) where
  revision : ℕ
  content : Option α

namespace Register

variable {α : Type*} {r r' : Register α}

structure Write (α : Type*) where
  expected : ℤ
  content : α

def write (r : Register α) (w : Write α) : Option (Register α) :=
  if w.expected = r.revision then some ⟨r.revision + 1, some w.content⟩ else none

/-- The register after writes that all succeed. -/
def writes : Register α → List (Write α) → Option (Register α)
  | r, [] => some r
  | r, w :: ws => (r.write w).bind fun r => r.writes ws

lemma writes_append (a b : List (Write α)) :
    r.writes (a ++ b) = (r.writes a).bind fun r => r.writes b := by
  induction a generalizing r with
  | nil => rfl
  | cons w a ih =>
    rw [List.cons_append, writes, writes, Option.bind_assoc]
    exact congrArg _ (funext fun r => ih)

/-- **Order of the revisions.** Successful writes name consecutive revisions, none is lost and
none is used twice. -/
theorem expected_of_writes {ws : List (Write α)} (h : r.writes ws = some r') :
    ws.map (·.expected) = (List.range' r.revision ws.length).map Int.ofNat ∧
      r'.revision = r.revision + ws.length ∧
      r'.content = (ws.getLast?.map (·.content)).or r.content := by
  induction ws generalizing r with
  | nil =>
    cases h
    simp
  | cons w ws ih =>
    rw [writes, write] at h
    split_ifs at h with he
    · obtain ⟨h1, h2, h3⟩ := ih h
      refine ⟨?_, ?_, ?_⟩
      · rw [List.map_cons, h1, List.length_cons, List.range'_succ, List.map_cons, he]
        rfl
      · rw [h2, List.length_cons]
        simp only
        omega
      · rw [h3]
        cases hl : ws.getLast? with
        | none =>
          rw [List.getLast?_eq_none_iff] at hl
          simp [hl]
        | some x => simp [List.getLast?_cons, hl]
    · cases h

end Register
end SbEasy

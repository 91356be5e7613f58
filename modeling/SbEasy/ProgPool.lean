import SbEasy.Prog

/-!
Many programs at once, one operation at a time.

Every program has a number and relies on something of its own. What one of them does under its guard
has to be what all the others rely on; then each can be proved by itself.
-/

namespace SbEasy.Prog

variable {S Op χ : Type} {Reply : Op → Type} {α : Type}

/-- Programs with one invariant. -/
structure Team (S : Type) (Op : Type) (Reply : Op → Type) where
  act : ℕ → (o : Op) → S → Reply o → S → Prop
  rely : ℕ → S → S → Prop
  inv : S → Prop
  guard : ℕ → Op → S → Prop
  rely_refl : ∀ i s, rely i s s
  rely_trans : ∀ i s s' s'', rely i s s' → rely i s' s'' → rely i s s''
  inv_rely : ∀ i s s', inv s → rely i s s' → inv s'
  /-- What one does, the others rely on. -/
  kept : ∀ i j o s r s', i ≠ j → inv s → guard j o s → act j o s r s' → rely i s s'

/-- One of them, among the others. -/
def Team.setting (m : Team S Op Reply) (i : ℕ) : Setting S Op Reply where
  act := m.act i
  rely := m.rely i
  inv := m.inv
  guard := m.guard i
  rely_refl := m.rely_refl i
  rely_trans := m.rely_trans i
  inv_rely := m.inv_rely i

/-- A state, and the programs that have been started. -/
structure Pool (S : Type) (Op : Type) (Reply : Op → Type) (α : Type) where
  state : S
  programs : ℕ → Option (Prog Op Reply Empty α)

namespace Pool

/-- A program is started, or one that has been started performs its next operation. -/
inductive Step (act : ℕ → (o : Op) → S → Reply o → S → Prop)
    (launch : S → ℕ → Prog Op Reply Empty α → S → Prop) : Pool S Op Reply α → Pool S Op Reply α → Prop
  | launched {s s' : S} {ps : ℕ → Option (Prog Op Reply Empty α)} {i : ℕ}
    {p : Prog Op Reply Empty α} (hnew : ps i = none) (h : launch s i p s') :
    Step act launch ⟨s, ps⟩ ⟨s', Function.update ps i (some p)⟩
  | performed {s s' : S} {ps : ℕ → Option (Prog Op Reply Empty α)} {i : ℕ} {o : Op}
    {k : Reply o → Prog Op Reply Empty α} {r : Reply o} (hi : ps i = some (.call o k))
    (h : act i o s r s') : Step act launch ⟨s, ps⟩ ⟨s', Function.update ps i (some (k r))⟩

def Reach (act : ℕ → (o : Op) → S → Reply o → S → Prop)
    (launch : S → ℕ → Prog Op Reply Empty α → S → Prop) :
    Pool S Op Reply α → Pool S Op Reply α → Prop :=
  Relation.ReflTransGen (Step act launch)

/-- The invariant, with programs that are safe from here on. -/
def Safe (m : Team S Op Reply) (c : Pool S Op Reply α) : Prop :=
  m.inv c.state ∧ ∀ i p, c.programs i = some p →
    ∃ s, m.rely i s c.state ∧ wp (m.setting i) p (fun _ => m.inv) (fun _ _ => True) s

variable {m : Team S Op Reply} {launch : S → ℕ → Prog Op Reply Empty α → S → Prop}
  {c c' : Pool S Op Reply α}

lemma Safe.step (hsafe : c.Safe m)
    (hlaunch : ∀ s i p s', launch s i p s' → m.inv s → (∀ j, j ≠ i → m.rely j s s') ∧
      wp (m.setting i) p (fun _ => m.inv) (fun _ _ => True) s')
    (h : Step m.act launch c c') : c'.Safe m := by
  obtain ⟨hinv, hprograms⟩ := hsafe
  -- the program that moves is safe after it, and the others rely on what it has done
  have hothers : ∀ {s s' : S} {ps : ℕ → Option (Prog Op Reply Empty α)} {i : ℕ}
      {q : Prog Op Reply Empty α}, (∀ j p, ps j = some p →
        ∃ s₀, m.rely j s₀ s ∧ wp (m.setting j) p (fun _ => m.inv) (fun _ _ => True) s₀) →
      (∀ j, j ≠ i → m.rely j s s') → wp (m.setting i) q (fun _ => m.inv) (fun _ _ => True) s' →
      (⟨s', Function.update ps i (some q)⟩ : Pool S Op Reply α).Safe m := by
    intro s s' ps i q hps hrely hq
    refine ⟨inv_of_wp hq, fun j p hp => ?_⟩
    by_cases hj : j = i
    · subst hj
      simp only [Function.update_self] at hp
      cases hp
      exact ⟨s', m.rely_refl _ _, hq⟩
    · simp only [Function.update_of_ne hj] at hp
      obtain ⟨s₀, hs₀, hwp⟩ := hps j p hp
      exact ⟨s₀, m.rely_trans _ _ _ _ hs₀ (hrely j hj), hwp⟩
  cases h with
  | launched hnew hl =>
    obtain ⟨hrely, hwp⟩ := hlaunch _ _ _ _ hl hinv
    exact hothers hprograms hrely hwp
  | performed hi ha =>
    obtain ⟨s₀, hs₀, hwp⟩ := hprograms _ _ hi
    obtain ⟨-, hguard, hnext⟩ := hwp _ hs₀
    exact hothers hprograms (fun j hj => m.kept _ _ _ _ _ _ hj hinv hguard ha) (hnext _ _ ha)

/-- **Safety of many programs**: if each of them is safe by itself, the invariant holds all the time,
and every operation is asked for under its guard. -/
theorem safe_reach {s : S} (hs : m.inv s)
    (hlaunch : ∀ s i p s', launch s i p s' → m.inv s → (∀ j, j ≠ i → m.rely j s s') ∧
      wp (m.setting i) p (fun _ => m.inv) (fun _ _ => True) s')
    (h : Reach m.act launch ⟨s, fun _ => none⟩ c) :
    m.inv c.state ∧ ∀ i o k, c.programs i = some (.call o k) → m.guard i o c.state := by
  have hsafe : c.Safe m := by
    induction h with
    | refl => exact ⟨hs, fun i p hp => by cases hp⟩
    | tail _ hstep ih => exact ih.step hlaunch hstep
  refine ⟨hsafe.1, fun i o k hp => ?_⟩
  obtain ⟨s₀, hs₀, hwp⟩ := hsafe.2 i _ hp
  exact (hwp _ hs₀).2.1

/-- A run, said by who moves and what the operation meets. -/
def drive (exec : ℕ → χ → S → (o : Op) → Option (Reply o × S)) :
    List (ℕ × χ) → Pool S Op Reply α → Option (Pool S Op Reply α)
  | [], c => some c
  | (i, x) :: moves, c =>
    match c.programs i with
    | some (.call o k) =>
      match exec i x c.state o with
      | some (r, s') => drive exec moves ⟨s', Function.update c.programs i (some (k r))⟩
      | none => none
    | _ => none

lemma drive_sound {exec : ℕ → χ → S → (o : Op) → Option (Reply o × S)} {moves : List (ℕ × χ)}
    (h : drive exec moves c = some c') :
    Reach (fun i o s r s' => ∃ x, exec i x s o = some (r, s')) launch c c' := by
  fun_induction drive exec moves c with
  | case1 c =>
    cases h
    exact .refl
  | case2 i x moves c o k hp r s' hexec ih => exact (ih h).head (.performed hp ⟨x, hexec⟩)
  | case3 => cases h
  | case4 => cases h

end Pool

end SbEasy.Prog

import Mathlib.Tactic

/-!
Programs that are cut off anywhere.

A program asks for one operation after the other. Between two of them others act, within what they
are relied on to leave alone, and the program may be killed. A triple says that whoever starts in a
state with `P` asks for every operation in a state that meets its guard, keeps the invariant all the
time, and ends with `Q`, or with `E` if it throws.
-/

namespace SbEasy

inductive Prog (Op : Type) (Reply : Op → Type) (ε α : Type) : Type
  | pure (a : α)
  | throw (e : ε)
  | call (o : Op) (k : Reply o → Prog Op Reply ε α)

namespace Prog

variable {Op : Type} {Reply : Op → Type} {ε δ α β : Type}

protected def bind : Prog Op Reply ε α → (α → Prog Op Reply ε β) → Prog Op Reply ε β
  | .pure a, f => f a
  | .throw e, _ => .throw e
  | .call o k, f => .call o fun r => (k r).bind f

instance : Monad (Prog Op Reply ε) where
  pure := .pure
  bind := Prog.bind

/-- Go on from an error with another program. -/
def handle : Prog Op Reply ε α → (ε → Prog Op Reply δ α) → Prog Op Reply δ α
  | .pure a, _ => .pure a
  | .throw e, f => f e
  | .call o k, f => .call o fun r => (k r).handle f

/-- Go on with what has come out, an error or not. -/
def result : Prog Op Reply ε α → Prog Op Reply δ (Except ε α)
  | .pure a => .pure (.ok a)
  | .throw e => .pure (.error e)
  | .call o k => .call o fun r => (k r).result

def ofExcept : Except ε α → Prog Op Reply ε α
  | .ok a => .pure a
  | .error e => .throw e

def perform (o : Op) : Prog Op Reply ε (Reply o) := .call o .pure

/-- What an operation that may meet a fault answers. -/
def answer : Option ε → α → Except ε α
  | some e, _ => .error e
  | none, a => .ok a

/-- The operations, what others leave alone, and what is to be kept. -/
structure Setting (S : Type) (Op : Type) (Reply : Op → Type) where
  /-- What an operation may answer, and in which state. -/
  act : (o : Op) → S → Reply o → S → Prop
  /-- What others may do between two operations. -/
  rely : S → S → Prop
  inv : S → Prop
  /-- What has to hold when an operation is asked for. -/
  guard : Op → S → Prop
  rely_refl : ∀ s, rely s s
  rely_trans : ∀ s s' s'', rely s s' → rely s' s'' → rely s s''
  inv_rely : ∀ s s', inv s → rely s s' → inv s'

variable {S : Type} (m : Setting S Op Reply)

/-- What has to hold for a program to be safe. -/
def wp : Prog Op Reply ε α → (α → S → Prop) → (ε → S → Prop) → S → Prop
  | .pure a, Q, _, s => Q a s
  | .throw e, _, E, s => E e s
  | .call o k, Q, E, s => ∀ s', m.rely s s' → m.inv s' ∧ m.guard o s' ∧
      ∀ r s'', m.act o s' r s'' → wp (k r) Q E s''

def Triple (P : S → Prop) (p : Prog Op Reply ε α) (Q : α → S → Prop) (E : ε → S → Prop) : Prop :=
  ∀ s, P s → wp m p Q E s

/-- Others do not make it false. -/
def Setting.Stable (P : S → Prop) : Prop := ∀ s s', P s → m.rely s s' → P s'

section

variable {m} {P P' : S → Prop} {p : Prog Op Reply ε α} {f : α → Prog Op Reply ε β}
  {Q Q' : α → S → Prop} {R : β → S → Prop} {E E' : ε → S → Prop}

lemma wp_mono {s : S} (h : wp m p Q E s) (hQ : ∀ a s, Q a s → Q' a s) (hE : ∀ e s, E e s → E' e s) :
    wp m p Q' E' s := by
  induction p generalizing s with
  | pure a => exact hQ a s h
  | throw e => exact hE e s h
  | call o k ih =>
    intro s' hs'
    obtain ⟨hinv, hguard, hk⟩ := h s' hs'
    exact ⟨hinv, hguard, fun r s'' ha => ih r (hk r s'' ha)⟩

lemma wp_bind {s : S} (h : wp m p (fun a s => wp m (f a) R E s) E s) : wp m (p >>= f) R E s := by
  induction p generalizing s with
  | pure a => exact h
  | throw e => exact h
  | call o k ih =>
    intro s' hs'
    obtain ⟨hinv, hguard, hk⟩ := h s' hs'
    exact ⟨hinv, hguard, fun r s'' ha => ih r (hk r s'' ha)⟩

variable {D : δ → S → Prop}

lemma wp_handle {g : ε → Prog Op Reply δ α} {s : S}
    (h : wp m p Q (fun e s => wp m (g e) Q D s) s) : wp m (p.handle g) Q D s := by
  induction p generalizing s with
  | pure a => exact h
  | throw e => exact h
  | call o k ih =>
    intro s' hs'
    obtain ⟨hinv, hguard, hk⟩ := h s' hs'
    exact ⟨hinv, hguard, fun r s'' ha => ih r (hk r s'' ha)⟩

lemma wp_result {R : Except ε α → S → Prop} {s : S}
    (h : wp m p (fun a s => R (.ok a) s) (fun e s => R (.error e) s) s) :
    wp m (p.result : Prog Op Reply δ (Except ε α)) R D s := by
  induction p generalizing s with
  | pure a => exact h
  | throw e => exact h
  | call o k ih =>
    intro s' hs'
    obtain ⟨hinv, hguard, hk⟩ := h s' hs'
    exact ⟨hinv, hguard, fun r s'' ha => ih r (hk r s'' ha)⟩

lemma triple_pure (a : α) (h : ∀ s, P s → Q a s) : Triple m P (pure a : Prog Op Reply ε α) Q E := h

lemma triple_throw (e : ε) (h : ∀ s, P s → E e s) : Triple m P (.throw e : Prog Op Reply ε α) Q E := h

lemma Triple.bind (hp : Triple m P p Q E) (hf : ∀ a, Triple m (Q a) (f a) R E) :
    Triple m P (p >>= f) R E :=
  fun s hs => wp_bind (wp_mono (hp s hs) hf fun _ _ => id)

lemma Triple.handle {g : ε → Prog Op Reply δ α} (hp : Triple m P p Q E)
    (hg : ∀ e, Triple m (E e) (g e) Q D) : Triple m P (p.handle g) Q D :=
  fun s hs => wp_handle (wp_mono (hp s hs) (fun _ _ => id) hg)

lemma Triple.result {R : Except ε α → S → Prop}
    (hp : Triple m P p (fun a s => R (.ok a) s) fun e s => R (.error e) s) :
    Triple m P (p.result : Prog Op Reply δ (Except ε α)) R D :=
  fun s hs => wp_result (hp s hs)

lemma Triple.mono (hp : Triple m P p Q E) (hP : ∀ s, P' s → P s) (hQ : ∀ a s, Q a s → Q' a s)
    (hE : ∀ e s, E e s → E' e s) : Triple m P' p Q' E' :=
  fun s hs => wp_mono (hp s (hP s hs)) hQ hE

lemma Triple.pre (hp : Triple m P p Q E) (h : ∀ s, P' s → P s) : Triple m P' p Q E :=
  fun s hs => hp s (h s hs)

lemma Triple.post (hp : Triple m P p Q E) (h : ∀ a s, Q a s → Q' a s) : Triple m P p Q' E :=
  hp.mono (fun _ => id) h fun _ _ => id

lemma Triple.fail (hp : Triple m P p Q E) (h : ∀ e s, E e s → E' e s) : Triple m P p Q E' :=
  hp.mono (fun _ => id) (fun _ _ => id) h

lemma triple_perform {o : Op} {Q : Reply o → S → Prop} (hstable : m.Stable P)
    (hasked : ∀ s, P s → m.inv s ∧ m.guard o s) (hact : ∀ s r s', P s → m.act o s r s' → Q r s') :
    Triple m P (perform o : Prog Op Reply ε (Reply o)) Q E := by
  intro s hs s' hs'
  have hP := hstable s s' hs hs'
  exact ⟨(hasked s' hP).1, (hasked s' hP).2, fun r s'' ha => hact s' r s'' hP ha⟩

lemma Triple.ite {c : Prop} [Decidable c] {q : Prog Op Reply ε α} (hp : c → Triple m P p Q E)
    (hq : ¬ c → Triple m P q Q E) : Triple m P (if c then p else q) Q E := by
  split_ifs with hc
  · exact hp hc
  · exact hq hc

lemma Triple.assume {c : Prop} (h : c → Triple m P p Q E) : Triple m (fun s => c ∧ P s) p Q E :=
  fun s hs => h hs.1 s hs.2

lemma Triple.exists {ι : Sort*} {P : ι → S → Prop} (h : ∀ i, Triple m (P i) p Q E) :
    Triple m (fun s => ∃ i, P i s) p Q E := by
  rintro s ⟨i, hs⟩
  exact h i s hs

lemma Setting.Stable.and (h : m.Stable P) (h' : m.Stable P') : m.Stable fun s => P s ∧ P' s :=
  fun s s' hs hr => ⟨h s s' hs.1 hr, h' s s' hs.2 hr⟩

end

/-- A state, and the program that is at work. -/
structure Config (S : Type) (Op : Type) (Reply : Op → Type) (α : Type) where
  state : S
  program : Option (Prog Op Reply Empty α)

/-- One thing that happens. Programs are started by a relation of its own, one at a time. -/
inductive Step (launch : S → Prog Op Reply Empty α → S → Prop) :
    Config S Op Reply α → Config S Op Reply α → Prop
  | others {s s' : S} {p : Option (Prog Op Reply Empty α)} (h : m.rely s s') :
    Step launch ⟨s, p⟩ ⟨s', p⟩
  | launched {s s' : S} {p : Prog Op Reply Empty α} (h : launch s p s') :
    Step launch ⟨s, none⟩ ⟨s', some p⟩
  | performed {s s' : S} {o : Op} {k : Reply o → Prog Op Reply Empty α} {r : Reply o}
    (h : m.act o s r s') : Step launch ⟨s, some (.call o k)⟩ ⟨s', some (k r)⟩
  | ended {s : S} {a : α} : Step launch ⟨s, some (.pure a)⟩ ⟨s, none⟩
  | killed {s : S} {p : Prog Op Reply Empty α} : Step launch ⟨s, some p⟩ ⟨s, none⟩

def Reach (launch : S → Prog Op Reply Empty α → S → Prop) :
    Config S Op Reply α → Config S Op Reply α → Prop :=
  Relation.ReflTransGen (Step m launch)

section

variable {m} {launch : S → Prog Op Reply Empty α → S → Prop} {c c' : Config S Op Reply α}

lemma inv_of_wp {p : Prog Op Reply Empty α} {s : S}
    (h : wp m p (fun _ => m.inv) (fun _ _ => True) s) : m.inv s := by
  cases p with
  | pure a => exact h
  | throw e => exact e.elim
  | call o k => exact (h s (m.rely_refl s)).1

/-- The invariant, with a program that is safe from here on. -/
def Config.Safe (m : Setting S Op Reply) (c : Config S Op Reply α) : Prop :=
  m.inv c.state ∧ ∀ p, c.program = some p →
    ∃ s, m.rely s c.state ∧ wp m p (fun _ => m.inv) (fun _ _ => True) s

lemma Config.Safe.step (hsafe : c.Safe m) (hlaunch : ∀ s p s', launch s p s' → m.inv s →
    wp m p (fun _ => m.inv) (fun _ _ => True) s') (h : Step m launch c c') : c'.Safe m := by
  obtain ⟨hinv, hprogram⟩ := hsafe
  cases h with
  | others hrely =>
    refine ⟨m.inv_rely _ _ hinv hrely, fun p hp => ?_⟩
    obtain ⟨s, hs, hwp⟩ := hprogram p hp
    exact ⟨s, m.rely_trans _ _ _ hs hrely, hwp⟩
  | launched hl =>
    have hwp := hlaunch _ _ _ hl hinv
    refine ⟨inv_of_wp hwp, fun p hp => ?_⟩
    cases hp
    exact ⟨_, m.rely_refl _, hwp⟩
  | performed ha =>
    obtain ⟨s, hs, hwp⟩ := hprogram _ rfl
    have hnext := (hwp _ hs).2.2 _ _ ha
    refine ⟨inv_of_wp hnext, fun p hp => ?_⟩
    cases hp
    exact ⟨_, m.rely_refl _, hnext⟩
  | ended => exact ⟨hinv, fun p hp => by cases hp⟩
  | killed => exact ⟨hinv, fun p hp => by cases hp⟩

/-- **Safety of runs**: if whatever is launched is safe, the invariant holds all the time, and every
operation is asked for under its guard. -/
theorem safe_reach {s : S} (hs : m.inv s) (hlaunch : ∀ s p s', launch s p s' → m.inv s →
    wp m p (fun _ => m.inv) (fun _ _ => True) s') (h : Reach m launch ⟨s, none⟩ c) :
    m.inv c.state ∧ ∀ o k, c.program = some (.call o k) → m.guard o c.state := by
  have hsafe : c.Safe m := by
    induction h with
    | refl => exact ⟨hs, fun p hp => by cases hp⟩
    | tail _ hstep ih => exact ih.step hlaunch hstep
  refine ⟨hsafe.1, fun o k hp => ?_⟩
  obtain ⟨s₀, hs₀, hwp⟩ := hsafe.2 _ hp
  exact (hwp _ hs₀).2.1

end

end Prog

end SbEasy

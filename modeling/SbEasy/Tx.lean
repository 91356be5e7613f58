import Mathlib.Tactic

/-!
Computations that may fail over a state they may already have changed, and transactions.

`Ok m s a s'` says that `m` succeeds in the state `s`. A transaction puts back, on failure,
the part of the state it is about.
-/

namespace SbEasy

abbrev Tx (σ ε : Type) := ExceptT ε (StateM σ)

namespace Tx

variable {σ ε α β δ : Type}

def exec (m : Tx σ ε α) (s : σ) : Except ε α × σ := StateT.run (ExceptT.run m) s

/-- Go on if the condition holds, fail otherwise. -/
def require (c : Bool) (e : ε) : Tx σ ε Unit := if c then pure () else throw e

/-- Run a computation; if it fails, put back the part of the state that `put` writes. -/
def transaction (part : σ → δ) (put : δ → σ → σ) (m : Tx σ ε α) : Tx σ ε α := fun s =>
  match exec m s with
  | (.ok a, s') => (.ok a, s')
  | (.error e, s') => (.error e, put (part s) s')

/-- A result that does not depend on the state. -/
def ofExcept : Except ε α → Tx σ ε α
  | .ok a => pure a
  | .error e => throw e

@[simp] lemma exec_pure (a : α) (s : σ) : exec (pure a : Tx σ ε α) s = (.ok a, s) := rfl
@[simp] lemma exec_throw (e : ε) (s : σ) : exec (throw e : Tx σ ε α) s = (.error e, s) := rfl
@[simp] lemma exec_get (s : σ) : exec (get : Tx σ ε σ) s = (.ok s, s) := rfl
@[simp] lemma exec_modify (f : σ → σ) (s : σ) :
    exec (modify f : Tx σ ε Unit) s = (.ok (), f s) := rfl

lemma exec_bind (m : Tx σ ε α) (f : α → Tx σ ε β) (s : σ) :
    exec (m >>= f) s =
      match exec m s with
      | (.ok a, s') => exec (f a) s'
      | (.error e, s') => (.error e, s') := by
  rcases h : StateT.run (ExceptT.run m) s with ⟨r, s'⟩
  simp only [exec, ExceptT.run_bind, StateT.run_bind, h]
  cases r <;> rfl

def Ok (m : Tx σ ε α) (s : σ) (a : α) (s' : σ) : Prop := exec m s = (.ok a, s')

variable {s s' : σ} {put : δ → σ → σ}

@[simp] lemma ok_bind {m : Tx σ ε α} {f : α → Tx σ ε β} {s'' : σ} {b : β} :
    Ok (m >>= f) s b s'' ↔ ∃ a s', Ok m s a s' ∧ Ok (f a) s' b s'' := by
  unfold Ok
  rw [exec_bind]
  rcases h : exec m s with ⟨_ | a, s'⟩
  · simp
  · simp

@[simp] lemma ok_pure {a b : α} : Ok (pure a : Tx σ ε α) s b s' ↔ b = a ∧ s' = s := by
  simp [Ok, eq_comm]

@[simp] lemma ok_throw {e : ε} {a : α} : ¬ Ok (throw e : Tx σ ε α) s a s' := by
  simp [Ok]

lemma ok_map {m : Tx σ ε α} {f : α → β} {b : β} :
    Ok (m >>= fun a => pure (f a)) s b s' ↔ ∃ a, Ok m s a s' ∧ b = f a := by
  simp only [ok_bind, ok_pure]
  constructor
  · rintro ⟨a, _, h, rfl, rfl⟩
    exact ⟨a, h, rfl⟩
  · rintro ⟨a, h, rfl⟩
    exact ⟨a, _, h, rfl, rfl⟩

@[simp] lemma ok_get {a : σ} : Ok (get : Tx σ ε σ) s a s' ↔ a = s ∧ s' = s := by
  simp [Ok, eq_comm]

@[simp] lemma ok_modify {f : σ → σ} {u : Unit} : Ok (modify f : Tx σ ε Unit) s u s' ↔ s' = f s := by
  simp [Ok, eq_comm]

@[simp] lemma ok_require {c : Bool} {e : ε} {u : Unit} :
    Ok (require c e : Tx σ ε Unit) s u s' ↔ c = true ∧ s' = s := by
  unfold require
  cases c <;> simp [Ok, eq_comm]

lemma ok_guard {c : Bool} {e : ε} {m : Tx σ ε α} {a : α} :
    Ok (require c e >>= fun _ => m) s a s' ↔ c = true ∧ Ok m s a s' := by
  simp only [ok_bind, ok_require]
  constructor
  · rintro ⟨_, _, ⟨hc, rfl⟩, h⟩
    exact ⟨hc, h⟩
  · rintro ⟨hc, h⟩
    exact ⟨(), s, ⟨hc, rfl⟩, h⟩

@[simp] lemma ok_ofExcept {x : Except ε α} {a : α} :
    Ok (ofExcept x : Tx σ ε α) s a s' ↔ x = .ok a ∧ s' = s := by
  cases x with
  | error e => simp [ofExcept]
  | ok b => simp [ofExcept, eq_comm]

lemma exec_transaction {part : σ → δ} (m : Tx σ ε α) (s : σ) : exec (transaction part put m) s =
    match exec m s with
    | (.ok a, s') => (.ok a, s')
    | (.error e, s') => (.error e, put (part s) s') := rfl

@[simp] lemma ok_transaction {part : σ → δ} {m : Tx σ ε α} {a : α} :
    Ok (transaction part put m) s a s' ↔ Ok m s a s' := by
  rw [Ok, Ok, exec_transaction]
  rcases h : exec m s with ⟨_ | b, s''⟩ <;> simp

lemma exec_transaction_error {part : σ → δ} {m : Tx σ ε α} {e : ε} (h : exec m s = (.error e, s')) :
    exec (transaction part put m) s = (.error e, put (part s) s') := by
  rw [exec_transaction, h]

lemma part_of_error {part : σ → δ} (hput : ∀ d s, part (put d s) = d)
    {m : Tx σ ε α} {e : ε} (h : exec (transaction part put m) s = (.error e, s')) :
    part s' = part s := by
  rw [exec_transaction] at h
  rcases hm : exec m s with ⟨_ | b, s''⟩
  · rw [hm] at h
    cases h
    exact hput _ _
  · rw [hm] at h
    cases h

/-- A computation that leaves a part of the state alone. -/
def Quiet (part : σ → δ) (m : Tx σ ε α) : Prop := ∀ s, part (exec m s).2 = part s

/-- A computation that leaves a part of the state alone when it fails. -/
def Safe (part : σ → δ) (m : Tx σ ε α) : Prop :=
  ∀ s e s', exec m s = (.error e, s') → part s' = part s

variable {part : σ → δ} {m : Tx σ ε α} {f : α → Tx σ ε β}

lemma quiet_pure {a : α} : Quiet part (pure a : Tx σ ε α) := fun _ => rfl
lemma quiet_throw {e : ε} : Quiet part (throw e : Tx σ ε α) := fun _ => rfl
lemma quiet_get : Quiet part (get : Tx σ ε σ) := fun _ => rfl

lemma quiet_modify {g : σ → σ} (h : ∀ s, part (g s) = part s) :
    Quiet part (modify g : Tx σ ε Unit) := fun s => h s

lemma quiet_require {c : Bool} {e : ε} : Quiet part (require c e : Tx σ ε Unit) := by
  intro s
  unfold require
  cases c <;> rfl

lemma quiet_ofExcept {x : Except ε α} : Quiet part (ofExcept x : Tx σ ε α) := by
  intro s
  cases x <;> rfl

lemma Quiet.bind (hm : Quiet part m) (hf : ∀ a, Quiet part (f a)) : Quiet part (m >>= f) := by
  intro s
  rw [exec_bind]
  have h1 := hm s
  rcases h : exec m s with ⟨_ | a, s'⟩
  · rw [h] at h1; exact h1
  · rw [h] at h1; exact (hf a s').trans h1

lemma Quiet.safe (hm : Quiet part m) : Safe part m := by
  intro s e s' h
  have := hm s
  rw [h] at this; exact this

lemma Quiet.of_ok (hm : Quiet part m) {a : α} (h : Ok m s a s') : part s' = part s := by
  have := hm s
  rw [h] at this; exact this

lemma safe_modify {g : σ → σ} : Safe part (modify g : Tx σ ε Unit) := by
  intro s e s' h
  simp at h

lemma safe_modify_pure {g : σ → σ} {a : α} :
    Safe part (modify g >>= fun _ => pure a : Tx σ ε α) := by
  intro s e s' h
  rw [exec_bind, exec_modify] at h
  cases h

lemma Quiet.bind_safe (hm : Quiet part m) (hf : ∀ a, Safe part (f a)) : Safe part (m >>= f) := by
  intro s e s'' h
  rw [exec_bind] at h
  have h1 := hm s
  rcases hx : exec m s with ⟨_ | a, s'⟩
  · rw [hx] at h h1; cases h; exact h1
  · rw [hx] at h h1; exact (hf a s' e s'' h).trans h1

lemma Safe.bind_pure {g : α → β} (hm : Safe part m) :
    Safe part (m >>= fun a => pure (g a) : Tx σ ε β) := by
  intro s e s'' h
  rw [exec_bind] at h
  rcases hx : exec m s with ⟨e' | a, s'⟩
  · rw [hx] at h
    cases h
    exact hm s _ _ hx
  · rw [hx] at h
    cases h

lemma safe_transaction (hput : ∀ d s, part (put d s) = d) :
    Safe part (transaction part put m) := fun _ _ _ h => part_of_error hput h

/-- From a state with `I`, the computation ends in one with `I` whatever happens, and what it
returns satisfies `Q`. -/
def Holds (I : σ → Prop) (m : Tx σ ε α) (Q : α → Prop) : Prop :=
  ∀ s, I s → I (exec m s).2 ∧ ∀ a, (exec m s).1 = .ok a → Q a

section

variable {I : σ → Prop} {Q : α → Prop} {R : β → Prop}

lemma holds_pure {a : α} (h : Q a) : Holds I (pure a : Tx σ ε α) Q := by
  intro s hs
  refine ⟨hs, fun b hb => ?_⟩
  cases hb
  exact h

lemma holds_throw (e : ε) : Holds I (throw e : Tx σ ε α) Q := by
  intro s hs
  exact ⟨hs, fun b hb => by cases hb⟩

lemma holds_get : Holds I (get : Tx σ ε σ) I := by
  intro s hs
  refine ⟨hs, fun b hb => ?_⟩
  cases hb
  exact hs

lemma holds_modify {g : σ → σ} (h : ∀ s, I s → I (g s)) :
    Holds I (modify g : Tx σ ε Unit) fun _ => True :=
  fun s hs => ⟨h s hs, fun _ _ => trivial⟩

lemma holds_require (c : Bool) (e : ε) : Holds I (require c e : Tx σ ε Unit) fun _ => c = true := by
  unfold require
  cases c with
  | true => exact holds_pure rfl
  | false => exact holds_throw e

lemma holds_bind (hm : Holds I m Q) (hf : ∀ a, Q a → Holds I (f a) R) : Holds I (m >>= f) R := by
  intro s hs
  rw [exec_bind]
  obtain ⟨h1, h2⟩ := hm s hs
  rcases h : exec m s with ⟨_ | a, s'⟩
  · rw [h] at h1
    exact ⟨h1, fun b hb => by cases hb⟩
  · rw [h] at h1 h2
    exact hf a (h2 a rfl) s' h1

lemma Holds.mono {Q' : α → Prop} (hm : Holds I m Q) (h : ∀ a, Q a → Q' a) : Holds I m Q' :=
  fun s hs => ⟨(hm s hs).1, fun a ha => h a ((hm s hs).2 a ha)⟩

lemma holds_transaction {put : δ → σ → σ} (hm : Holds I m Q)
    (hput : ∀ s s', I s → I s' → I (put (part s) s')) : Holds I (transaction part put m) Q := by
  intro s hs
  rw [exec_transaction]
  obtain ⟨h1, h2⟩ := hm s hs
  rcases h : exec m s with ⟨_ | a, s'⟩
  · rw [h] at h1
    exact ⟨hput s s' hs h1, fun b hb => by cases hb⟩
  · rw [h] at h1 h2
    exact ⟨h1, h2⟩

lemma Holds.of_ok (hm : Holds I m Q) {s s' : σ} {a : α} (hs : I s) (h : Ok m s a s') : I s' ∧ Q a := by
  have := hm s hs
  rw [h] at this
  exact ⟨this.1, this.2 a rfl⟩

end

/-- From a state with `I`, the computation does not fail with `e`. -/
def Avoids (e : ε) (I : σ → Prop) (m : Tx σ ε α) : Prop := ∀ s, I s → (exec m s).1 ≠ .error e

section

variable {e e' : ε} {I : σ → Prop}

lemma avoids_pure {a : α} : Avoids e I (pure a : Tx σ ε α) := fun _ _ h => by cases h

lemma avoids_get : Avoids e I (get : Tx σ ε σ) := fun _ _ h => by cases h

lemma avoids_modify {g : σ → σ} : Avoids e I (modify g : Tx σ ε Unit) := fun _ _ h => by cases h

lemma avoids_throw (h : e' ≠ e) : Avoids e I (throw e' : Tx σ ε α) :=
  fun _ _ he => h (Except.error.inj he)

lemma avoids_require {c : Bool} (h : e' ≠ e) : Avoids e I (require c e' : Tx σ ε Unit) := by
  unfold require
  cases c with
  | true => exact avoids_pure
  | false => exact avoids_throw h

lemma avoids_require_of {c : Bool} (h : ∀ s, I s → c = true) :
    Avoids e I (require c e' : Tx σ ε Unit) := by
  intro s hs
  rw [require, if_pos (h s hs)]
  exact avoids_pure s hs

lemma avoids_bind {J : α → σ → Prop} (hm : Avoids e I m) (hJ : ∀ s a s', I s → Ok m s a s' → J a s')
    (hf : ∀ a, Avoids e (J a) (f a)) : Avoids e I (m >>= f) := by
  intro s hs
  have h1 := hm s hs
  rw [exec_bind]
  rcases h : exec m s with ⟨e₁ | a, s'⟩
  · rw [h] at h1
    exact fun he => h1 (congrArg Except.error (Except.error.inj he))
  · exact hf a s' (hJ s a s' hs h)

lemma Avoids.seq (hm : Avoids e I m) (hf : ∀ a, Avoids e (fun _ => True) (f a)) :
    Avoids e I (m >>= f) :=
  avoids_bind hm (fun _ _ _ _ _ => trivial) hf

lemma Avoids.mono {J : σ → Prop} (hm : Avoids e J m) (h : ∀ s, I s → J s) : Avoids e I m :=
  fun s hs => hm s (h s hs)

lemma avoids_transaction {put : δ → σ → σ} (hm : Avoids e I m) :
    Avoids e I (transaction part put m) := by
  intro s hs
  rw [exec_transaction]
  have h1 := hm s hs
  rcases h : exec m s with ⟨e₁ | a, s'⟩
  · rw [h] at h1
    exact fun he => h1 he
  · exact fun he => by cases he

end

def Total (m : Tx σ ε α) : Prop := ∀ s, ∃ a s', Ok m s a s'

lemma total_pure {a : α} : Total (pure a : Tx σ ε α) := fun s => ⟨a, s, rfl⟩

lemma total_modify {g : σ → σ} : Total (modify g : Tx σ ε Unit) := fun s => ⟨(), g s, rfl⟩

lemma Total.bind (hm : Total m) (hf : ∀ a, Total (f a)) : Total (m >>= f) := by
  intro s
  obtain ⟨a, s', h⟩ := hm s
  obtain ⟨b, s'', h'⟩ := hf a s'
  exact ⟨b, s'', ok_bind.mpr ⟨a, s', h, h'⟩⟩

end Tx
end SbEasy

import SbEasy.Tx

/-!
A database and the clock. A call reads the clock when it needs it, and the clock goes on in the
meantime; a transaction that fails puts the database back, but not the clock.
-/

namespace SbEasy

structure Clocked (σ : Type) where
  db : σ
  now : ℤ

namespace Clocked

variable {σ ε α : Type}

/-- The time a little later. -/
def clock (delay : ℕ) : Tx (Clocked σ) ε ℤ := do
  modify fun w => { w with now := w.now + delay }
  let w ← get
  pure w.now

def query (f : σ → α) : Tx (Clocked σ) ε α := do
  let w ← get
  pure (f w.db)

def update (f : σ → σ) : Tx (Clocked σ) ε Unit := modify fun w => { w with db := f w.db }

def transaction (m : Tx (Clocked σ) ε α) : Tx (Clocked σ) ε α :=
  Tx.transaction Clocked.db (fun db w => { w with db := db }) m

variable {w w' : Clocked σ} {a : α}

lemma exec_clock (delay : ℕ) :
    Tx.exec (clock delay : Tx (Clocked σ) ε ℤ) w = (.ok (w.now + delay), ⟨w.db, w.now + delay⟩) := rfl

lemma exec_query (f : σ → α) : Tx.exec (query f : Tx (Clocked σ) ε α) w = (.ok (f w.db), w) := rfl

@[simp] lemma ok_clock {delay : ℕ} {t : ℤ} :
    Tx.Ok (clock delay : Tx (Clocked σ) ε ℤ) w t w' ↔ t = w.now + delay ∧ w' = ⟨w.db, t⟩ := by
  simp only [clock, Tx.ok_bind, Tx.ok_modify, Tx.ok_get, Tx.ok_pure]
  constructor
  · rintro ⟨-, _, rfl, _, _, ⟨rfl, rfl⟩, rfl, rfl⟩
    exact ⟨rfl, rfl⟩
  · rintro ⟨rfl, rfl⟩
    exact ⟨(), _, rfl, _, _, ⟨rfl, rfl⟩, rfl, rfl⟩

@[simp] lemma ok_query {f : σ → α} :
    Tx.Ok (query f : Tx (Clocked σ) ε α) w a w' ↔ a = f w.db ∧ w' = w := by
  simp only [query, Tx.ok_bind, Tx.ok_get, Tx.ok_pure]
  constructor
  · rintro ⟨_, _, ⟨rfl, rfl⟩, rfl, rfl⟩
    exact ⟨rfl, rfl⟩
  · rintro ⟨rfl, rfl⟩
    exact ⟨_, _, ⟨rfl, rfl⟩, rfl, rfl⟩

@[simp] lemma ok_update {f : σ → σ} {u : Unit} :
    Tx.Ok (update f : Tx (Clocked σ) ε Unit) w u w' ↔ w' = ⟨f w.db, w.now⟩ := by
  simp [update]

@[simp] lemma ok_clockedTransaction {m : Tx (Clocked σ) ε α} :
    Tx.Ok (transaction m) w a w' ↔ Tx.Ok m w a w' := by
  simp [transaction]

lemma exec_transaction_error {m : Tx (Clocked σ) ε α} {e : ε} (h : Tx.exec m w = (.error e, w')) :
    Tx.exec (transaction m) w = (.error e, ⟨w.db, w'.now⟩) :=
  Tx.exec_transaction_error h

lemma quiet_clock {delay : ℕ} : Tx.Quiet Clocked.db (clock delay : Tx (Clocked σ) ε ℤ) :=
  Tx.Quiet.bind (Tx.quiet_modify fun _ => rfl) fun _ => Tx.quiet_get.bind fun _ => Tx.quiet_pure

lemma quiet_query {f : σ → α} : Tx.Quiet Clocked.db (query f : Tx (Clocked σ) ε α) :=
  Tx.quiet_get.bind fun _ => Tx.quiet_pure

lemma safe_clockedTransaction {m : Tx (Clocked σ) ε α} : Tx.Safe Clocked.db (transaction m) :=
  Tx.safe_transaction fun _ _ => rfl

lemma total_clock {delay : ℕ} : Tx.Total (clock delay : Tx (Clocked σ) ε ℤ) :=
  fun _ => ⟨_, _, ok_clock.mpr ⟨rfl, rfl⟩⟩

lemma total_query {f : σ → α} : Tx.Total (query f : Tx (Clocked σ) ε α) :=
  fun _ => ⟨_, _, ok_query.mpr ⟨rfl, rfl⟩⟩

/-- A computation that does not turn the clock back, whether it succeeds or fails. -/
def Forward (m : Tx (Clocked σ) ε α) : Prop := ∀ t, Tx.Holds (fun w => t ≤ w.now) m fun _ => True

section

variable {β : Type} {m : Tx (Clocked σ) ε α} {f : α → Tx (Clocked σ) ε β}

lemma forward_pure {a : α} : Forward (pure a : Tx (Clocked σ) ε α) := fun _ => Tx.holds_pure trivial

lemma forward_throw {e : ε} : Forward (throw e : Tx (Clocked σ) ε α) := fun _ => Tx.holds_throw _

lemma forward_require {c : Bool} {e : ε} : Forward (Tx.require c e : Tx (Clocked σ) ε Unit) :=
  fun _ => (Tx.holds_require _ _).mono fun _ _ => trivial

lemma forward_ofExcept {x : Except ε α} : Forward (Tx.ofExcept x : Tx (Clocked σ) ε α) := by
  cases x with
  | error e => exact forward_throw
  | ok a => exact forward_pure

lemma forward_update {g : σ → σ} : Forward (update g : Tx (Clocked σ) ε Unit) :=
  fun _ => Tx.holds_modify fun _ h => h

lemma Forward.bind (hm : Forward m) (hf : ∀ a, Forward (f a)) : Forward (m >>= f) :=
  fun t => Tx.holds_bind (hm t) fun a _ => hf a t

lemma forward_query {g : σ → α} : Forward (query g : Tx (Clocked σ) ε α) :=
  fun _ => Tx.holds_bind (Tx.holds_get.mono fun _ _ => trivial) fun _ _ => Tx.holds_pure trivial

lemma forward_clock {delay : ℕ} : Forward (clock delay : Tx (Clocked σ) ε ℤ) := by
  intro t
  refine Tx.holds_bind (Tx.holds_modify fun w hw => ?_) fun _ _ =>
    Tx.holds_bind (Tx.holds_get.mono fun _ _ => trivial) fun _ _ => Tx.holds_pure trivial
  exact hw.trans (le_add_of_nonneg_right (Int.natCast_nonneg _))

lemma forward_transaction (hm : Forward m) : Forward (transaction m) :=
  fun t => Tx.holds_transaction (hm t) fun _ _ _ h => h

lemma Forward.le (hm : Forward m) (w : Clocked σ) : w.now ≤ (Tx.exec m w).2.now := (hm w.now w le_rfl).1

end

end Clocked
end SbEasy

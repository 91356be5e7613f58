import Mathlib.Tactic

/-!
Runs of a machine that answers every event, and rules for what holds along all of them.
-/

namespace SbEasy.Trace

variable {σ E R : Type*}

/-- The state after some events. -/
def run (m : E → σ → R × σ) (s : σ) (es : List E) : σ := es.foldl (fun s e => (m e s).2) s

/-- The events with their answers. -/
def trace (m : E → σ → R × σ) : σ → List E → List (E × R)
  | _, [] => []
  | s, e :: es => (e, (m e s).1) :: trace m (m e s).2 es

variable {m : E → σ → R × σ} {s : σ} {e : E} {es : List E}

@[simp] lemma run_nil : run m s [] = s := rfl
@[simp] lemma run_cons : run m s (e :: es) = run m (m e s).2 es := rfl
@[simp] lemma trace_nil : trace m s [] = [] := rfl
@[simp] lemma trace_cons : trace m s (e :: es) = (e, (m e s).1) :: trace m (m e s).2 es := rfl

lemma run_append (es' : List E) : run m s (es ++ es') = run m (run m s es) es' := List.foldl_append

lemma trace_append (es' : List E) :
    trace m s (es ++ es') = trace m s es ++ trace m (run m s es) es' := by
  induction es generalizing s with
  | nil => rfl
  | cons e es ih => rw [List.cons_append, trace_cons, trace_cons, ih, List.cons_append, run_cons]

@[simp] lemma map_fst_trace : (trace m s es).map Prod.fst = es := by
  induction es generalizing s with
  | nil => rfl
  | cons e es ih => rw [trace_cons, List.map_cons, ih]

lemma split_of_mem_trace {x : E × R} (h : x ∈ trace m s es) :
    ∃ es₁ e es₂, es = es₁ ++ e :: es₂ ∧ x = (e, (m e (run m s es₁)).1) := by
  induction es generalizing s with
  | nil => cases h
  | cons e es ih =>
    rw [trace_cons] at h
    rcases List.mem_cons.mp h with rfl | h
    · exact ⟨[], e, es, rfl, rfl⟩
    · obtain ⟨es₁, e', es₂, rfl, rfl⟩ := ih h
      exact ⟨e :: es₁, e', es₂, rfl, rfl⟩

/-- What holds at first, with nothing behind it, and is kept by every event, holds after every run
of the answers so far. -/
theorem trace_invariant {I : List (E × R) → σ → Prop} (hs : I [] s)
    (hstep : ∀ h e s, I h s → I (h ++ [(e, (m e s).1)]) (m e s).2) :
    I (trace m s es) (run m s es) := by
  induction es using List.reverseRecOn with
  | nil => exact hs
  | append_singleton es e ih =>
    rw [trace_append, run_append]
    exact hstep _ e _ ih

section

variable {L : Type*} {f : E → σ → Option L}

/-- What is noted down about the events. -/
def log (m : E → σ → R × σ) (f : E → σ → Option L) : σ → List E → List L
  | _, [] => []
  | s, e :: es => (f e s).toList ++ log m f (m e s).2 es

@[simp] lemma log_nil : log m f s [] = [] := rfl
end

section

variable {I : σ → Prop} {P : E × R → Prop}

/-- What holds at first and is kept by every event holds after every run. -/
theorem run_invariant (hI : ∀ e s, I s → I (m e s).2) (hs : I s) : I (run m s es) := by
  induction es generalizing s with
  | nil => exact hs
  | cons e es ih => exact ih (hI e s hs)

/-- What an invariant says about an answer holds of all answers. -/
theorem trace_forall (hI : ∀ e s, I s → I (m e s).2) (hP : ∀ e s, I s → P (e, (m e s).1))
    (hs : I s) : ∀ x ∈ trace m s es, P x := by
  induction es generalizing s with
  | nil => exact fun x hx => by cases hx
  | cons e es ih =>
    intro x hx
    rw [trace_cons] at hx
    rcases List.mem_cons.mp hx with rfl | hx
    · exact hP e s hs
    · exact ih (hI e s hs) x hx

variable {A : E × R → σ → Prop}

/-- What an event leaves behind and every event keeps is there at the end. -/
theorem after_of_mem_trace (hI : ∀ e s, I s → I (m e s).2)
    (hafter : ∀ e s, I s → A (e, (m e s).1) (m e s).2)
    (hkeep : ∀ x e s, I s → A x s → A x (m e s).2) (hs : I s) :
    ∀ x ∈ trace m s es, A x (run m s es) := by
  induction es generalizing s with
  | nil => exact fun x hx => by cases hx
  | cons e es ih =>
    intro x hx
    rw [trace_cons] at hx
    rcases List.mem_cons.mp hx with rfl | hx
    · have hboth : ∀ e' t, I t ∧ A (e, (m e s).1) t → I (m e' t).2 ∧ A (e, (m e s).1) (m e' t).2 :=
        fun e' t h => ⟨hI e' t h.1, hkeep _ e' t h.1 h.2⟩
      exact (run_invariant hboth ⟨hI e s hs, hafter e s hs⟩).2
    · exact ih (hI e s hs) x hx

/-- What an event leaves behind bears on every later answer. -/
theorem trace_pairwise {rel : E × R → E × R → Prop} (hI : ∀ e s, I s → I (m e s).2)
    (hafter : ∀ e s, I s → A (e, (m e s).1) (m e s).2)
    (hkeep : ∀ x e s, I s → A x s → A x (m e s).2)
    (hrel : ∀ x e s, I s → A x s → rel x (e, (m e s).1)) (hs : I s) :
    (trace m s es).Pairwise rel := by
  induction es generalizing s with
  | nil => exact .nil
  | cons e es ih =>
    rw [trace_cons, List.pairwise_cons]
    have hboth : ∀ e' t, I t ∧ A (e, (m e s).1) t → I (m e' t).2 ∧ A (e, (m e s).1) (m e' t).2 :=
      fun e' t h => ⟨hI e' t h.1, hkeep _ e' t h.1 h.2⟩
    refine ⟨?_, ih (hI e s hs)⟩
    exact trace_forall hboth (fun e' t h => hrel _ e' t h.1 h.2) ⟨hI e s hs, hafter e s hs⟩

end

end SbEasy.Trace

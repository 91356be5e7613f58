import Mathlib.Tactic

/-!
Values in registers, edited in place.

A value has parts, under keys or at positions; the place of a part is a register and the way down
from it. Two representations of values that agree on every single operation agree on every run.
-/

namespace SbEasy.PlaceStore

/-- One step down into a value. -/
inductive Step (κ : Type*)
  | key (k : κ)
  | item (i : ℕ)
  deriving DecidableEq

structure Place (κ : Type*) where
  root : ℕ
  path : List (Step κ)

/-- Neither place is strictly inside the other. -/
def Place.apart {κ : Type*} [DecidableEq κ] (a b : Place κ) : Bool :=
  a.root != b.root || a.path == b.path ||
    !(a.path.isPrefixOf b.path || b.path.isPrefixOf a.path)

/-- The operations on single values: `σ` are the values without parts, `τ` the texts. -/
structure Api (κ σ τ V : Type*) where
  null : V
  object : V
  scalar : σ → V
  parse : τ → Option V
  clone : V → V
  child : V → Step κ → Option V
  /-- Change a part where it is. -/
  edit : Step κ → (V → V) → V → V
  set : V → κ → V → V
  del : V → κ → V
  update : V → V → V

/-- An operation on the registers. -/
inductive Op (κ σ τ : Type*)
  | object (r : ℕ)
  | scalar (r : ℕ) (s : σ)
  | parse (r : ℕ) (text : τ)
  | clone (r : ℕ) (src : Place κ)
  /-- The value of a register moves into an object. -/
  | set (dst : Place κ) (k : κ) (r : ℕ)
  /-- A part of an object moves into a register. -/
  | take (r : ℕ) (src : Place κ) (k : κ)
  | del (src : Place κ) (k : κ)
  | update (dst src : Place κ)

/-- A register may be empty. -/
abbrev Store (V : Type*) := ℕ → Option V

namespace Api

variable {κ σ τ V W : Type*} (A : Api κ σ τ V)

/-- The part at the end of a path. -/
def at_ (v : V) : List (Step κ) → Option V
  | [] => some v
  | s :: path => (A.child v s).bind (at_ · path)

def find (st : Store V) (p : Place κ) : Option V := (st p.root).bind (A.at_ · p.path)

def editAt (f : V → V) : List (Step κ) → V → V
  | [] => f
  | s :: path => A.edit s (editAt f path)

/-- Change the part at a place. -/
def change (st : Store V) (p : Place κ) (f : V → V) : Store V :=
  Function.update st p.root ((st p.root).map (A.editAt f p.path))

/-- One operation. There is no result for a value that is put into itself, or merged with a part of
itself. -/
def step [DecidableEq κ] (st : Store V) : Op κ σ τ → Option (Store V)
  | .object r => some (Function.update st r (some A.object))
  | .scalar r s => some (Function.update st r (some (A.scalar s)))
  | .parse r text => some (Function.update st r (A.parse text))
  | .clone r src => some (Function.update st r ((A.find st src).map A.clone))
  | .set dst k r =>
    if dst.root = r then none
    else
      let v := (st r).getD A.null
      some (Function.update (A.change st dst fun o => A.set o k v) r none)
  | .take r src k =>
    some (Function.update (A.change st src (A.del · k)) r
      ((A.find st src).bind (A.child · (.key k))))
  | .del src k => some (A.change st src (A.del · k))
  | .update dst src =>
    if dst.apart src then
      match A.find st src with
      | some s => some (A.change st dst (A.update · s))
      | none => some st
    else none

def run [DecidableEq κ] (st : Store V) (ops : List (Op κ σ τ)) : Option (Store V) :=
  ops.foldlM A.step st

/-- The two representations agree on every operation. -/
structure Simulates (A : Api κ σ τ V) (B : Api κ σ τ W) (R : V → W → Prop) : Prop where
  null : R A.null B.null
  object : R A.object B.object
  scalar : ∀ s, R (A.scalar s) (B.scalar s)
  parse : ∀ t, Option.Rel R (A.parse t) (B.parse t)
  clone : ∀ {v w}, R v w → R (A.clone v) (B.clone w)
  child : ∀ {v w}, R v w → ∀ s, Option.Rel R (A.child v s) (B.child w s)
  edit : ∀ {f g}, (∀ {v w}, R v w → R (f v) (g w)) → ∀ s {v w}, R v w →
    R (A.edit s f v) (B.edit s g w)
  set : ∀ {v w v' w'}, R v w → R v' w' → ∀ k, R (A.set v k v') (B.set w k w')
  del : ∀ {v w}, R v w → ∀ k, R (A.del v k) (B.del w k)
  update : ∀ {v w v' w'}, R v w → R v' w' → R (A.update v v') (B.update w w')

/-- Two stores with related registers. -/
def StoreRel (R : V → W → Prop) (st : Store V) (st' : Store W) : Prop :=
  ∀ r, Option.Rel R (st r) (st' r)

section

variable {A : Api κ σ τ V} {B : Api κ σ τ W} {R : V → W → Prop} {st : Store V} {st' : Store W}

variable {v : Option V} {w : Option W}

lemma StoreRel.update (h : StoreRel R st st') (hv : Option.Rel R v w) (r : ℕ) :
    StoreRel R (Function.update st r v) (Function.update st' r w) := by
  intro r'
  by_cases hr : r' = r
  · rw [hr, Function.update_self, Function.update_self]
    exact hv
  · rw [Function.update_of_ne hr, Function.update_of_ne hr]
    exact h r'

lemma rel_bind (h : Option.Rel R v w) {f : V → Option V}
    {g : W → Option W} (hf : ∀ {a b}, R a b → Option.Rel R (f a) (g b)) :
    Option.Rel R (v.bind f) (w.bind g) := by
  cases h with
  | none => exact .none
  | some h => exact hf h

lemma rel_map (h : Option.Rel R v w) {f : V → V} {g : W → W}
    (hf : ∀ {a b}, R a b → R (f a) (g b)) : Option.Rel R (v.map f) (w.map g) := by
  cases h with
  | none => exact .none
  | some h => exact .some (hf h)

variable (h : Simulates A B R)
include h

lemma Simulates.at_ {v : V} {w : W} (hv : R v w) (path : List (Step κ)) :
    Option.Rel R (A.at_ v path) (B.at_ w path) := by
  induction path generalizing v w with
  | nil => exact .some hv
  | cons s path ih => exact rel_bind (h.child hv s) ih

lemma Simulates.find (hst : StoreRel R st st') (p : Place κ) :
    Option.Rel R (A.find st p) (B.find st' p) :=
  rel_bind (hst p.root) fun hv => h.at_ hv p.path

lemma Simulates.editAt {f : V → V} {g : W → W} (hf : ∀ {v w}, R v w → R (f v) (g w))
    (path : List (Step κ)) {v : V} {w : W} (hv : R v w) :
    R (A.editAt f path v) (B.editAt g path w) := by
  induction path generalizing v w with
  | nil => exact hf hv
  | cons s path ih => exact h.edit ih s hv

lemma Simulates.change (hst : StoreRel R st st') (p : Place κ) {f : V → V} {g : W → W}
    (hf : ∀ {v w}, R v w → R (f v) (g w)) : StoreRel R (A.change st p f) (B.change st' p g) :=
  hst.update (rel_map (hst p.root) fun hv => h.editAt hf p.path hv) p.root

variable [DecidableEq κ]

lemma Simulates.step (hst : StoreRel R st st') (op : Op κ σ τ) :
    Option.Rel (StoreRel R) (A.step st op) (B.step st' op) := by
  cases op with
  | object r => exact .some (hst.update (.some h.object) r)
  | scalar r s => exact .some (hst.update (.some (h.scalar s)) r)
  | parse r text => exact .some (hst.update (h.parse text) r)
  | clone r src => exact .some (hst.update (rel_map (h.find hst src) h.clone) r)
  | set dst k r =>
    simp only [Api.step]
    split_ifs
    · exact .none
    · have hvalue : R ((st r).getD A.null) ((st' r).getD B.null) := by
        have hreg := hst r
        generalize st r = x at hreg
        generalize st' r = y at hreg
        cases hreg with
        | none => exact h.null
        | some hv => exact hv
      refine .some (StoreRel.update ?_ .none r)
      exact h.change hst dst fun ho => h.set ho hvalue k
  | take r src k =>
    have htaken := rel_bind (h.find hst src) fun ho => h.child ho (.key k)
    exact .some ((h.change hst src fun ho => h.del ho k).update htaken r)
  | del src k => exact .some (h.change hst src fun ho => h.del ho k)
  | update dst src =>
    simp only [Api.step]
    split_ifs
    · have hfound := h.find hst src
      generalize A.find st src = x at hfound
      generalize B.find st' src = y at hfound
      cases hfound with
      | none => exact .some hst
      | some hs => exact .some (h.change hst dst fun ho => h.update ho hs)
    · exact .none

/-- **Refinement over runs**: related stores stay related. -/
theorem Simulates.run (hst : StoreRel R st st') (ops : List (Op κ σ τ)) :
    Option.Rel (StoreRel R) (A.run st ops) (B.run st' ops) := by
  induction ops generalizing st st' with
  | nil => exact .some hst
  | cons op ops ih =>
    have hstep := h.step hst op
    rw [Api.run, Api.run, List.foldlM_cons, List.foldlM_cons]
    generalize A.step st op = x at hstep
    generalize B.step st' op = y at hstep
    cases hstep with
    | none => exact .none
    | some hnext => exact ih hnext

end

end Api

end SbEasy.PlaceStore

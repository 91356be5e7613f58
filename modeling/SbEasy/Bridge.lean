import SbEasy.Utf8
import SbEasy.ProgPool

/-!
The life of the embedded engine: `startRuntime`, `reloadRuntime`, `restorePrevious` and `stopRuntime`
of the bridge.

A call is a program whose operations are what happens at once: a lock is taken or given back, a
section under the second lock is run, the engine is asked for something. The proxy that is stopped
with the engine has a lock and a state of its own and is left out.
-/

namespace SbEasy.Bridge

/-- `box.Box`: which one it is, and the configuration it was built from. -/
structure Box where
  id : ℕ
  config : Bytes

/-- `runtimeState`; a context is known by its number. -/
structure Runtime where
  box : Option Box := none
  /-- The context that `cancel` cancels besides the one of the box itself. -/
  cancel : Option ℕ := none
  config : Bytes := []
  ctx : Option ℕ := none

/-- `runtimeState` and `startupState`, each with its lock. The last fields remember what has
happened. -/
structure State where
  runtime : Runtime := {}
  /-- The call that holds the lock of `runtimeState`. -/
  holder : Option ℕ := none
  generation : UInt64 := 0
  /-- The context that `startupState.cancel` cancels. -/
  pending : Option ℕ := none
  contexts : ℕ := 0
  cancelled : List ℕ := []
  /-- How many calls there have been, and how many of them have raised the generation. -/
  calls : ℕ := 0
  cancels : ℕ := 0
  /-- The calls that have read their generation, and how many had raised it then. -/
  readers : List ℕ := []
  readAt : ℕ → ℕ := fun _ => 0
  /-- The calls that had read their generation when this one raised it. -/
  marks : ℕ → List ℕ := fun _ => []
  /-- The calls that had read their generation before one that raised it and has come back since. -/
  barred : List ℕ := []
  /-- The call that has put the present box there. -/
  publisher : Option ℕ := none
  /-- How many boxes have been created. -/
  boxes : ℕ := 0
  /-- The boxes in the hands of the call that holds the lock. -/
  hand : List ℕ := []
  /-- The call that has created a box or taken it out of `runtimeState`. -/
  owner : ℕ → Option ℕ := fun _ => none
  /-- The boxes that have been closed, each with the call that has done it. -/
  closes : List (ℕ × ℕ) := []

inductive Op
  | generation
  | lock
  | unlock
  | begin (generation : UInt64)
  | finish
  | cancelStartup
  | cancel (ctx : ℕ)
  | err (ctx : ℕ)
  | read
  | create (ctx : ℕ) (content : Bytes)
  | start (box : Box)
  | close (box : Box)
  | load
  | store (runtime : Runtime)

abbrev Reply : Op → Type
  | .generation => UInt64
  | .begin _ => Option ℕ
  | .err _ => Option String
  | .read => Except String Bytes
  | .create _ _ => Except String Box
  | .start _ => Except String Unit
  | .close _ => Except String Unit
  | .load => Runtime
  | _ => Unit

/-- What an operation meets. -/
structure Choice where
  fault : Option String := none
  content : Bytes := []

def contextCanceled : String := "context canceled"

/-- `ctx.Err()` -/
def State.err (s : State) (ctx : ℕ) : Option String :=
  if ctx ∈ s.cancelled then some contextCanceled else none

/-- `startupGeneration` -/
def State.readGeneration (s : State) (t : ℕ) : State :=
  { s with readers := t :: s.readers, readAt := Function.update s.readAt t s.cancels }

/-- `cancelStartup` -/
def State.cancelStartup (s : State) (t : ℕ) : State :=
  { s with
    generation := s.generation + 1
    cancelled := s.pending.toList ++ s.cancelled
    cancels := s.cancels + 1
    marks := Function.update s.marks t s.readers }

/-- The lock of `runtimeState` is given back; this is the last thing a call does. -/
def State.unlock (s : State) (t : ℕ) : State :=
  { s with holder := none, barred := s.barred ++ s.marks t }

def State.create (s : State) (t : ℕ) : State :=
  { s with
    boxes := s.boxes + 1
    hand := s.boxes :: s.hand
    owner := Function.update s.owner s.boxes (some t) }

def State.close (s : State) (t : ℕ) (b : Box) : State :=
  { s with hand := s.hand.erase b.id, closes := (b.id, t) :: s.closes }

/-- A box leaves `runtimeState`. -/
def State.takeOut (s : State) (t : ℕ) : State :=
  match s.runtime.box with
  | none => { s with runtime := {}, publisher := none }
  | some b =>
    { s with
      runtime := {}
      publisher := none
      hand := b.id :: s.hand
      owner := Function.update s.owner b.id (some t) }

/-- The fields of `runtimeState` are assigned. -/
def State.store (s : State) (t : ℕ) (r : Runtime) : State :=
  match r.box with
  | none => { s.takeOut t with runtime := r }
  | some b => { s.takeOut t with
      runtime := r, publisher := some t, hand := (s.takeOut t).hand.erase b.id }

/-- What an operation of a call answers, and the state after it. -/
def act (t : ℕ) (x : Choice) (s : State) : (o : Op) → Option (Reply o × State)
  | .generation => some (s.generation, s.readGeneration t)
  | .lock => if s.holder.isSome then none else some ((), { s with holder := some t })
  | .unlock => some ((), s.unlock t)
  | .begin generation =>
    if generation ≠ s.generation then some (none, s)
    else some (some s.contexts, { s with contexts := s.contexts + 1, pending := some s.contexts })
  | .finish => some ((), { s with pending := none })
  | .cancelStartup => some ((), s.cancelStartup t)
  | .cancel ctx => some ((), { s with cancelled := ctx :: s.cancelled })
  | .err ctx => some (s.err ctx, s)
  | .read => some (Prog.answer x.fault x.content, s)
  | .create ctx content =>
    match s.err ctx, x.fault with
    | some e, _ => some (.error e, s)
    | none, some e => some (.error e, s)
    | none, none => some (.ok ⟨s.boxes, content⟩, s.create t)
  | .start _ => some (Prog.answer x.fault (), s)
  | .close b => some (Prog.answer x.fault (), s.close t b)
  | .load => some (s.runtime, s)
  | .store r => some ((), s.store t r)

/-! ### The functions -/

abbrev Fn := Prog Op Reply

/-- `E.Cause` -/
def cause (text error : String) : String := text ++ ": " ++ error

/-- `errors.Join` -/
def join (first second : String) : String := first ++ "\n" ++ second

def startupGeneration {ε : Type} : Fn ε UInt64 := Prog.perform Op.generation

def beginStartup {ε : Type} (generation : UInt64) : Fn ε (Option ℕ) :=
  Prog.perform (Op.begin generation)

/-- `ctx.Err()` -/
def ctxErr {ε : Type} (ctx : ℕ) : Fn ε (Option String) := Prog.perform (Op.err ctx)

def load {ε : Type} : Fn ε Runtime := Prog.perform Op.load

def readRuntimeConfig : Fn String Bytes := Prog.perform Op.read >>= Prog.ofExcept

def createInstanceInContext (ctx : ℕ) (content : Bytes) : Fn String Box :=
  Prog.perform (Op.create ctx content) >>= Prog.ofExcept

/-- `instance.Start()`, and then the context. -/
def startInstance (ctx : ℕ) (b : Box) : Fn String Unit := do
  Prog.perform (Op.start b) >>= Prog.ofExcept
  match ← ctxErr ctx with
  | some e => .throw e
  | none => pure ()

/-- The function `runtimeState.cancel`. -/
def cancelWith {ε : Type} : Option ℕ → Fn ε Unit
  | none => pure ()
  | some ctx => Prog.perform (Op.cancel ctx)

/-- `closeInstance`; the context of the box itself ends with it. -/
def closeInstance (box : Option Box) (cancel : Option ℕ) : Fn String Unit := do
  cancelWith cancel
  match box with
  | none => pure ()
  | some b => Prog.perform (Op.close b) >>= Prog.ofExcept

/-- The lock of `runtimeState` is held until the function is left. -/
def locked (p : Fn String Unit) : Fn String Unit := do
  Prog.perform Op.lock
  let r ← p.result
  Prog.perform Op.unlock
  Prog.ofExcept r

/-- Leave with an error, and drop the context of the operation. -/
def orLeave {α : Type} (p : Fn String α) (text : String → String) : Fn (Bool × String) α :=
  p.handle fun e => .throw (false, text e)

/-- What follows `beginStartup`; an error says whether the context is kept. -/
def startup (generation : UInt64) (p : ℕ → Fn (Bool × String) Unit) : Fn String Unit := do
  match ← beginStartup generation with
  | none => .throw contextCanceled
  | some ctx =>
    let r ← (p ctx).result
    Prog.perform Op.finish
    match r with
    | .ok () => pure ()
    | .error (true, e) => .throw e
    | .error (false, e) => do
      Prog.perform (Op.cancel ctx)
      .throw e

def startLocked (ctx : ℕ) : Fn (Bool × String) Unit := do
  let content ← orLeave readRuntimeConfig (cause "read config")
  let b ← orLeave (createInstanceInContext ctx content) id
  match ← (startInstance ctx b).result with
  | .error e => do
    let _ ← (closeInstance (some b) none).result
    .throw (false, cause "start service" e)
  | .ok () => Prog.perform (Op.store ⟨some b, some ctx, content, some ctx⟩)

/-- `startRuntime` -/
def startRuntime : Fn String Unit := do
  let generation ← startupGeneration
  locked do
    let r ← load
    if r.box.isSome then .throw "sing-box is already running" else startup generation startLocked

/-- `restorePrevious`; the answer is its error. -/
def restorePrevious {ε : Type} (ctx : ℕ) (content : Bytes) (why : String) : Fn ε String := do
  match ← ctxErr ctx with
  | some e => pure (join why e)
  | none =>
    if content.isEmpty then pure why
    else
      match ← (createInstanceInContext ctx content).result with
      | .error e => pure (join why (cause "restore previous service" e))
      | .ok b =>
        match ← (startInstance ctx b).result with
        | .error e => do
          let _ ← (closeInstance (some b) none).result
          pure (join why (cause "restore previous service" e))
        | .ok () => do
          Prog.perform (Op.store ⟨some b, some ctx, content, some ctx⟩)
          pure why

/-- The replacement has failed. -/
def undo (ctx : ℕ) (replacement : Box) (content : Bytes) (why : String) : Fn (Bool × String) Unit := do
  let _ ← (closeInstance (some replacement) none).result
  let e ← restorePrevious ctx content why
  let r ← load
  .throw (r.box.isSome, e)

def reloadLocked (ctx : ℕ) : Fn (Bool × String) Unit := do
  let content ← orLeave readRuntimeConfig (cause "read config")
  let replacement ← orLeave (createInstanceInContext ctx content) id
  let previous ← load
  Prog.perform (Op.store {})
  match ← (closeInstance previous.box previous.cancel).result with
  | .error e => undo ctx replacement previous.config (cause "close previous service" e)
  | .ok () =>
    match ← (startInstance ctx replacement).result with
    | .error e => undo ctx replacement previous.config (cause "start replacement service" e)
    | .ok () => Prog.perform (Op.store ⟨some replacement, some ctx, content, some ctx⟩)

/-- `reloadRuntime` -/
def reloadRuntime : Fn String Unit := do
  let generation ← startupGeneration
  locked (startup generation reloadLocked)

/-- `stopRuntime` -/
def stopRuntime : Fn String Unit := do
  Prog.perform Op.cancelStartup
  locked do
    let r ← load
    Prog.perform (Op.store {})
    closeInstance r.box r.cancel

/-- `SBEasySingBoxCancelStart` -/
def cancelStart : Fn String Unit := Prog.perform Op.cancelStartup

end SbEasy.Bridge

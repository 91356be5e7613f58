import SbEasy.Bridge
import SbEasy.ConfigApply
import SbEasy.ProgSeq

/-!
The supervisor of the embedded engine: `singbox_supervisor_embedded.c`, over the calls of the bridge.

Only the supervisor writes the file of the configuration. A file that replaces it is prepared,
validated and renamed; the rename, the calls behind it, the write that restores a file and the removal
do not fail.
-/

namespace SbEasy.Supervisor

/-- `sb_singbox_supervisor_options`, as far as the embedded engine uses them. -/
structure Options where
  validateConfig : Bool := true
  restartBackoffMs : ℤ := 1000

/-- `sb_singbox_supervisor` -/
structure Fields where
  running : Bool := false
  hasStarted : Bool := false
  nextStartMs : ℤ := 0
  lastError : Option String := none

structure World where
  file : Option Bytes := none
  fields : Fields := {}
  engine : Bridge.State := {}

inductive Op
  | bridge (o : Bridge.Op)
  | get
  | set (f : Fields)
  | now
  | isRegularFile
  | readFile
  /-- Everything up to the validation. -/
  | prepare (restoring : Bool)
  /-- `SBEasySingBoxCheck` -/
  | check
  | rename (contents : Bytes)
  | unlink

abbrev Reply : Op → Type
  | .bridge o => Bridge.Reply o
  | .get => Fields
  | .now => ℤ
  | .isRegularFile => Bool
  | .readFile => Except String Bytes
  | .prepare _ => Except String Unit
  | .check => Except String Unit
  | _ => Unit

/-- What an operation meets. -/
structure Choice where
  fault : Option String := none
  time : ℤ := 0

/-- What reading the configuration for the engine meets: the file, made ready, or an error. -/
def Choice.bridge (x : Choice) (ready : Option Bytes) : Bridge.Choice where
  fault := x.fault
  content := ready.getD []

/-- `readRuntimeConfig` fails if the file is missing or cannot be made ready. -/
def blocked (x : Choice) (ready : Option Bytes) : Bridge.Op → Bool
  | .read => x.fault.isNone && ready.isNone
  | _ => false

variable (readConfig : Bytes → Option Bytes)

/-- What an operation answers, and the state after it; `readConfig` is what `readRuntimeConfig` makes
of the bytes of a file. -/
def act (x : Choice) (w : World) : (o : Op) → Option (Reply o × World)
  | .bridge o =>
    if blocked x (w.file.bind readConfig) o then none
    else
      match Bridge.act 0 (x.bridge (w.file.bind readConfig)) w.engine o with
      | some (r, engine) => some (r, { w with engine })
      | none => none
  | .get => some (w.fields, w)
  | .set fields => some ((), { w with fields })
  | .now => some (x.time, w)
  | .isRegularFile => some (w.file.isSome, w)
  | .readFile => some (w.file.elim (.error "No such file or directory") (Prog.answer x.fault), w)
  | .prepare restoring => some (if restoring then .ok () else Prog.answer x.fault (), w)
  | .check => some (Prog.answer x.fault (), w)
  | .rename contents => some ((), { w with file := some contents })
  | .unlink => some ((), { w with file := none })

/-! ### The functions -/

abbrev Fn := Prog Op Reply

/-- A call of the bridge. -/
def call {ε α : Type} (p : Bridge.Fn ε α) : Fn ε α := p.inject Op.bridge fun _ r => r

def getFields {ε : Type} : Fn ε Fields := Prog.perform Op.get
def setFields {ε : Type} (f : Fields) : Fn ε Unit := Prog.perform (Op.set f)
def monotonicMs {ε : Type} : Fn ε ℤ := Prog.perform Op.now
def isRegularFile {ε : Type} : Fn ε Bool := Prog.perform Op.isRegularFile
def readFile : Fn String Bytes := Prog.perform Op.readFile >>= Prog.ofExcept
def check : Fn String Unit := Prog.perform Op.check >>= Prog.ofExcept

/-- `SBEasySingBoxRunning` -/
def engineRunning {ε : Type} : Fn ε Bool := call do
  Prog.perform Bridge.Op.lock
  let r ← Bridge.load
  Prog.perform Bridge.Op.unlock
  pure r.box.isSome

def replaceFile (contents : Bytes) (restoring : Bool) (validator : Fn String Unit) : Fn String Unit :=
  ConfigApply.atomicReplaceFile (Prog.perform (Op.prepare restoring) >>= Prog.ofExcept) validator
    (Prog.perform (Op.rename contents)) (pure ())

variable (o : Options)

/-- `validate` -/
def validate : Fn String Unit :=
  if o.validateConfig then
    check.handle fun e => .throw ("sing-box config validation failed: " ++ e)
  else pure ()

/-- The part of `reap` for a supervisor that takes its engine to be running. -/
def reapRunning {ε : Type} (f : Fields) : Fn ε Unit := do
  if ← engineRunning then pure ()
  else
    let now ← monotonicMs
    setFields { f with
      running := false
      lastError := some "embedded sing-box stopped unexpectedly"
      nextStartMs := now + o.restartBackoffMs }

/-- `reap` -/
def reap {ε : Type} : Fn ε Unit := do
  let f ← getFields
  if f.running then reapRunning o f else pure ()

/-- `sb_singbox_supervisor_running` -/
def running {ε : Type} : Fn ε Bool := do
  reap o
  let f ← getFields
  pure f.running

/-- The backoff has not passed yet. -/
def backingOff {ε : Type} (ignoreBackoff : Bool) (f : Fields) : Fn ε Bool :=
  if ignoreBackoff then pure false
  else do
    let now ← monotonicMs
    pure (decide (now < f.nextStartMs))

/-- `start`, when the engine is to be started. -/
def startEngine (f : Fields) : Fn String Unit := do
  setFields { f with hasStarted := true }
  match ← (call Bridge.startRuntime).result with
  | .error e => do
    let now ← monotonicMs
    let message := "start embedded sing-box failed: " ++ e
    setFields { f with
      hasStarted := true, nextStartMs := now + o.restartBackoffMs, lastError := some message }
    .throw message
  | .ok () =>
    setFields { f with hasStarted := true, running := true, nextStartMs := 0, lastError := none }

/-- `start` -/
def start (ignoreBackoff : Bool) : Fn String Unit := do
  reap o
  let f ← getFields
  if f.running then pure ()
  else
    let early ← backingOff ignoreBackoff f
    if early then pure ()
    else
      let regular ← isRegularFile
      if regular then startEngine o f else pure ()

/-- `reload_running` -/
def reloadRunning : Fn String Unit := do
  (call Bridge.reloadRuntime).handle fun e => .throw ("reload embedded sing-box failed: " ++ e)
  let f ← getFields
  setFields { f with running := true, lastError := none }

/-- `sb_singbox_supervisor_reload` -/
def reload : Fn String Unit := do
  let live ← running o
  if live then reloadRunning else start o true

/-- The file as it was before. -/
def restoreFile : Option Bytes → Fn String Unit
  | some contents => replaceFile contents true (pure ())
  | none => Prog.perform Op.unlink

/-- The new file could not be used. -/
def giveUp (previous : Option Bytes) (e : String) : Fn String Unit := do
  let r ← (restoreFile previous).result
  let message := match r with
    | .ok () => e
    | .error e' =>
      "sing-box replacement failed and prior configuration could not be restored: " ++ e'
  let live ← engineRunning
  let f ← getFields
  setFields { f with running := live, lastError := some message }
  .throw message

/-- What the file was. -/
def priorFile : Fn String (Option Bytes) := do
  let regular ← isRegularFile
  if regular then do
    let contents ← readFile.handle fun e => .throw ("read prior sing-box configuration: " ++ e)
    pure (some contents)
  else pure none

/-- `sb_singbox_supervisor_apply_config`; a file that has been replaced is put to use as by a reload. -/
def applyConfig (contents : Bytes) : Fn String Unit := do
  let previous ← priorFile
  replaceFile contents false (validate o)
  match ← (reload o).result with
  | .ok () => pure ()
  | .error e => giveUp previous e

/-- There is something to stop. -/
def stoppable {ε : Type} (f : Fields) : Fn ε Bool :=
  if f.running then pure true else engineRunning

/-- `sb_singbox_supervisor_stop` -/
def stop {ε : Type} : Fn ε Unit := do
  let f ← getFields
  let live ← stoppable f
  if live then
    let r ← (call Bridge.stopRuntime).result
    let lastError := match r with
      | .ok () => f.lastError
      | .error e => some ("stop embedded sing-box failed: " ++ e)
    setFields { f with running := false, hasStarted := false, lastError }
  else pure ()

/-- `sb_singbox_supervisor_ensure_alive` -/
def ensureAlive {ε : Type} : Fn ε Unit := do
  reap o
  let f ← getFields
  if f.hasStarted && !f.running then
    match ← (start o false).result with
    | .ok () => pure ()
    | .error e => do
      let f ← getFields
      setFields { f with lastError := some e }
  else pure ()

/-- `sb_singbox_supervisor_restart` -/
def restart : Fn String Unit := do
  stop
  let f ← getFields
  setFields { f with hasStarted := true }
  start o true

end SbEasy.Supervisor

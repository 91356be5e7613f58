import SbEasy.Json

/-!
How a configuration is installed for a child process: `singbox_supervisor_child.c`, and the branch of
`apply_config` in `agent_main.c` without a supervisor.

What the system and other programs answer is an input; a fault is the text of an error.
-/

namespace SbEasy.ConfigApply

/-- What the calls of `sb_atomic_replace_file` meet. -/
structure Replacement where
  createDirectories : Option String := none
  inspect : Option String := none
  random : Option String := none
  create : Option String := none
  /-- The error of `write_all`. -/
  write : Option String := none
  close : Option String := none
  rename : Option String := none
  openDirectory : Option String := none
  fsyncDirectory : Option String := none
  closeDirectory : Option String := none

/-- The error of a step that meets a fault. -/
def failure (text : String) (fault : Option String) : Option String := fault.map (text ++ ·)

/-- The steps of `sb_atomic_replace_file` up to the validation. -/
def preparation (destination : Bytes) (x : Replacement) : List (Option String) :=
  [if destination = [] ∨ destination.getLast? = some 47 then
      some "config destination must name a file" else none,
    failure "create_directories: " x.createDirectories,
    failure "inspect destination config: " x.inspect,
    x.random.map fun _ => "secure temporary filename generation failed",
    failure "create temporary config: " x.create, x.write,
    failure "close temporary config: " x.close]

/-- `fsync_directory` -/
def fsyncDirectory (x : Replacement) : List (Option String) :=
  [failure "open config directory: " x.openDirectory,
    failure "fsync config directory: " x.fsyncDirectory,
    failure "close config directory: " x.closeDirectory]

/-- `sb_atomic_replace_file`, over what its parts do. -/
def atomicReplaceFile {m : Type → Type} [Monad m] (prepare validator rename fsync : m Unit) :
    m Unit := do
  prepare
  validator
  rename
  fsync

/-- Steps of which the first that meets a fault ends the function. -/
def attempt (steps : List (Option String)) : ExceptT String (StateM (Option Bytes)) Unit :=
  match steps.findSome? id with
  | some e => throw e
  | none => pure ()

/-- `sb_atomic_replace_file` under the faults it meets: the error, and the file after it. -/
def replaceFile (destination : Bytes) (x : Replacement) (validator : Option String)
    (contents : Bytes) (file : Option Bytes) : Option String × Option Bytes :=
  match (atomicReplaceFile (attempt (preparation destination x)) (attempt [validator])
    (do attempt [failure "replace config: " x.rename]; set (some contents))
    (attempt (fsyncDirectory x))).run.run file with
  | (.error e, file) => (some e, file)
  | (.ok _, file) => (none, file)

structure Options where
  configPath : Bytes
  validateConfig : Bool := true
  restartBackoffMs : ℤ := 1000

/-- `validate`, and `validate_with_singbox`; a program that is run ends well or with a detail. -/
def validate (o : Options) (check : Option String) : Option String :=
  if o.validateConfig then failure "sing-box config validation failed: " check else none

/-- `sb_singbox_supervisor` -/
structure Fields where
  child : ℤ := -1
  hasStarted : Bool := false
  nextStartMs : ℤ := 0
  lastError : Option String := none
  deriving DecidableEq

/-- What `waitpid` answers, with the time it is read at. -/
inductive Wait
  | running
  | exited (detail : String) (now : ℤ)
  | interrupted
  | noChild (now : ℤ)
  | failed (e : String)

/-- What `kill` answers. -/
inductive Signal
  | sent
  | noProcess
  | failed (e : String)

/-- What the calls of the supervisor meet. -/
structure Meets where
  replacement : Replacement := {}
  check : Option String := none
  firstWait : Wait := .running
  kill : Signal := .sent
  secondWait : Wait := .running
  lastWait : Wait := .running
  regular : Bool := true
  spawnActions : Option String := none
  spawnInput : Option String := none
  /-- The error of `posix_spawnp`, with the time. -/
  spawn : Option (String × ℤ) := none
  process : ℤ := 1

/-- `reap` -/
def reap (o : Options) (x : Wait) (s : Fields) : Fields :=
  if s.child ≤ 0 then s
  else match x with
    | .running | .interrupted => s
    | .exited detail now => { s with
        child := -1, lastError := some detail, nextStartMs := now + o.restartBackoffMs }
    | .noChild now => { s with
        child := -1, lastError := some "sing-box child could not be reaped"
        nextStartMs := now + o.restartBackoffMs }
    | .failed e => { s with lastError := some ("sing-box wait failed: " ++ e) }

/-- `start`, whatever the backoff. -/
def start (o : Options) (x : Meets) (s : Fields) : Option String × Fields :=
  let s := reap o x.lastWait s
  if 0 < s.child ∨ x.regular = false then (none, s)
  else match [failure "initialize sing-box spawn actions failed: " x.spawnActions,
      failure "configure sing-box stdin failed: " x.spawnInput].findSome? id, x.spawn with
    | some e, _ => (some e, s)
    | none, some (e, now) =>
      (some ("start sing-box failed: " ++ e),
        { child := -1, hasStarted := true, nextStartMs := now + o.restartBackoffMs
          lastError := some ("start sing-box failed: " ++ e) })
    | none, none => (none, { child := x.process, hasStarted := true })

/-- `sb_singbox_supervisor_apply_config`, once the file is replaced. -/
def signal (o : Options) (x : Meets) (s : Fields) : Option String × Fields :=
  let s := reap o x.firstWait s
  if 0 < s.child then
    match x.kill with
    | .sent => (none, { s with lastError := none })
    | .failed e => (some ("reload sing-box failed: " ++ e), s)
    | .noProcess => start o x (reap o x.secondWait s)
  else start o x s

/-- `sb_singbox_supervisor_apply_config` -/
def supervisorApplyConfig (o : Options) (x : Meets) (contents : Bytes) (s : Fields)
    (file : Option Bytes) : Option String × Fields × Option Bytes :=
  match replaceFile o.configPath x.replacement (validate o x.check) contents file with
  | (some e, file) => (some e, s, file)
  | (none, file) => ((signal o x s).1, (signal o x s).2, file)

/-- What the calls of the agent meet; `prepared` is what `sb_prepare_agent_config` answers. -/
structure AgentMeets where
  prepared : Except String Bytes
  /-- The error of `read_existing`. -/
  read : Option String := none
  replacement : Replacement := {}
  check : Option String := none
  /-- The detail of a reload command that fails. -/
  reload : Option String := none
  restore : Replacement := {}

/-- `apply_config` without a supervisor, from the replacement on. -/
def replaceAndReload (o : Options) (x : AgentMeets) (prepared : Bytes) (file : Option Bytes) :
    Option String × Option Bytes :=
  match replaceFile o.configPath x.replacement (validate o x.check) prepared file, x.reload with
  | (some e, replaced), _ => (some e, replaced)
  | (none, replaced), none => (none, replaced)
  | (none, replaced), some detail =>
    match file with
    | none => (some ("sing-box reload failed: " ++ detail), replaced)
    | some previous =>
      match replaceFile o.configPath x.restore none previous replaced with
      | (some e, restored) => (some e, restored)
      | (none, restored) => (some ("sing-box reload failed: " ++ detail), restored)

/-- `apply_config` without a supervisor: the error, and the file after it. -/
def applyConfig (o : Options) (x : AgentMeets) (file : Option Bytes) :
    Option String × Option Bytes :=
  match x.prepared, x.read with
  | .error e, _ => (some e, file)
  | .ok _, some e => (some e, file)
  | .ok prepared, none => replaceAndReload o x prepared file

/-- **A new file of an agent that cannot be put to use stays there**, and so does one that a
supervisor cannot signal. -/
theorem failed_apply_keeps_new_file :
    supervisorApplyConfig ⟨[97], true, 1000⟩ { kill := .failed "EPERM" } [49] { child := 7 } none =
        (some "reload sing-box failed: EPERM", { child := 7 }, some [49]) ∧
      applyConfig ⟨[97], true, 1000⟩ { prepared := .ok [49], reload := some "exit code 1" } none =
        (some "sing-box reload failed: exit code 1", some [49]) := by
  decide +kernel

/-! ### When a failure leaves the file as it was -/

/-- No step up to the rename meets a fault. -/
structure Renames (o : Options) (x : Replacement) (check : Option String) : Prop where
  named : o.configPath ≠ [] ∧ o.configPath.getLast? ≠ some 47
  createDirectories : x.createDirectories = none
  inspect : x.inspect = none
  random : x.random = none
  create : x.create = none
  write : x.write = none
  close : x.close = none
  check : o.validateConfig = true → check = none
  rename : x.rename = none

/-- No step behind the rename does. -/
structure Synced (x : Replacement) : Prop where
  openDirectory : x.openDirectory = none
  fsyncDirectory : x.fsyncDirectory = none
  closeDirectory : x.closeDirectory = none

/-- The process is found to have ended. -/
def Wait.gone : Wait → Bool
  | .exited _ _ | .noChild _ => true
  | _ => false

/-- A new process is to be started, and cannot be. -/
def Meets.SpawnFails (x : Meets) : Prop :=
  x.regular = true ∧ (x.spawnActions ≠ none ∨ x.spawnInput ≠ none ∨ x.spawn ≠ none)

/-- The process can neither be signalled nor be replaced. -/
def Meets.SignalFails (x : Meets) (s : Fields) : Prop :=
  if 0 < s.child ∧ x.firstWait.gone = false then
    match x.kill with
    | .sent => False
    | .failed _ => True
    | .noProcess => (x.secondWait.gone ∨ x.lastWait.gone) ∧ x.SpawnFails
  else x.SpawnFails

variable (o : Options) (x : Meets) (s : Fields) (file : Option Bytes) (contents : Bytes)

/-- Everything up to the rename. -/
def beforeRename (r : Replacement) (validator : Option String) : List (Option String) :=
  preparation o.configPath r ++ [validator, failure "replace config: " r.rename]

lemma replaceFile_eq (r : Replacement) (validator : Option String) :
    replaceFile o.configPath r validator contents file =
      match (beforeRename o r validator).findSome? id with
      | some e => (some e, file)
      | none => ((fsyncDirectory r).findSome? id, some contents) := by
  rw [beforeRename, List.findSome?_append, replaceFile, atomicReplaceFile]
  simp only [attempt, List.findSome?_cons, List.findSome?_nil]
  cases (preparation o.configPath r).findSome? id with
  | some e => rfl
  | none =>
    cases validator with
    | some e => rfl
    | none =>
      cases failure "replace config: " r.rename with
      | some e => rfl
      | none => cases (fsyncDirectory r).findSome? id <;> rfl

lemma beforeRename_none (r : Replacement) (check : Option String) :
    (beforeRename o r (validate o check)).findSome? id = none ↔ Renames o r check := by
  constructor
  · intro h
    simp [beforeRename, preparation, failure, validate] at h
    constructor <;> tauto
  · intro h
    simp [beforeRename, preparation, failure, validate, h.named, h.createDirectories, h.inspect,
      h.random, h.create, h.write, h.close, h.rename]
    exact h.check

lemma fsyncDirectory_none (r : Replacement) :
    (fsyncDirectory r).findSome? id = none ↔ Synced r := by
  simp [fsyncDirectory, failure]
  exact ⟨fun ⟨a, b, c⟩ => ⟨a, b, c⟩, fun ⟨a, b, c⟩ => ⟨a, b, c⟩⟩

lemma child_reap (w : Wait) : 0 < (reap o w s).child ↔ 0 < s.child ∧ w.gone = false := by
  unfold reap
  split
  · omega
  · cases w <;> simp [Wait.gone]

lemma start_fails : (start o x s).1 ≠ none ↔
    ¬(0 < s.child ∧ x.lastWait.gone = false) ∧ x.SpawnFails := by
  rw [← child_reap o s]
  unfold start Meets.SpawnFails
  cases x.regular <;> cases x.spawnActions <;> cases x.spawnInput <;> cases x.spawn <;>
    by_cases h : 0 < (reap o x.lastWait s).child <;> simp [h, failure]

lemma signal_fails : (signal o x s).1 ≠ none ↔ x.SignalFails s := by
  unfold signal Meets.SignalFails
  simp only [child_reap]
  split
  case isTrue h =>
    cases x.kill with
    | sent => simp
    | failed e => simp
    | noProcess =>
      rw [start_fails, child_reap, child_reap]
      cases x.secondWait.gone <;> cases x.lastWait.gone <;> simp [h]
  case isFalse h =>
    rw [start_fails, child_reap]
    tauto

lemma replaceFile_renames {r : Replacement} {check : Option String} (h : Renames o r check) :
    replaceFile o.configPath r (validate o check) contents file =
      ((fsyncDirectory r).findSome? id, some contents) := by
  rw [replaceFile_eq, (beforeRename_none o r check).mpr h]

lemma replaceFile_fails {r : Replacement} {check : Option String} (h : ¬Renames o r check) :
    ∃ e, replaceFile o.configPath r (validate o check) contents file = (some e, file) := by
  rw [← beforeRename_none, ← ne_eq, Option.ne_none_iff_exists'] at h
  obtain ⟨e, he⟩ := h
  exact ⟨e, by rw [replaceFile_eq, he]⟩

/-- **A failed apply leaves the file as it was** unless the new one has been renamed by then; the
agent restores a file that was there, once the directory of the new one is synchronised. -/
theorem failed_apply_keeps_file_iff (y : AgentMeets) (hy : y.restore = {}) :
    (((supervisorApplyConfig o x contents s file).1 ≠ none →
        (supervisorApplyConfig o x contents s file).2.2 = file) ↔
      (Renames o x.replacement x.check → file ≠ some contents →
        Synced x.replacement ∧ ¬x.SignalFails s)) ∧
    (((applyConfig o y file).1 ≠ none → (applyConfig o y file).2 = file) ↔
      ∀ prepared, y.prepared = .ok prepared → y.read = none →
        Renames o y.replacement y.check → file ≠ some prepared →
        Synced y.replacement ∧ (y.reload = none ∨ file ≠ none)) := by
  constructor
  · unfold supervisorApplyConfig
    by_cases h : Renames o x.replacement x.check
    · rw [replaceFile_renames o file contents h, ← signal_fails o, ← fsyncDirectory_none]
      cases (fsyncDirectory x.replacement).findSome? id
      · simp [h, eq_comm]
        tauto
      · simp [h, eq_comm]
    · obtain ⟨e, he⟩ := replaceFile_fails o file contents h
      simp [he, h]
  · unfold applyConfig
    cases y.prepared with
    | error e => simp
    | ok prepared =>
      cases y.read with
      | some e => simp
      | none =>
        simp only [replaceAndReload]
        by_cases h : Renames o y.replacement y.check
        · have hrestore : (beforeRename o y.restore none).findSome? id = none := by
            simp [beforeRename, preparation, failure, hy, h.named]
          rw [replaceFile_renames o file prepared h, ← fsyncDirectory_none]
          cases (fsyncDirectory y.replacement).findSome? id <;> cases y.reload <;> cases file <;>
            simp [h, eq_comm, replaceFile_eq, hrestore]
          simp [hy, fsyncDirectory, failure]
        · obtain ⟨e, he⟩ := replaceFile_fails o file prepared h
          simp [he, h]

theorem failed_apply_restores_file :
    (applyConfig ⟨[97], true, 1000⟩ { prepared := .ok [49], reload := some "exit code 1" }
      (some [48])).2 = some [48] :=
  (failed_apply_keeps_file_iff ⟨[97], true, 1000⟩ {} {} (some [48]) [49]
    { prepared := .ok [49], reload := some "exit code 1" } rfl).2.mpr
    (fun _ _ _ _ _ => ⟨⟨rfl, rfl, rfl⟩, .inr (by decide)⟩) (by decide)

end SbEasy.ConfigApply

import SbEasy.JsonParse
import SbEasy.Prog

/-!
The update helper of the Windows service: `update_transaction.c`, with the files of `update_files.c`
and the start of a job in `updater.c`.

A file is what was written to it last; replacing one is atomic. Every operation may fail. What the
service and the installer do on their own between two operations is `Rely`.
-/

namespace SbEasy.WinUpdate

open JsonParse

/-- One number of a version: no leading zero, and not above a limit. -/
def versionPart (limit : ℕ) (text : Bytes) : Option (ℕ × Bytes) :=
  let digits := text.takeWhile isDigit
  let value := digitsValue digits
  if digits.isEmpty || (digits.head? == some 0x30 && decide (1 < digits.length)) ||
      decide (value > limit) then none
  else some (value, text.dropWhile isDigit)

/-- `sbw_release_version` -/
def releaseVersion (text : Bytes) : Option (List ℕ) := do
  let (major, rest) ← versionPart 255 text
  let (minor, rest) ← versionPart 255 (← eat 0x2E rest)
  let (patch, rest) ← versionPart 65535 (← eat 0x2E rest)
  if rest.isEmpty then some [major, minor, patch] else none

/-- `sbw_release_compare`; it is not defined on other texts. -/
def releaseCompare (first second : Bytes) : Option Ordering := do
  return compare (← releaseVersion first) (← releaseVersion second)

lemma releaseCompare_self (v : Bytes) : releaseCompare v v ≠ some .gt := by
  unfold releaseCompare
  cases releaseVersion v with
  | none => simp
  | some parts => simp

/-- `sbw_release`, as far as the helper looks at it. -/
structure Release where
  id : Bytes
  version : Bytes
  coreVersion : Bytes
  minimumAppVersion : Bytes

/-- `job.json` -/
structure Job where
  releaseId : Bytes
  previousVersion : Bytes
  previousCoreVersion : Bytes
  resumeConnected : Bool
  createdAt : ℤ
  healthNonce : Bytes

/-- The job, the release it is about, and the versions the helper was built as. -/
structure Update where
  release : Release
  job : Job
  appVersion : Bytes
  coreVersion : Bytes

/-- The phases of `transaction.json`. -/
inductive Phase
  | prepared | serviceStopped | backedUp | installing | restoring | complete
  deriving DecidableEq

/-- The phases under which there is a backup. -/
def Phase.hasBackup : Phase → Bool
  | .backedUp | .installing | .restoring => true
  | _ => false

/-- `transaction.json` -/
structure Journal where
  releaseId : Bytes
  phase : Phase
  stateExisted : Bool
  installerCode : ℕ
  deriving DecidableEq

/-- The phases of `current.json`. -/
inductive Outcome
  | installing | succeeded | rolledBack | failed | recoveryRequired
  deriving DecidableEq

/-- `current.json` -/
structure Result where
  releaseId : Bytes
  version : Bytes
  phase : Outcome
  installerCode : ℕ := 0
  stateRestored : Bool := false
  rebootRequired : Bool := false
  errorCode : String := ""
  finishedAt : ℤ := 0

/-- `health.json` -/
structure Health where
  releaseId : Bytes
  version : Bytes
  coreVersion : Bytes
  healthy : Bool
  rollback : Bool
  deriving DecidableEq

/-- What `sbw_updater_health_record` writes: only a service of the version that is asked for does. -/
def Update.record (u : Update) (rollback : Bool) : Health where
  releaseId := u.release.id
  version := if rollback then u.job.previousVersion else u.release.version
  coreVersion := if rollback then u.job.previousCoreVersion else u.release.coreVersion
  healthy := true
  rollback

/-- The files, the registry and the service. The last fields are not stored anywhere: they remember
what has happened. -/
structure World where
  /-- `device-state.dat` -/
  deviceState : Option Bytes
  /-- `device-state.backup` -/
  backup : Option Bytes
  journal : Option Journal
  current : Option Result
  health : Option Health
  /-- The version that is registered with the installer. -/
  registered : Bytes
  /-- The installer is at work. -/
  installer : Bool := false
  /-- The service may still answer a request for the health after a rollback. -/
  asked : Bool := false
  /-- The helper has been started to apply the update. -/
  applied : Bool := false
  /-- The service has been stopped since then. -/
  halted : Bool := false
  /-- What `device-state.dat` was when the service was stopped, as long as nobody has started it. -/
  stopped : Option (Option Bytes) := none
  /-- What `device-state.dat` was when it was backed up. -/
  saved : Option (Option Bytes) := none
  /-- What the backup and the journal said when the phase `backed_up` was written. -/
  recorded : Option (Option Bytes) := none
  /-- The state has been put back. -/
  restored : Bool := false

/-! ### Operations -/

/-- What is only looked at, and may fail. -/
inductive Probe
  | directories | self | lock | job | manifest | data | serviceBinary | serviceTrusted | package
  | logging | helper | random

inductive File
  | journal | backup | health | log | current

inductive Op
  | probe (p : Probe)
  | now
  | installerIdle
  | readJournal
  | readHealth
  | readCurrent
  | registeredVersion
  | serviceState (start : Bool)
  | hello
  | health (rollback : Bool)
  | writeJob
  | writeJournal (j : Journal)
  | writeResult (r : Result)
  | remove (file : File)
  | backUp
  | restoreState
  | removeState
  | startInstaller
  | awaitInstaller
  | launch

abbrev Reply : Op → Type
  | .now => ℤ
  | .installerIdle => Bool
  | .readJournal => Except String (Option Journal)
  | .readHealth => Except String Health
  | .readCurrent => Option Result
  | .registeredVersion => Except String Bytes
  | .hello => Except String Bytes
  | .health _ => Except String (Bytes × Bool)
  | .backUp => Except String Bool
  | .startInstaller => Unit
  | .awaitInstaller => ℕ
  | _ => Except String Unit

/-- What an operation meets: an error, or else what it cannot know beforehand. -/
structure Choice where
  fault : Option String := none
  code : ℕ := 0
  time : ℤ := 0
  idle : Bool := true
  version : Bytes := []
  healthy : Bool := true
  /-- Whether the service has written its record. -/
  recorded : Bool := true

/-- An operation that changes nothing if it fails. -/
def Choice.run {α : Type} (x : Choice) (w : World) (done : Except String α × World) :
    Option (Except String α × World) :=
  match x.fault with
  | some e => some (.error e, w)
  | none => some done

def stateLimit : ℕ := 16 * 1024 * 1024

def storageFailed : String := "UPDATE_STORAGE_FAILED"

/-- A journal is written; with the phase `backed_up` it vouches for the backup. -/
def World.writeJournal (w : World) (j : Journal) : World :=
  { w with
    journal := some j
    recorded := if j.phase = .backedUp then some (if j.stateExisted then w.backup else none)
      else w.recorded }

def World.remove (w : World) : File → World
  | .journal => { w with journal := none }
  | .backup => { w with backup := none }
  | .health => { w with health := none }
  | .log => w
  | .current => { w with current := none }

/-- `sbw_update_copy` of `device-state.dat`, which may be missing. -/
def World.backUp (w : World) : Except String Bool × World :=
  match w.deviceState with
  | none => (.ok false, { w with saved := some none })
  | some content =>
    if content.length > stateLimit then (.error storageFailed, w)
    else (.ok true, { w with backup := some content, saved := some (some content) })

/-- `sbw_update_copy` to `device-state.dat` -/
def World.restoreState (w : World) : Except String Unit × World :=
  match w.backup with
  | none => (.error storageFailed, w)
  | some content =>
    if content.length > stateLimit then (.error storageFailed, w)
    else (.ok (), { w with deviceState := some content, restored := true, stopped := none })

/-- A service is asked for its health; it may write its record even if no answer comes back. -/
def World.askHealth (u : Update) (w : World) (rollback recorded : Bool) : World :=
  { w with
    health := if recorded then some (u.record rollback) else w.health
    asked := w.asked || rollback }

/-- What an operation answers, and the state after it. The end of an installation that is still at
work cannot be seen. -/
def act (u : Update) (x : Choice) (w : World) : (o : Op) → Option (Reply o × World)
  | .probe _ => x.run w (.ok (), w)
  | .now => some (x.time, w)
  | .installerIdle => some (x.idle && !w.installer, w)
  | .readJournal => x.run w (.ok w.journal, w)
  | .readHealth => x.run w (w.health.elim (.error storageFailed) .ok, w)
  | .readCurrent => some (if x.fault.isSome then none else w.current, w)
  | .registeredVersion => x.run w (.ok w.registered, w)
  | .serviceState true => x.run { w with stopped := none } (.ok (), { w with stopped := none })
  | .serviceState false => x.run w (.ok (), { w with
      asked := false, halted := true, stopped := some w.deviceState })
  | .hello => x.run w (.ok x.version, w)
  | .health rollback =>
    let w' := w.askHealth u rollback x.recorded
    x.run w' (.ok (x.version, x.healthy), w')
  | .writeJob => x.run w (.ok (), { w with
      applied := false, halted := false, stopped := none, saved := none, recorded := none, restored := false })
  | .writeJournal j => x.run w (.ok (), w.writeJournal j)
  | .writeResult r => x.run w (.ok (), { w with current := some r })
  | .remove file => x.run w (.ok (), w.remove file)
  | .backUp => x.run w w.backUp
  | .restoreState => x.run w w.restoreState
  | .removeState => x.run w (.ok (), { w with deviceState := none, restored := true, stopped := none })
  | .startInstaller => some ((), { w with installer := true, stopped := none })
  | .awaitInstaller => if w.installer then none else some (x.code, w)
  | .launch => x.run w (.ok (), w)

/-- What others may do: the service changes its state while it runs, both services record their
health when they are asked, and an installer at work registers one of the two versions. -/
structure Rely (u : Update) (w w' : World) : Prop where
  journal : w'.journal = w.journal
  backup : w'.backup = w.backup
  current : w'.current = w.current
  applied : w'.applied = w.applied
  halted : w'.halted = w.halted
  saved : w'.saved = w.saved
  recorded : w'.recorded = w.recorded
  restored : w'.restored = w.restored
  registered : w'.registered = w.registered ∨ w.installer = true ∧
    (w'.registered = u.job.previousVersion ∨ w'.registered = u.release.version)
  installer : w'.installer = true → w.installer = true
  asked : w'.asked = true → w.asked = true
  health : w'.health = w.health ∨ w'.health = some (u.record false) ∨
    w.asked = true ∧ w'.health = some (u.record true)
  stopped : w'.stopped = none ∨ w'.stopped = w.stopped ∧ w'.deviceState = w.deviceState

/-! ### The functions -/

/-- A function that may fail with an error code. -/
abbrev Fn := Prog Op Reply String

def probe (p : Probe) : Fn Unit := Prog.perform (.probe p) >>= Prog.ofExcept
def readJournal : Fn (Option Journal) := Prog.perform .readJournal >>= Prog.ofExcept
def readHealth : Fn Health := Prog.perform .readHealth >>= Prog.ofExcept
def serviceState (start : Bool) : Fn Unit := Prog.perform (.serviceState start) >>= Prog.ofExcept
def remove (file : File) : Fn Unit := Prog.perform (.remove file) >>= Prog.ofExcept
def backUp : Fn Bool := Prog.perform .backUp >>= Prog.ofExcept
def hello : Fn Bytes := Prog.perform .hello >>= Prog.ofExcept
def askHealth (rollback : Bool) : Fn (Bytes × Bool) :=
  Prog.perform (.health rollback) >>= Prog.ofExcept
def launch : Fn Unit := Prog.perform .launch >>= Prog.ofExcept

/-- `sbw_update_registered_version` -/
def registeredVersion : Fn Bytes := Prog.perform .registeredVersion >>= Prog.ofExcept

variable (u : Update)

/-- `health_rpc`; the service is greeted until it answers or the time is up. -/
def healthRpc (expected : Bytes) (rollback : Bool) : Fn Unit := do
  let version ← hello.result
  if version.toOption ≠ some expected then .throw "UPDATE_VERSION_MISMATCH"
  else
    let job ← (probe .job).result
    if job.isOk = false ∨ u.job.healthNonce.length ≠ 64 then .throw "UPDATE_JOB_INVALID"
    else
      let answer ← askHealth rollback
      if answer.2 = false ∨ answer.1 ≠ expected then .throw "UPDATE_HEALTH_FAILED" else pure ()

/-- `write_journal` -/
def writeJournal (phase : Phase) (stateExisted : Bool) (code : ℕ) : Fn Unit :=
  Prog.perform (.writeJournal ⟨u.release.id, phase, stateExisted, code⟩) >>= Prog.ofExcept

def errorInstallFailure : ℕ := 1603
def errorSuccessRebootRequired : ℕ := 3010
def errorSuccessRebootInitiated : ℕ := 1641

/-- `write_result` -/
def writeResult (id version : Bytes) (phase : Outcome) (code : ℕ) (restored : Bool) (failure : String) :
    Fn Unit := do
  let finishedAt ← Prog.perform .now
  Prog.perform (.writeResult {
    releaseId := id, version, phase, installerCode := code, stateRestored := restored
    rebootRequired := code == errorSuccessRebootRequired || code == errorSuccessRebootInitiated
    errorCode := failure, finishedAt }) >>= Prog.ofExcept

/-- The state as it was before the update. -/
def putBack (existed : Bool) : Fn Unit :=
  if existed then Prog.perform .restoreState >>= Prog.ofExcept
  else Prog.perform .removeState >>= Prog.ofExcept

/-- `restore_previous` -/
def restorePrevious (existed : Bool) (code : ℕ) (original : String) : Fn Unit := do
  let installed ← registeredVersion.result
  if installed.toOption ≠ some u.job.previousVersion then .throw "UPDATE_ROLLBACK_UNCONFIRMED"
  else
    serviceState false
    writeJournal u .restoring existed code
    putBack existed
    serviceState true
    probe .serviceBinary
    healthRpc u u.job.previousVersion true
    writeResult u.release.id u.release.version .rolledBack code true original
    writeJournal u .complete existed code

/-- The variables of `sbw_update_helper_main` at the label `terminal`. -/
structure Locals where
  error : String := ""
  /-- The manifest has been verified. -/
  known : Bool := true
  existed : Bool := false
  backup : Bool := false
  stopped : Bool := false
  restoreAttempted : Bool := false
  code : ℕ := errorInstallFailure

/-- The part of `sbw_update_helper_main` before that label. -/
abbrev Body := Prog Op Reply Locals

/-- Go to `terminal` if a function fails. -/
def need {α : Type} (l : Locals) (p : Fn α) : Body α := p.handle fun e => .throw { l with error := e }

/-- A record of the health of the new version. -/
def healthChecked (h : Health) : Bool :=
  h.releaseId == u.release.id && h.version == u.release.version && h.healthy && !h.rollback

/-- A recovery that finds the new version. -/
def confirm (l : Locals) : Body ℕ := do
  let health ← readHealth.result
  let binary ← (probe .serviceBinary).result
  match binary, health with
  | .error e, _ => .throw { l with error := e }
  | .ok (), .error e => .throw { l with error := e }
  | .ok (), .ok h =>
    if healthChecked u h = false then .throw l
    else
      need l (serviceState true)
      need l (healthRpc u u.release.version false)
      match ← (writeResult u.release.id u.release.version .succeeded 0 false "").result with
      | .error _ => pure 1
      | .ok () =>
        let _ ← (writeJournal u .complete l.existed 0).result
        pure 0

/-- The state is put back, or the helper goes to `terminal` without another attempt. -/
def undo (l : Locals) (original : String) : Body ℕ := do
  match ← (restorePrevious u l.existed l.code original).result with
  | .ok () => pure 1
  | .error e => .throw { l with restoreAttempted := true, error := e }

/-- A recovery that finds the installation never started. -/
def abandon (l : Locals) : Body ℕ := do
  need l (probe .serviceBinary)
  need l (serviceState true)
  need l (healthRpc u u.appVersion true)
  let _ ← (writeResult u.release.id u.release.version .failed l.code false "UPDATE_INTERRUPTED").result
  pure 1

/-- The branch of `--recover`. -/
def recover : Body ℕ := do
  -- the helper polls for ten minutes; this is its last look
  if (← Prog.perform .installerIdle) = false then .throw { error := "UPDATE_INSTALLER_BUSY" }
  else
    let journal ← need {} readJournal
    if journal.any fun j => j.releaseId != u.release.id then .throw {}
    else
      let l : Locals := {
        existed := journal.any (·.stateExisted), backup := journal.any (·.phase.hasBackup) }
      let installed ← need l registeredVersion
      if installed = u.release.version then confirm u l
      else if installed ≠ u.appVersion then .throw { l with error := "UPDATE_ROLLBACK_UNCONFIRMED" }
      else if l.backup then undo u l "UPDATE_INTERRUPTED"
      else if journal.any (·.phase == .complete) then .throw { l with error := "UPDATE_JOURNAL_INVALID" }
      else abandon u l

/-- The end of `--apply`, when the installer has come back. -/
def installed (l : Locals) : Body ℕ := do
  if l.code = 0 ∨ l.code = errorSuccessRebootRequired ∨ l.code = errorSuccessRebootInitiated then
    let health ← readHealth.result
    if health.toOption.all fun h => !(healthChecked u h && h.coreVersion == u.release.coreVersion) then
      .throw { l with error := "UPDATE_HEALTH_UNCONFIRMED" }
    else
      let active ← registeredVersion.result
      if active.toOption ≠ some u.release.version then
        .throw { l with error := "UPDATE_HEALTH_UNCONFIRMED" }
      else
        need l (writeResult u.release.id u.release.version .succeeded l.code false "")
        let _ ← (writeJournal u .complete l.existed l.code).result
        pure 0
  else undo u l "UPDATE_INSTALLER_FAILED"

/-- From the journal of phase `backed_up` to the installer. -/
def runInstaller (l : Locals) : Body ℕ := do
  need l (remove .log)
  need l ((probe .logging).handle fun _ => .throw "UPDATE_LOG_FAILED")
  need l (writeJournal u .installing l.existed l.code)
  Prog.perform Op.startInstaller
  let code ← Prog.perform .awaitInstaller
  installed u { l with code }

/-- Without a state to back up, an old backup is removed. -/
def dropBackup (l : Locals) : Body Unit :=
  if l.existed then pure () else need l (remove .backup)

/-- From where the state is backed up. -/
def backUpAndInstall (l : Locals) : Body ℕ := do
  need l (writeJournal u .serviceStopped false l.code)
  let existed ← need l backUp
  dropBackup { l with existed }
  need { l with existed } (writeJournal u .backedUp existed l.code)
  runInstaller u { l with existed, backup := true }

/-- The branch of `--apply`. -/
def apply : Body ℕ := do
  let l : Locals := {}
  let version ← registeredVersion.result
  if version.toOption ≠ some u.appVersion ∨ releaseCompare u.release.version u.appVersion ≠ some .gt ∨
      (releaseCompare u.appVersion u.release.minimumAppVersion).all (· == .lt) then
    .throw { l with error := "UPDATE_VERSION_MISMATCH" }
  else
    need l (probe .serviceBinary)
    need l (probe .serviceTrusted)
    need l (probe .package)
    need l (writeJournal u .prepared false l.code)
    need l (remove .health)
    need l (serviceState false)
    backUpAndInstall u { l with stopped := true }

/-- The job is the one for this release and this helper. -/
def jobValid (recovering : Bool) (now₁ now₂ : ℤ) : Bool :=
  u.job.healthNonce.length == 64 && u.job.releaseId == u.release.id &&
    u.job.previousVersion == u.appVersion && u.job.previousCoreVersion == u.coreVersion &&
    (recovering || (decide (0 ≤ now₁ - u.job.createdAt) && decide (now₂ - u.job.createdAt ≤ 300)))

/-- `sbw_update_helper_main`, up to the label `terminal`. -/
def body (recovering : Bool) : Body ℕ := do
  need { known := false } (probe .job)
  need { known := false } (probe .manifest)
  let now₁ ← Prog.perform .now
  let now₂ ← Prog.perform .now
  if jobValid u recovering now₁ now₂ = false then .throw { error := "UPDATE_JOB_INVALID" }
  else
    need {} (probe .data)
    if recovering then recover u else apply u

/-- The release that an earlier result was about. -/
def prior : Option Result → Option (Bytes × Bytes)
  | none => none
  | some r =>
    if r.releaseId.length == 64 && (r.releaseId.all fun c => isDigit c || (0x61 ≤ c && c ≤ 0x66)) &&
        (releaseVersion r.version).isSome
    then some (r.releaseId, r.version)
    else none

/-- A service that was stopped, and has nothing to get back, is started again. -/
def wake (l : Locals) : Prog Op Reply Empty Unit := do
  if l.stopped && !l.backup then
    let _ ← (serviceState true).result
    let _ ← (healthRpc u u.appVersion true).result
    pure ()
  else pure ()

/-- The release that the result is about. -/
def reportName (l : Locals) : Prog Op Reply Empty (Option (Bytes × Bytes)) :=
  if l.known then pure (some (u.release.id, u.release.version))
  else do
    let r ← Prog.perform .readCurrent
    pure (prior r)

/-- The result that is left when the update could not be finished. -/
def report (recovering : Bool) (l : Locals) : Prog Op Reply Empty ℕ := do
  match ← reportName u l with
  | none => pure 1
  | some (id, version) =>
    wake u l
    let phase := if l.backup || recovering then Outcome.recoveryRequired else .failed
    let _ ← (writeResult id version phase l.code false l.error).result
    pure 1

/-- From the label `terminal` on. -/
def terminal (recovering : Bool) (l : Locals) : Prog Op Reply Empty ℕ := do
  if l.backup && !l.restoreAttempted then
    match ← (restorePrevious u l.existed l.code l.error).result with
    | .ok () => pure 1
    | .error e => report u recovering { l with error := e }
  else report u recovering l

/-- `sbw_update_helper_main`: another helper that holds the lock makes it end at once. -/
def helperMain (recovering : Bool) : Prog Op Reply Empty ℕ := do
  match ← (do probe .directories; probe .self; probe .lock : Fn Unit).result with
  | .error _ => pure 1
  | .ok () => (body u recovering).handle (terminal u recovering)

/-- The files that `sbw_updater_install` leaves behind before it starts the helper. -/
def install : Fn Unit := do
  let version ← registeredVersion
  if version ≠ u.job.previousVersion then .throw "UPDATE_VERSION_MISMATCH"
  else
    probe .package
    probe .helper
    remove .journal
    remove .backup
    remove .health
    probe .random
    Prog.perform .writeJob >>= Prog.ofExcept
    Prog.perform (.writeResult {
      releaseId := u.release.id, version := u.release.version, phase := .installing }) >>= Prog.ofExcept
    launch.handle fun e => do
      let _ ← (remove .current).result
      .throw e

end SbEasy.WinUpdate

import SbEasy.AuthCrypto
import SbEasy.Clocked

/-!
`auth_security.c`: sessions, one-time codes and login challenges.

Every call holds the lock of the database. A statement that fails ends its call, which has then
changed nothing, except that what `mfa_verify_locked` has written is committed when it returns
false: the count of a rejected code, and a recovery code if the statement after it fails.
-/

namespace SbEasy.Auth

open Store (uniqueFailed)

/-- `auth_sessions`, in the order of their row numbers. -/
structure Session where
  id : Bytes
  userId : Bytes
  tokenHash : Bytes
  method : Bytes
  clientLabel : Bytes
  createdAt : ℤ
  expiresAt : ℤ
  lastSeenAt : ℤ
  revokedAt : Option ℤ := none
  deriving DecidableEq

/-- `auth_mfa`, with the defaults of the table. -/
structure Mfa where
  userId : Bytes
  secretEnc : Option Bytes := none
  pendingEnc : Option Bytes := none
  pendingUntil : ℤ := 0
  lastStep : ℤ := -1
  failedAttempts : ℤ := 0
  lockedUntil : ℤ := 0
  deriving DecidableEq

/-- `auth_recovery_codes` -/
structure RecoveryCode where
  userId : Bytes
  codeHash : Bytes
  usedAt : Option ℤ := none
  deriving DecidableEq

/-- `auth_login_challenges`, in the order of their row numbers. -/
structure Challenge where
  challengeHash : Bytes
  bindingHash : Option Bytes
  userId : Bytes
  method : Bytes
  expiresAt : ℤ
  deriving DecidableEq

structure Db where
  users : List User
  sessions : List Session
  mfa : List Mfa
  recovery : List RecoveryCode
  challenges : List Challenge
  deriving DecidableEq

abbrev Op := Tx (Clocked Db) Err

namespace Db

def mfaOf (db : Db) (userId : Bytes) : Option Mfa := db.mfa.find? (·.userId == userId)

/-- Whether a user has a second factor. -/
def mfaEnabled (db : Db) (userId : Bytes) : Bool :=
  db.mfa.any fun m => m.userId == userId && m.secretEnc.isSome

end Db

def updateSessions (p : Session → Bool) (f : Session → Session) : Op Unit :=
  Clocked.update fun db => { db with sessions := Table.update p f db.sessions }

def setRecovery (f : List RecoveryCode → List RecoveryCode) : Op Unit :=
  Clocked.update fun db => { db with recovery := f db.recovery }

def setChallenges (f : List Challenge → List Challenge) : Op Unit :=
  Clocked.update fun db => { db with challenges := f db.challenges }

def updateMfa (userId : Bytes) (f : Mfa → Mfa) : Op Unit :=
  Clocked.update fun db => { db with mfa := Table.update (·.userId == userId) f db.mfa }

/-- `required_user_locked` -/
def requiredUserLocked (userId : Bytes) : Op Unit := do
  let exists_ ← Clocked.query fun db => db.users.any (·.id == userId)
  Tx.require exists_ ⟨.notFound, "User not found"⟩

variable [Platform] [Crypto] (s : Security)

/-! ### Sessions -/

/-- The sessions of a user that are kept: the hundred most recent ones. -/
def recentSessions (userId : Bytes) (t : List Session) : List Session :=
  ((t.filter (·.userId == userId)).reverse.insertionSort fun a b => b.createdAt ≤ a.createdAt).take 100

/-- The sessions that stay when a user has got a new one. -/
def tidySessions (userId : Bytes) (now : ℤ) (t : List Session) : List Session :=
  t.filter fun r => !(decide (r.expiresAt < now - 86400) ||
    (r.userId == userId && !(recentSessions userId t).any (·.id == r.id)))

/-- `issue_locked`, on the bytes drawn for the identifier of the session. -/
def issueLocked (userId method : Bytes) (clientLabel : Option Bytes) (mfaCompleted : Bool)
    (raw : Bytes) (d : ℕ) : Op Bytes := do
  Tx.require (token method 32 && labelValid clientLabel) ⟨.validation, "Invalid session details"⟩
  requiredUserLocked userId
  let user ← Clocked.query fun db => db.users.find? (·.id == userId)
  match user with
  | none => throw ⟨.auth, "User is unavailable"⟩
  | some user =>
    let enabled ← Clocked.query fun db => db.mfaEnabled userId
    Tx.require (!(enabled && !mfaCompleted)) ⟨.auth, "MFA is required; restart login"⟩
    let id := random raw
    let now ← Clocked.clock d
    let text := signed s (payload user id now)
    let row := Session.mk id userId (hash s (lit "session") text) method (clientLabel.getD []) now
      (now + sessionSeconds) now none
    let db ← Clocked.query fun db => db
    Tx.require (!db.sessions.any fun r => r.id == row.id) (uniqueFailed "auth_sessions.id")
    Tx.require (!db.sessions.any fun r => r.tokenHash == row.tokenHash)
      (uniqueFailed "auth_sessions.token_hash")
    Clocked.update fun db => { db with sessions := tidySessions userId now (db.sessions ++ [row]) }
    pure text

/-- `sb_auth_security_issue` -/
def issue (userId method : Bytes) (clientLabel : Option Bytes) (raw : Bytes) (d : ℕ) : Op Bytes :=
  Clocked.transaction (issueLocked s userId method clientLabel false raw d)

/-- A session that is neither revoked nor expired. -/
def live (now : ℤ) (r : Session) : Bool := r.revokedAt.isNone && decide (now < r.expiresAt)

/-- `sb_auth_security_verify` -/
def verify (text : Bytes) (d₁ d₂ d₃ : ℕ) : Op Claims := do
  let invalid : Err := ⟨.auth, "Invalid or expired session"⟩
  let now ← Clocked.clock d₁
  match if text.length ≤ 16384 then verifyToken s text now else none with
  | none => throw invalid
  | some claims =>
    let hashed := hash s (lit "session") text
    let now ← Clocked.clock d₂
    let row ← Clocked.query fun db => db.sessions.find? fun r =>
      r.tokenHash == hashed && r.userId == claims.subject && live now r &&
        db.users.any (·.id == r.userId)
    match row with
    | none => throw invalid
    | some row =>
      let user ← Clocked.query fun db => db.users.find? (·.id == row.userId)
      match user with
      | none => throw invalid
      | some user =>
        let now ← Clocked.clock d₃
        updateSessions (fun r => r.tokenHash == hashed && decide (r.lastSeenAt < now - 60))
          fun r => { r with lastSeenAt := now }
        pure { claims with username := user.username, role := user.role }

/-- `revoke_locked` -/
def revokeLocked (userId : Bytes) (sessionId keepToken : Option Bytes) (d : ℕ) : Op Unit := do
  let keep := keepToken.map (hash s (lit "session"))
  let now ← Clocked.clock d
  updateSessions (fun r => r.userId == userId && r.revokedAt.isNone &&
      (sessionId.isNone || sessionId == some r.id) && (keep.isNone || keep != some r.tokenHash))
    fun r => { r with revokedAt := some now }

/-- `clear_challenges_locked` -/
def clearChallengesLocked (userId : Bytes) : Op Unit :=
  setChallenges fun t => t.filter (·.userId != userId)

/-- `sb_auth_security_revoke` -/
def revoke (userId : Bytes) (sessionId keepToken : Option Bytes) (d : ℕ) : Op Unit :=
  Clocked.transaction do
    revokeLocked s userId sessionId keepToken d
    if sessionId.isNone then clearChallengesLocked userId else pure ()

/-- `sb_auth_security_logout` -/
def logout (text : Bytes) (d : ℕ) : Op Unit := do
  Tx.require (decide (text.length ≤ 16384)) ⟨.auth, "Invalid session"⟩
  let hashed := hash s (lit "session") text
  let now ← Clocked.clock d
  updateSessions (fun r => r.tokenHash == hashed && r.revokedAt.isNone)
    fun r => { r with revokedAt := some now }

/-! ### One-time codes -/

def mfaPendingSeconds : ℤ := 600
def mfaLockSeconds : ℤ := 300

/-- `mfa_purpose` and `recovery_hash` -/
def mfaPurpose (userId : Bytes) : Bytes := lit "totp:" ++ userId
def recoveryHash (userId code : Bytes) : Bytes := hash s (lit "recovery:" ++ userId) code

/-- The statements of a call that hands in a code: the four of `mfa_verify_locked`, and those that
follow it. -/
inductive CodeStmt
  | select
  | spend
  | count
  | accept
  | later
  deriving DecidableEq

/-- The statement of a call that fails, with the error of SQLite. -/
abbrev Fault := Option (CodeStmt × Err)

def Fault.hits (fault : Fault) (stmt : CodeStmt) : Option Err :=
  fault.bind fun f => if f.1 = stmt then some f.2 else none

/-- What `mfa_verify_locked` makes of a code: it is not looked at, it is wrong, it is wrong and could
not be counted, it cannot be compared, it fits and that could not be written, or it is accepted
with its time step, or -1 if it is a recovery code. -/
inductive Verdict
  | refused (err : Err)
  | rejected
  | uncounted (err : Err)
  | unavailable (err : Err)
  | unwritten (err : Err)
  | accepted (step : ℤ)
  deriving DecidableEq

/-- A statement of `mfa_verify_locked` and what follows it. -/
def unlessFails (fault : Fault) (stmt : CodeStmt) (failed : Err → Verdict) (m : Op Verdict) :
    Op Verdict :=
  match fault.hits stmt with
  | some err => pure (failed err)
  | none => m

/-- `mfa_failed_locked` -/
def mfaFailedLocked (userId : Bytes) (now : ℤ) (fault : Fault) : Op Verdict :=
  unlessFails fault .count .uncounted do
    updateMfa userId fun m =>
      { m with
        failedAttempts := if m.failedAttempts ≥ 4 then 0 else m.failedAttempts + 1
        lockedUntil := if m.failedAttempts ≥ 4 then now + mfaLockSeconds else 0 }
    pure .rejected

/-- The error of a code that is not accepted. -/
def Verdict.err : Verdict → Err
  | .refused err => err
  | .rejected => ⟨.auth, "Invalid or already used verification code"⟩
  | .uncounted err => err
  | .unavailable err => err
  | .unwritten err => err
  | .accepted _ => ⟨.generic, ""⟩

/-- What is checked before the code is looked at, for the enabled or the pending secret. -/
def gate (row : Option Mfa) (pending : Bool) (now : ℤ) : Except Err (Mfa × Bytes) :=
  let absent := Except.error
    ⟨.auth, if pending then "MFA setup has expired" else "MFA is not enabled"⟩
  match row with
  | none => absent
  | some m =>
    match if pending then m.pendingEnc else m.secretEnc with
    | none => absent
    | some encrypted =>
      if pending ∧ m.pendingUntil ≤ now then absent
      else if m.lockedUntil > now then
        .error ⟨.auth, "Verification temporarily locked; try again later"⟩
      else .ok (m, encrypted)

/-- The time step that a code belongs to, the latest of three, or -1. -/
def matchedStep (secret code : Bytes) (pending : Bool) (lastStep now : ℤ) : ℤ :=
  if code.length = 6 then
    [-1, 0, 1].foldl (fun matched delta =>
      let step := now.tdiv 30 + delta
      if 0 ≤ step ∧ (pending = true ∨ lastStep < step) ∧
          totpCode secret (step * 30) 6 = .ok code then step
      else matched) (-1)
  else -1

/-- The recovery codes of a user with a hash that have not been used. -/
def unused (userId hashed : Bytes) (r : RecoveryCode) : Bool :=
  r.userId == userId && r.codeHash == hashed && r.usedAt.isNone

/-- Mark a recovery code as used, if one is to be tried, and say whether there was one. -/
def useRecovery (tried : Bool) (userId hashed : Bytes) (now : ℤ) : Op Bool := do
  if tried then
    let changes ← Clocked.query fun db => db.recovery.countP (unused userId hashed)
    setRecovery (Table.update (unused userId hashed) fun r => { r with usedAt := some now })
    pure (changes == 1)
  else pure false

/-- The part of `mfa_verify_locked` that looks at the code, once the gate has been passed. -/
def compareLocked (userId code : Bytes) (pending : Bool) (m : Mfa) (encrypted : Bytes) (now : ℤ)
    (fault : Fault) : Op Verdict := do
  if !token code 128 then mfaFailedLocked userId now fault
  else
    match decrypt s (mfaPurpose userId) encrypted with
    | .error err => pure (.unavailable err)
    | .ok secret =>
      let matched := matchedStep secret code pending m.lastStep now
      let tried := decide (matched < 0) && !pending
      unlessFails (if tried then fault else none) .spend .unavailable do
        let recovery ← useRecovery tried userId (recoveryHash s userId code) now
        if matched < 0 ∧ recovery = false then mfaFailedLocked userId now fault
        else
          unlessFails fault .accept .unwritten do
            let last := if pending then m.lastStep else if recovery then m.lastStep else matched
            updateMfa userId fun m =>
              { m with lastStep := last, failedAttempts := 0, lockedUntil := 0 }
            pure (.accepted matched)

/-- `mfa_verify_locked` -/
def mfaVerifyLocked (userId code : Bytes) (pending : Bool) (d : ℕ) (fault : Fault) : Op Verdict := do
  if !token userId 256 then pure (.refused ⟨.auth, "Invalid user"⟩)
  else
    let now ← Clocked.clock d
    unlessFails fault .select .refused do
      let row ← Clocked.query fun db => db.mfaOf userId
      match gate row pending now with
      | .error err => pure (.refused err)
      | .ok (m, encrypted) => compareLocked s userId code pending m encrypted now fault

/-- Go on with an accepted code; what was written for another one is kept. -/
def withCode {α : Type} (verified : Op Verdict) (next : ℤ → Op α) : Op (Except Err α) := do
  let verdict ← verified
  match verdict with
  | .accepted step =>
    let a ← next step
    pure (Except.ok a)
  | v => pure (Except.error v.err)

/-- A transaction that is committed also if its result is an error. -/
def committed {α : Type} (m : Op (Except Err α)) : Op α := do
  let result ← Clocked.transaction m
  Tx.ofExcept result

/-- What follows the code, unless one of its statements fails. -/
def unlessLater {α : Type} (fault : Fault) (m : Op α) : Op α :=
  match fault.hits .later with
  | some err => throw err
  | none => m

/-- `sb_auth_mfa_verify` -/
def mfaVerify (userId code : Bytes) (d : ℕ) (fault : Fault) : Op Unit :=
  committed (withCode (mfaVerifyLocked s userId code false d fault) fun _ => pure ())

/-- What `sb_auth_mfa_begin` answers. -/
structure MfaSetup where
  secret : Bytes
  otpauthUri : Bytes
  expiresAt : ℤ

/-- `sb_auth_mfa_begin`, on the bytes drawn for the secret and for its encryption. -/
def mfaBegin (userId raw nonce : Bytes) (d : ℕ) : Op MfaSetup := do
  Tx.require (token userId 256) ⟨.validation, "Invalid user"⟩
  let secret := totpSecretNew raw
  let encrypted ← Tx.ofExcept (encrypt s (mfaPurpose userId) secret nonce)
  requiredUserLocked userId
  let now ← Clocked.clock d
  let until_ := now + mfaPendingSeconds
  let row := { userId := userId, pendingEnc := some encrypted, pendingUntil := until_ }
  Clocked.update fun db => { db with
    mfa := Table.upsert (·.userId == userId)
      (fun m => { m with pendingEnc := some encrypted, pendingUntil := until_ }) row db.mfa }
  pure ⟨secret, lit "otpauth://totp/sb-easy:" ++ urlEncode userId ++ lit "?secret=" ++ secret ++
    lit "&issuer=sb-easy&algorithm=SHA1&digits=6&period=30", until_⟩

/-- One of the ten rounds that give out recovery codes. -/
def addRecovery (userId raw : Bytes) : Op Bytes := do
  let code := random raw
  let hashed := recoveryHash s userId code
  let db ← Clocked.query fun db => db
  Tx.require (!db.recovery.any fun r => r.userId == userId && r.codeHash == hashed)
    (uniqueFailed "auth_recovery_codes.user_id, auth_recovery_codes.code_hash")
  setRecovery fun t => t ++ [⟨userId, hashed, none⟩]
  pure code

def addRecoveries (userId : Bytes) : List Bytes → Op (List Bytes)
  | [] => pure []
  | raw :: raws => do
    let code ← addRecovery s userId raw
    let codes ← addRecoveries userId raws
    pure (code :: codes)

/-- The part of `sb_auth_mfa_confirm` that follows the code. -/
def enableLocked (userId : Bytes) (keepToken : Option Bytes) (raws : Fin 10 → Bytes) (d : ℕ)
    (step : ℤ) : Op (List Bytes) := do
  updateMfa userId fun m => { m with
    secretEnc := m.pendingEnc, pendingEnc := none, pendingUntil := 0, lastStep := step }
  setRecovery fun t => t.filter (·.userId != userId)
  let codes ← addRecoveries s userId (List.ofFn raws)
  revokeLocked s userId none keepToken d
  clearChallengesLocked userId
  pure codes

/-- `sb_auth_mfa_confirm`, on the bytes drawn for the ten recovery codes, which it answers. -/
def mfaConfirm (userId code : Bytes) (keepToken : Option Bytes) (raws : Fin 10 → Bytes) (d₁ d₂ : ℕ)
    (fault : Fault) : Op (List Bytes) :=
  committed (withCode (mfaVerifyLocked s userId code true d₁ fault) fun step =>
    unlessLater fault (enableLocked s userId keepToken raws d₂ step))

/-- `sb_auth_mfa_disable` -/
def mfaDisable (userId : Bytes) (keepToken : Option Bytes) (d : ℕ) : Op Unit :=
  Clocked.transaction do
    requiredUserLocked userId
    Clocked.update fun db => { db with mfa := db.mfa.filter (·.userId != userId) }
    setRecovery fun t => t.filter (·.userId != userId)
    revokeLocked s userId none keepToken d
    clearChallengesLocked userId

/-! ### Login challenges -/

def challengeSeconds : ℤ := 300

/-- The challenges of a user that are kept: the nine most recent ones. -/
def recentChallenges (userId : Bytes) (t : List Challenge) : List Challenge :=
  ((t.filter (·.userId == userId)).reverse).take 9

/-- The challenges that stay when a user is to get a new one. -/
def tidyChallenges (userId : Bytes) (now : ℤ) (t : List Challenge) : List Challenge :=
  t.filter fun c => !(decide (c.expiresAt ≤ now) || (c.userId == userId &&
    !(recentChallenges userId t).any (·.challengeHash == c.challengeHash)))

/-- `sb_auth_security_challenge_bound`, on the bytes drawn for the challenge. -/
def challengeBound (userId method : Bytes) (browserBinding : Option Bytes) (raw : Bytes) (d₁ d₂ : ℕ) :
    Op Bytes := do
  Tx.require (token method 32 && browserBinding.all (token · 256))
    ⟨.validation, "Invalid login challenge"⟩
  let challenge := random raw
  let hashed := hash s (lit "login-challenge") challenge
  Clocked.transaction do
    let enabled ← Clocked.query fun db => db.mfaEnabled userId
    Tx.require enabled ⟨.auth, "MFA is not enabled"⟩
    let now ← Clocked.clock d₁
    setChallenges (tidyChallenges userId now)
    let now ← Clocked.clock d₂
    let db ← Clocked.query fun db => db
    Tx.require (!db.challenges.any fun c => c.challengeHash == hashed)
      (uniqueFailed "auth_login_challenges.challenge_hash")
    let binding := browserBinding.map (hash s (lit "login-binding"))
    setChallenges fun t => t ++ [⟨hashed, binding, userId, method, now + challengeSeconds⟩]
    pure challenge

/-- The challenge that a login answers, if it is there for this browser. -/
def challengeOf (db : Db) (challenge : Bytes) (browserBinding : Option Bytes) (now : ℤ) :
    Option Challenge :=
  (db.challenges.find? fun c => c.challengeHash == hash s (lit "login-challenge") challenge &&
    decide (now < c.expiresAt)).filter fun c =>
      c.bindingHash == browserBinding.map (hash s (lit "login-binding"))

/-- The part of `sb_auth_security_complete_bound` that follows the code. -/
def finishLocked (challenge : Bytes) (c : Challenge) (clientLabel : Option Bytes) (raw : Bytes)
    (d : ℕ) : Op Bytes := do
  setChallenges fun t => t.filter (·.challengeHash != hash s (lit "login-challenge") challenge)
  issueLocked s c.userId (c.method ++ lit "+mfa") clientLabel true raw d

/-- The transaction of `sb_auth_security_complete_bound`. -/
def completeLocked (challenge code : Bytes) (clientLabel browserBinding : Option Bytes) (raw : Bytes)
    (d₁ d₂ d₃ : ℕ) (fault : Fault) : Op (Except Err Bytes) := do
  let now ← Clocked.clock d₁
  let found ← Clocked.query fun db => challengeOf s db challenge browserBinding now
  match found with
  | none => throw ⟨.auth, "Invalid or expired login challenge"⟩
  | some c =>
    withCode (mfaVerifyLocked s c.userId code false d₂ fault) fun _ =>
      unlessLater fault (finishLocked s challenge c clientLabel raw d₃)

/-- `sb_auth_security_complete_bound`, on the bytes drawn for the identifier of the session. -/
def completeBound (challenge code : Bytes) (clientLabel browserBinding : Option Bytes) (raw : Bytes)
    (d₁ d₂ d₃ : ℕ) (fault : Fault) : Op Bytes := do
  Tx.require (token challenge 128 && labelValid clientLabel && browserBinding.all (token · 256))
    ⟨.auth, "Invalid or expired login challenge"⟩
  committed (completeLocked s challenge code clientLabel browserBinding raw d₁ d₂ d₃ fault)

/-- `sb_auth_security_change_role` -/
def changeRole (userId role : Bytes) (d : ℕ) : Op Unit := do
  Tx.require (role == lit "admin" || role == lit "operator" || role == lit "viewer")
    ⟨.validation, "Role must be admin, operator or viewer"⟩
  Clocked.transaction do
    let user ← Clocked.query fun db => db.users.find? (·.id == userId)
    match user with
    | none => throw ⟨.notFound, "User not found"⟩
    | some user =>
      let admins ← Clocked.query fun db => db.users.countP (·.role == lit "admin")
      Tx.require (!(Sbj.cstr user.role == lit "admin" && role != lit "admin" && decide (admins ≤ 1)))
        ⟨.validation, "Cannot demote the last admin"⟩
      Clocked.update fun db => { db with
        users := Table.update (·.id == userId) (fun u => { u with role := role }) db.users }
      revokeLocked s userId none none d
      clearChallengesLocked userId

end SbEasy.Auth

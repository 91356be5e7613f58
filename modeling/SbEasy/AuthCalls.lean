import SbEasy.AuthSecurity
import SbEasy.Trace

/-!
The calls of `auth_security.c` as events, and what each step inside them does.
-/

namespace SbEasy.Auth

variable [Platform] [Crypto]

/-- A call with the bytes that are drawn for it, the times that pass before it reads the clock, and
the statement that fails, if the call hands in a code. -/
inductive Call
  | issue (userId method : Bytes) (clientLabel : Option Bytes) (raw : Bytes) (d : ℕ)
  | verify (text : Bytes) (d₁ d₂ d₃ : ℕ)
  | revoke (userId : Bytes) (sessionId keepToken : Option Bytes) (d : ℕ)
  | logout (text : Bytes) (d : ℕ)
  | mfaVerify (userId code : Bytes) (d : ℕ) (fault : Fault := none)
  | mfaBegin (userId raw nonce : Bytes) (d : ℕ)
  | mfaConfirm (userId code : Bytes) (keepToken : Option Bytes) (raws : Fin 10 → Bytes) (d₁ d₂ : ℕ)
      (fault : Fault := none)
  | mfaDisable (userId : Bytes) (keepToken : Option Bytes) (d : ℕ)
  | challenge (userId method : Bytes) (browserBinding : Option Bytes) (raw : Bytes) (d₁ d₂ : ℕ)
  | complete (challenge code : Bytes) (clientLabel browserBinding : Option Bytes) (raw : Bytes)
      (d₁ d₂ d₃ : ℕ) (fault : Fault := none)
  | changeRole (userId role : Bytes) (d : ℕ)

inductive Answer
  | done
  | text (text : Bytes)
  | claims (claims : Claims)
  | setup (setup : MfaSetup)
  | codes (codes : List Bytes)

/-- A call that answers nothing but its success. -/
def done (m : Op Unit) : Op Answer := do
  m
  pure .done

def answer (s : Security) : Call → Op Answer
  | .issue userId method clientLabel raw d => .text <$> issue s userId method clientLabel raw d
  | .verify text d₁ d₂ d₃ => .claims <$> verify s text d₁ d₂ d₃
  | .revoke userId sessionId keepToken d => done (revoke s userId sessionId keepToken d)
  | .logout text d => done (logout s text d)
  | .mfaVerify userId code d fault => done (mfaVerify s userId code d fault)
  | .mfaBegin userId raw nonce d => .setup <$> mfaBegin s userId raw nonce d
  | .mfaConfirm userId code keepToken raws d₁ d₂ fault =>
    .codes <$> mfaConfirm s userId code keepToken raws d₁ d₂ fault
  | .mfaDisable userId keepToken d => done (mfaDisable s userId keepToken d)
  | .challenge userId method browserBinding raw d₁ d₂ =>
    .text <$> challengeBound s userId method browserBinding raw d₁ d₂
  | .complete challenge code clientLabel browserBinding raw d₁ d₂ d₃ fault =>
    .text <$> completeBound s challenge code clientLabel browserBinding raw d₁ d₂ d₃ fault
  | .changeRole userId role d => done (changeRole s userId role d)

def exec (s : Security) (c : Call) (w : Clocked Db) : Except Err Answer × Clocked Db :=
  Tx.exec (answer s c) w

/-- A statement of the call fails. -/
def Call.fails (stmt : CodeStmt) : Call → Bool
  | .mfaVerify _ _ _ fault => (fault.hits stmt).isSome
  | .mfaConfirm _ _ _ _ _ _ fault => (fault.hits stmt).isSome
  | .complete _ _ _ _ _ _ _ _ fault => (fault.hits stmt).isSome
  | _ => false

/-! ### Tables -/

/-- The keys of the tables are unique, and no count of failures is negative. -/
structure Valid (db : Db) : Prop where
  sessionIds : (db.sessions.map (·.id)).Nodup
  tokenHashes : (db.sessions.map (·.tokenHash)).Nodup
  mfa : (db.mfa.map (·.userId)).Nodup
  recovery : (db.recovery.map fun r => (r.userId, r.codeHash)).Nodup
  challenges : (db.challenges.map (·.challengeHash)).Nodup
  counts : ∀ m ∈ db.mfa, 0 ≤ m.failedAttempts

section

variable {u : Unit} {w w' : Clocked Db}

omit [Platform] [Crypto]

@[simp] lemma ok_updateSessions {p : Session → Bool} {f : Session → Session} :
    Tx.Ok (updateSessions p f) w u w' ↔
      w' = ⟨{ w.db with sessions := Table.update p f w.db.sessions }, w.now⟩ :=
  Clocked.ok_update

@[simp] lemma ok_setRecovery {f : List RecoveryCode → List RecoveryCode} :
    Tx.Ok (setRecovery f) w u w' ↔ w' = ⟨{ w.db with recovery := f w.db.recovery }, w.now⟩ :=
  Clocked.ok_update

@[simp] lemma ok_setChallenges {f : List Challenge → List Challenge} :
    Tx.Ok (setChallenges f) w u w' ↔ w' = ⟨{ w.db with challenges := f w.db.challenges }, w.now⟩ :=
  Clocked.ok_update

@[simp] lemma ok_updateMfa {userId : Bytes} {f : Mfa → Mfa} :
    Tx.Ok (updateMfa userId f) w u w' ↔
      w' = ⟨{ w.db with mfa := Table.update (·.userId == userId) f w.db.mfa }, w.now⟩ :=
  Clocked.ok_update

@[simp] lemma ok_requiredUserLocked {userId : Bytes} :
    Tx.Ok (requiredUserLocked userId) w u w' ↔ w.db.users.any (·.id == userId) = true ∧ w' = w := by
  simp only [requiredUserLocked, Tx.ok_bind, Clocked.ok_query, Tx.ok_require]
  constructor
  · rintro ⟨_, _, ⟨rfl, rfl⟩, h, rfl⟩
    exact ⟨h, rfl⟩
  · rintro ⟨h, rfl⟩
    exact ⟨_, _, ⟨rfl, rfl⟩, h, rfl⟩

@[simp] lemma ok_clearChallengesLocked {userId : Bytes} :
    Tx.Ok (clearChallengesLocked userId) w u w' ↔
      w' = ⟨{ w.db with challenges := w.db.challenges.filter (·.userId != userId) }, w.now⟩ :=
  ok_setChallenges

end

/-- The sessions of a user that a revocation is about, apart from one to keep. -/
def revocable (s : Security) (userId : Bytes) (sessionId keepToken : Option Bytes) (r : Session) :
    Bool :=
  let keep := keepToken.map (hash s (lit "session"))
  r.userId == userId && r.revokedAt.isNone &&
    (sessionId.isNone || sessionId == some r.id) && (keep.isNone || keep != some r.tokenHash)

/-- The sessions after a revocation. -/
def revokeSessions (s : Security) (userId : Bytes) (sessionId keepToken : Option Bytes) (now : ℤ)
    (t : List Session) : List Session :=
  Table.update (revocable s userId sessionId keepToken) (fun r => { r with revokedAt := some now }) t

section

variable {s : Security} {w w' : Clocked Db} {userId : Bytes} {sessionId keepToken : Option Bytes} {d : ℕ}

omit [Platform] in
@[simp] lemma ok_revokeLocked {u : Unit} :
    Tx.Ok (revokeLocked s userId sessionId keepToken d) w u w' ↔ w' = ⟨{ w.db with
      sessions := revokeSessions s userId sessionId keepToken (w.now + d) w.db.sessions },
      w.now + d⟩ := by
  simp only [revokeLocked, Tx.ok_bind, Clocked.ok_clock, ok_updateSessions]
  constructor
  · rintro ⟨_, _, ⟨rfl, rfl⟩, rfl⟩
    rfl
  · rintro rfl
    exact ⟨_, _, ⟨rfl, rfl⟩, rfl⟩

/-- A session that has been issued. -/
structure Issued (s : Security) (userId method : Bytes) (clientLabel : Option Bytes)
    (mfaCompleted : Bool) (raw : Bytes) (w : Clocked Db) (text : Bytes) (w' : Clocked Db) : Prop where
  allowed : w.db.mfaEnabled userId = true → mfaCompleted = true
  later : w.now ≤ w'.now
  written : ∃ user ∈ w.db.users, user.id = userId ∧ text = signed s (payload user (random raw) w'.now) ∧
    (∀ r ∈ w.db.sessions, r.id ≠ random raw) ∧
    (∀ r ∈ w.db.sessions, r.tokenHash ≠ hash s (lit "session") text) ∧
    w'.db = { w.db with sessions := tidySessions userId w'.now (w.db.sessions ++
      [⟨random raw, userId, hash s (lit "session") text, method, clientLabel.getD [], w'.now,
        w'.now + sessionSeconds, w'.now, none⟩]) }

lemma issueLocked_ok {method raw text : Bytes} {clientLabel : Option Bytes} {mfaCompleted : Bool}
    (h : Tx.Ok (issueLocked s userId method clientLabel mfaCompleted raw d) w text w') :
    Issued s userId method clientLabel mfaCompleted raw w text w' := by
  simp only [issueLocked, Tx.ok_bind, Tx.ok_require, Clocked.ok_query, ok_requiredUserLocked] at h
  obtain ⟨⟨⟩, w, ⟨-, rfl⟩, ⟨⟩, _, ⟨-, rfl⟩, user, _, ⟨huser, rfl⟩, h⟩ := h
  cases user with
  | none => exact absurd h Tx.ok_throw
  | some user =>
    simp only [Tx.ok_bind, Tx.ok_require, Tx.ok_pure, Clocked.ok_query, Clocked.ok_clock,
      Clocked.ok_update] at h
    obtain ⟨enabled, _, ⟨rfl, rfl⟩, ⟨⟩, _, ⟨hallowed, rfl⟩, now, _, ⟨hnow, rfl⟩, db, _, ⟨rfl, rfl⟩, ⟨⟩, _,
      ⟨hid, rfl⟩, ⟨⟩, _, ⟨hhash, rfl⟩, ⟨⟩, _, rfl, rfl, rfl⟩ := h
    refine ⟨fun he => by simpa [he] using hallowed, by simp only; omega, user,
      List.mem_of_find?_eq_some huser.symm, ?_, rfl, by simpa using hid, by simpa using hhash, rfl⟩
    simpa using List.find?_some huser.symm

end

end SbEasy.Auth

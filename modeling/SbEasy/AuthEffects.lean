import SbEasy.AuthVerdict

/-!
What a call does, whatever its outcome: one constructor of `Effect` for each way it can end.
-/

namespace SbEasy.Auth

/-- A code that was handed in for a user, when it was looked at, what was made of it, and how the
call ended. -/
structure Attempt where
  userId : Bytes
  code : Bytes
  pending : Bool
  time : ℤ
  verdict : Verdict
  answer : Except Err Answer

/-- The call was successful. -/
def Attempt.ok (a : Attempt) : Bool := a.answer.isOk

/-- The recovery codes that were given out. -/
def Attempt.codes (a : Attempt) : List Bytes :=
  match a.answer with
  | .ok (.codes codes) => codes
  | _ => []

section

variable [Platform] [Crypto]

/-- The verdict on a code, and its time. -/
def judge (s : Security) (userId code : Bytes) (pending : Bool) (d : ℕ) (fault : Fault)
    (w : Clocked Db) (answer : Except Err Answer) : Option Attempt :=
  match Tx.exec (mfaVerifyLocked s userId code pending d fault) w with
  | (.ok v, w') => some ⟨userId, code, pending, w'.now, v, answer⟩
  | (.error _, _) => none

/-- The code that a call hands in. -/
def attempt (s : Security) (c : Call) (w : Clocked Db) : Option Attempt :=
  let answer := (exec s c w).1
  match c with
  | .mfaVerify userId code d fault => judge s userId code false d fault w answer
  | .mfaConfirm userId code _ _ d₁ _ fault => judge s userId code true d₁ fault w answer
  | .complete challenge code clientLabel browserBinding _ d₁ d₂ _ fault =>
    if token challenge 128 && labelValid clientLabel && browserBinding.all (token · 256) then
      (challengeOf s w.db challenge browserBinding (w.now + d₁)).bind fun c => judge s c.userId code
        false d₂ fault ⟨w.db, w.now + d₁⟩ answer
    else none
  | _ => none

end

/-- The code was compared and found wrong. -/
def Verdict.wrong : Verdict → Bool
  | .rejected => true
  | .uncounted _ => true
  | _ => false

/-- A code was looked at during a call, unless the gate was closed. -/
structure Looked (w w' : Clocked Db) (a : Attempt) : Prop where
  start : w.now ≤ a.time
  stop : a.time ≤ w'.now
  gate : (∃ err, a.verdict = .refused err) ∨
    ∃ m encrypted, gate (w.db.mfaOf a.userId) a.pending a.time = .ok (m, encrypted)

/-! ### Effects -/

/-- The pending secret of a user becomes the enabled one. -/
def enableMfa (userId : Bytes) (step : ℤ) (t : List Mfa) : List Mfa :=
  Table.update (·.userId == userId) (fun m => { m with
    secretEnc := m.pendingEnc, pendingEnc := none, pendingUntil := 0, lastStep := step }) t

/-- A user is given a pending secret. -/
def beginMfa (userId encrypted : Bytes) (until_ : ℤ) (t : List Mfa) : List Mfa :=
  Table.upsert (·.userId == userId)
    (fun m => { m with pendingEnc := some encrypted, pendingUntil := until_ })
    { userId := userId, pendingEnc := some encrypted, pendingUntil := until_ } t

/-- The sessions of a token are used. -/
def seeSessions (hashed : Bytes) (now : ℤ) (t : List Session) : List Session :=
  Table.update (fun r => r.tokenHash == hashed && decide (r.lastSeenAt < now - 60))
    (fun r => { r with lastSeenAt := now }) t

/-- The session of a token is over. -/
def endSessions (hashed : Bytes) (now : ℤ) (t : List Session) : List Session :=
  Table.update (fun r => r.tokenHash == hashed && r.revokedAt.isNone)
    (fun r => { r with revokedAt := some now }) t

/-- The challenges without one. -/
def dropChallenge (hashed : Bytes) (t : List Challenge) : List Challenge :=
  t.filter (·.challengeHash != hashed)

variable [Platform] [Crypto]

/-- The rows of new recovery codes. -/
def recoveryRows (s : Security) (userId : Bytes) (codes : List Bytes) : List RecoveryCode :=
  codes.map fun code => ⟨userId, recoveryHash s userId code, none⟩

/-- What a call does to the tables, with the code it hands in and its answer. -/
inductive Effect (s : Security) (w w' : Clocked Db) :
    Call → Option Attempt → Except Err Answer → Prop
  | failed {c : Call} {e : Err} (hdb : w'.db = w.db) : Effect s w w' c none (.error e)
  | stopped {c : Call} {a : Attempt} {e : Err} (hlooked : Looked w w' a) (hanswer : a.answer = .error e)
      (hverdict : a.verdict.wrong = true → c.fails .count = true) (hdb : w'.db = w.db) :
      Effect s w w' c (some a) (.error e)
  | lost {c : Call} {a : Attempt} {e : Err} (hlooked : Looked w w' a) (hanswer : a.answer = .error e)
      (hverdict : a.verdict.wrong = false) (hfails : c.fails .accept = true)
      (hdb : w'.db = { w.db with
        recovery := spend a.userId (recoveryHash s a.userId a.code) a.time w.db.recovery }) :
      Effect s w w' c (some a) (.error e)
  | rejected {c : Call} {a : Attempt} {e : Err} (hlooked : Looked w w' a)
      (hanswer : a.answer = .error e) (hverdict : a.verdict = .rejected)
      (hdb : w'.db = { w.db with mfa := failMfa a.userId a.time w.db.mfa }) :
      Effect s w w' c (some a) (.error e)
  | issued {userId method raw text : Bytes} {clientLabel : Option Bytes} {d : ℕ}
      (h : Issued s userId method clientLabel false raw w text w') :
      Effect s w w' (.issue userId method clientLabel raw d) none (.ok (.text text))
  | seen {text : Bytes} {d₁ d₂ d₃ : ℕ} {claims : Claims} (t t' : ℤ) (ht : w.now ≤ t)
      (hrow : ∃ r ∈ w.db.sessions, r.tokenHash = hash s (lit "session") text ∧
        r.userId = claims.subject ∧ live t r = true)
      (hdb : w'.db = { w.db with
        sessions := seeSessions (hash s (lit "session") text) t' w.db.sessions }) :
      Effect s w w' (.verify text d₁ d₂ d₃) none (.ok (.claims claims))
  | revoked {userId : Bytes} {sessionId keepToken : Option Bytes} {d : ℕ} (t : ℤ)
      (hdb : w'.db = { w.db with
        sessions := revokeSessions s userId sessionId keepToken t w.db.sessions
        challenges := if sessionId.isNone then w.db.challenges.filter (·.userId != userId)
          else w.db.challenges }) :
      Effect s w w' (.revoke userId sessionId keepToken d) none (.ok .done)
  | loggedOut {text : Bytes} {d : ℕ} (t : ℤ)
      (hdb : w'.db = { w.db with
        sessions := endSessions (hash s (lit "session") text) t w.db.sessions }) :
      Effect s w w' (.logout text d) none (.ok .done)
  | verified {userId code : Bytes} {d : ℕ} {fault : Fault} {step : ℤ} {m : Mfa} (t : ℤ)
      (hlooked : Looked w w' ⟨userId, code, false, t, .accepted step, .ok .done⟩)
      (hrow : w.db.mfaOf userId = some m)
      (haccepted : Accepted s userId code false t m w.db step w'.db) :
      Effect s w w' (.mfaVerify userId code d fault)
        (some ⟨userId, code, false, t, .accepted step, .ok .done⟩) (.ok .done)
  | begun {userId raw nonce encrypted : Bytes} {d : ℕ} {setup : MfaSetup} (until_ : ℤ)
      (hdb : w'.db = { w.db with mfa := beginMfa userId encrypted until_ w.db.mfa }) :
      Effect s w w' (.mfaBegin userId raw nonce d) none (.ok (.setup setup))
  | confirmed {userId code : Bytes} {keepToken : Option Bytes} {raws : Fin 10 → Bytes} {d₁ d₂ : ℕ}
      {fault : Fault} {step : ℤ} {m : Mfa} {codes : List Bytes} (t t' : ℤ)
      (hlooked : Looked w w' ⟨userId, code, true, t, .accepted step, .ok (.codes codes)⟩)
      (hrow : w.db.mfaOf userId = some m) (hstep : 0 ≤ step)
      (hkeys : ((w.db.recovery.filter (·.userId != userId) ++ recoveryRows s userId codes).map
        fun r => (r.userId, r.codeHash)).Nodup)
      (hdb : w'.db = { w.db with
        sessions := revokeSessions s userId none keepToken t' w.db.sessions
        mfa := enableMfa userId step (acceptMfa userId m.lastStep w.db.mfa)
        recovery := w.db.recovery.filter (·.userId != userId) ++ recoveryRows s userId codes
        challenges := w.db.challenges.filter (·.userId != userId) }) :
      Effect s w w' (.mfaConfirm userId code keepToken raws d₁ d₂ fault)
        (some ⟨userId, code, true, t, .accepted step, .ok (.codes codes)⟩) (.ok (.codes codes))
  | disabled {userId : Bytes} {keepToken : Option Bytes} {d : ℕ} (t : ℤ)
      (hdb : w'.db = { w.db with
        sessions := revokeSessions s userId none keepToken t w.db.sessions
        mfa := w.db.mfa.filter (·.userId != userId)
        recovery := w.db.recovery.filter (·.userId != userId)
        challenges := w.db.challenges.filter (·.userId != userId) }) :
      Effect s w w' (.mfaDisable userId keepToken d) none (.ok .done)
  | challenged {userId method raw : Bytes} {browserBinding : Option Bytes} {d₁ d₂ : ℕ} {row : Challenge}
      (t : ℤ) (hrow : row.challengeHash = hash s (lit "login-challenge") (random raw))
      (hnew : ∀ c ∈ tidyChallenges userId t w.db.challenges, c.challengeHash ≠ row.challengeHash)
      (hdb : w'.db = { w.db with
        challenges := tidyChallenges userId t w.db.challenges ++ [row] }) :
      Effect s w w' (.challenge userId method browserBinding raw d₁ d₂) none
        (.ok (.text (random raw)))
  | completed {challenge code raw text : Bytes} {clientLabel browserBinding : Option Bytes}
      {d₁ d₂ d₃ : ℕ} {fault : Fault} {step : ℤ} {m : Mfa} {row : Challenge} {w₁ : Clocked Db} (t : ℤ)
      (hlooked : Looked w w' ⟨row.userId, code, false, t, .accepted step, .ok (.text text)⟩)
      (hchallenge : row ∈ w.db.challenges)
      (hhash : row.challengeHash = hash s (lit "login-challenge") challenge)
      (hrow : w.db.mfaOf row.userId = some m) (hsecret : m.secretEnc.isSome = true)
      (haccepted : Accepted s row.userId code false t m w.db step w₁.db)
      (hissued : Issued s row.userId (row.method ++ lit "+mfa") clientLabel true raw
        ⟨{ w₁.db with challenges := dropChallenge row.challengeHash w₁.db.challenges }, w₁.now⟩
        text w') :
      Effect s w w' (.complete challenge code clientLabel browserBinding raw d₁ d₂ d₃ fault)
        (some ⟨row.userId, code, false, t, .accepted step, .ok (.text text)⟩) (.ok (.text text))
  | roleChanged {userId role : Bytes} {d : ℕ} (t : ℤ)
      (hdb : w'.db = { w.db with
        users := Table.update (·.id == userId) (fun u => { u with role := role }) w.db.users
        sessions := revokeSessions s userId none none t w.db.sessions
        challenges := w.db.challenges.filter (·.userId != userId) }) :
      Effect s w w' (.changeRole userId role d) none (.ok .done)

/-! ### Calls without a code -/

section

variable {s : Security} {w w' : Clocked Db} {r : Except Err Answer}

lemma effect_of_ok {c : Call} (hsafe : Tx.Safe Clocked.db (answer s c)) (hnone : attempt s c w = none)
    (hok : ∀ a w', Tx.Ok (answer s c) w a w' → Effect s w w' c none (.ok a)) :
    Effect s w (exec s c w).2 c (attempt s c w) (exec s c w).1 := by
  rw [hnone]
  rcases h : exec s c w with ⟨e | a, w'⟩
  · exact .failed (hsafe w e w' h)
  · exact hok a w' h

omit [Platform] [Crypto] in
lemma ok_done {m : Op Unit} {a : Answer} : Tx.Ok (done m) w a w' ↔ a = .done ∧ Tx.Ok m w () w' := by
  simp only [done, Tx.ok_bind, Tx.ok_pure]
  constructor
  · rintro ⟨⟨⟩, _, h, rfl, rfl⟩
    exact ⟨rfl, h⟩
  · rintro ⟨rfl, h⟩
    exact ⟨(), w', h, rfl, rfl⟩

omit [Platform] [Crypto] in
lemma ok_map {α : Type} {m : Op α} {f : α → Answer} {a : Answer} :
    Tx.Ok (f <$> m) w a w' ↔ ∃ x, a = f x ∧ Tx.Ok m w x w' := by
  rw [map_eq_pure_bind]
  simp only [Tx.ok_bind, Tx.ok_pure]
  constructor
  · rintro ⟨x, _, h, rfl, rfl⟩
    exact ⟨x, rfl, h⟩
  · rintro ⟨x, rfl, h⟩
    exact ⟨x, w', h, rfl, rfl⟩

omit [Platform] [Crypto] in
lemma safe_done {m : Op Unit} (h : Tx.Safe Clocked.db m) : Tx.Safe Clocked.db (done m) := h.bind_pure

omit [Platform] [Crypto] in
lemma safe_map {α : Type} {m : Op α} {f : α → Answer} (h : Tx.Safe Clocked.db m) :
    Tx.Safe Clocked.db (f <$> m) := by
  rw [map_eq_pure_bind]
  exact h.bind_pure

lemma safe_verify {text : Bytes} {d₁ d₂ d₃ : ℕ} : Tx.Safe Clocked.db (verify s text d₁ d₂ d₃) := by
  unfold verify
  refine Clocked.quiet_clock.bind_safe fun now => ?_
  split
  · exact Tx.quiet_throw.safe
  · refine Clocked.quiet_clock.bind_safe fun now => Clocked.quiet_query.bind_safe fun row => ?_
    split
    · exact Tx.quiet_throw.safe
    · refine Clocked.quiet_query.bind_safe fun user => ?_
      split
      · exact Tx.quiet_throw.safe
      · exact Clocked.quiet_clock.bind_safe fun now => Tx.safe_modify_pure

lemma verify_ok {text : Bytes} {d₁ d₂ d₃ : ℕ} {claims : Claims}
    (h : Tx.Ok (verify s text d₁ d₂ d₃) w claims w') :
    Effect s w w' (.verify text d₁ d₂ d₃) none (.ok (.claims claims)) := by
  unfold verify at h
  obtain ⟨t₁, _, hclock, h⟩ := Tx.ok_bind.mp h
  obtain ⟨ht₁, rfl⟩ := Clocked.ok_clock.mp hclock
  split at h
  · exact absurd h Tx.ok_throw
  · simp only [Tx.ok_bind, Clocked.ok_clock, Clocked.ok_query] at h
    obtain ⟨t₂, _, ⟨ht₂, rfl⟩, row, _, ⟨hrow, rfl⟩, h⟩ := h
    cases row with
    | none => exact absurd h Tx.ok_throw
    | some row =>
      simp only [Tx.ok_bind, Clocked.ok_query] at h
      obtain ⟨user, _, ⟨-, rfl⟩, h⟩ := h
      cases user with
      | none => exact absurd h Tx.ok_throw
      | some user =>
        simp only [Tx.ok_bind, Clocked.ok_clock, ok_updateSessions, Tx.ok_pure] at h
        obtain ⟨t₃, _, ⟨ht₃, rfl⟩, ⟨⟩, _, rfl, rfl, rfl⟩ := h
        have hfound := List.find?_some hrow.symm
        simp only [Bool.and_eq_true, beq_iff_eq] at hfound
        refine .seen t₂ t₃ (by omega)
          ⟨row, List.mem_of_find?_eq_some hrow.symm, hfound.1.1.1, hfound.1.1.2, hfound.1.2⟩ rfl

lemma challenge_ok {userId method raw text : Bytes} {browserBinding : Option Bytes} {d₁ d₂ : ℕ}
    (h : Tx.Ok (challengeBound s userId method browserBinding raw d₁ d₂) w text w') :
    Effect s w w' (.challenge userId method browserBinding raw d₁ d₂) none (.ok (.text text)) := by
  simp only [challengeBound, Tx.ok_bind, Tx.ok_require, Clocked.ok_clockedTransaction, Clocked.ok_query,
    Clocked.ok_clock, ok_setChallenges, Tx.ok_pure] at h
  obtain ⟨⟨⟩, w, ⟨-, rfl⟩, enabled, _, ⟨-, rfl⟩, ⟨⟩, _, ⟨-, rfl⟩, t₁, _, ⟨ht₁, rfl⟩, ⟨⟩, _, rfl, t₂, _,
    ⟨ht₂, rfl⟩, db, _, ⟨rfl, rfl⟩, ⟨⟩, _, ⟨hnew, rfl⟩, ⟨⟩, _, rfl, rfl, rfl⟩ := h
  exact .challenged t₁ rfl (by simpa using hnew) rfl

end

end SbEasy.Auth

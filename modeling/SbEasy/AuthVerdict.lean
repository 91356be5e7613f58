import SbEasy.AuthCalls

/-!
What the verification of a one-time code does to the tables, for each of its verdicts.
-/

namespace SbEasy.Auth

variable [Crypto] {s : Security} {w w' : Clocked Db} {userId code : Bytes} {pending : Bool}
  {d : ℕ} {t : ℤ} {m : Mfa} {fault : Fault} {v : Verdict}

lemma matchedStep_cases (secret code : Bytes) (pending : Bool) (last now : ℤ) :
    matchedStep secret code pending last now = -1 ∨
      (0 ≤ matchedStep secret code pending last now ∧
        (pending = false → last < matchedStep secret code pending last now)) := by
  unfold matchedStep
  split_ifs with hlen
  · refine List.foldlRecOn (motive := fun matched => matched = -1 ∨
      (0 ≤ matched ∧ (pending = false → last < matched))) [-1, 0, 1] _ (.inl rfl) ?_
    intro matched ih delta _
    simp only
    split_ifs with h
    · exact .inr ⟨h.1, fun hp => h.2.1.resolve_left (by simp [hp])⟩
    · exact ih
  · exact .inl rfl

variable {now : ℤ} {encrypted hashed : Bytes} {stmt : CodeStmt} {failed : Err → Verdict}
  {tried : Bool}

omit [Crypto] in
lemma gate_ok {row : Option Mfa} (h : gate row pending now = .ok (m, encrypted)) :
    row = some m ∧ (if pending then m.pendingEnc else m.secretEnc) = some encrypted ∧
      m.lockedUntil ≤ now := by
  cases row with
  | none => cases h
  | some m' =>
    simp only [gate] at h
    cases he : (if pending = true then m'.pendingEnc else m'.secretEnc) with
    | none =>
      rw [he] at h
      cases h
    | some e =>
      rw [he] at h
      simp only at h
      split_ifs at h with hexpired hlocked
      cases h
      exact ⟨rfl, he, by omega⟩

/-! ### Verdicts -/

/-- The count of failures after one more. -/
def failMfa (userId : Bytes) (now : ℤ) (t : List Mfa) : List Mfa :=
  Table.update (·.userId == userId) (fun m => { m with
    failedAttempts := if m.failedAttempts ≥ 4 then 0 else m.failedAttempts + 1
    lockedUntil := if m.failedAttempts ≥ 4 then now + mfaLockSeconds else 0 }) t

/-- A code was accepted, and this is the last step now. -/
def acceptMfa (userId : Bytes) (last : ℤ) (t : List Mfa) : List Mfa :=
  Table.update (·.userId == userId) (fun m => { m with
    lastStep := last, failedAttempts := 0, lockedUntil := 0 }) t

/-- A recovery code was used. -/
def spend (userId hashed : Bytes) (now : ℤ) (t : List RecoveryCode) : List RecoveryCode :=
  Table.update (unused userId hashed) (fun r => { r with usedAt := some now }) t

/-- A code that is accepted: a time step that is open, or a recovery code that is unused. -/
inductive Accepted (s : Security) (userId code : Bytes) (pending : Bool) (t : ℤ) (m : Mfa) (db : Db) :
    ℤ → Db → Prop
  | totp (step : ℤ) (hstep : 0 ≤ step) (hopen : pending = false → m.lastStep < step) :
      Accepted s userId code pending t m db step
        { db with mfa := acceptMfa userId (if pending then m.lastStep else step) db.mfa }
  | recovery (hpending : pending = false)
      (hunused : ∃ r ∈ db.recovery, unused userId (recoveryHash s userId code) r = true) :
      Accepted s userId code pending t m db (-1)
        { db with
          mfa := acceptMfa userId m.lastStep db.mfa
          recovery := spend userId (recoveryHash s userId code) t db.recovery }

/-- What a verdict says about the tables before and after, and about the statement that fails. -/
def Judged (s : Security) (userId code : Bytes) (pending : Bool) (fault : Fault) (w : Clocked Db)
    (v : Verdict) (w' : Clocked Db) : Prop :=
  w.now ≤ w'.now ∧ ((∃ err, v = .refused err) ∧ w'.db = w.db ∨
    ∃ m encrypted, gate (w.db.mfaOf userId) pending w'.now = .ok (m, encrypted) ∧
      match v with
      | .refused _ => False
      | .rejected => w'.db = { w.db with mfa := failMfa userId w'.now w.db.mfa }
      | .uncounted _ => (fault.hits .count).isSome = true ∧ w'.db = w.db
      | .unavailable _ => w'.db = w.db
      | .unwritten _ => (fault.hits .accept).isSome = true ∧ (w'.db = w.db ∨ w'.db = { w.db with
          recovery := spend userId (recoveryHash s userId code) w'.now w.db.recovery })
      | .accepted step => Accepted s userId code pending w'.now m w.db step w'.db)

omit [Crypto] in
lemma ok_unlessFails {m : Op Verdict} : Tx.Ok (unlessFails fault stmt failed m) w v w' ↔
      (∃ err, fault.hits stmt = some err ∧ v = failed err ∧ w' = w) ∨
        fault.hits stmt = none ∧ Tx.Ok m w v w' := by
  unfold unlessFails
  cases fault.hits stmt with
  | none => simp
  | some err => simp [Tx.ok_pure]

omit [Crypto] in
lemma useRecovery_ok {b : Bool} (hw : (w.db.recovery.map fun r => (r.userId, r.codeHash)).Nodup)
    (h : Tx.Ok (useRecovery tried userId hashed now) w b w') :
    (b = true ∧ tried = true ∧ (∃ r ∈ w.db.recovery, unused userId hashed r = true) ∧
      w' = ⟨{ w.db with recovery := spend userId hashed now w.db.recovery }, w.now⟩) ∨ (b = false ∧ w' = w) := by
  cases tried with
  | false =>
    obtain ⟨rfl, rfl⟩ := Tx.ok_pure.mp h
    exact .inr ⟨rfl, rfl⟩
  | true =>
    simp only [useRecovery, if_true, Tx.ok_bind, Clocked.ok_query, ok_setRecovery, Tx.ok_pure] at h
    obtain ⟨changes, w, ⟨rfl, rfl⟩, ⟨⟩, _, rfl, rfl, rfl⟩ := h
    have hle : w.db.recovery.countP (unused userId hashed) ≤ 1 := by
      refine Table.countP_le_one (c := (userId, hashed)) hw fun r _ hr => ?_
      simp only [unused, Bool.and_eq_true, beq_iff_eq] at hr
      rw [hr.1.1, hr.1.2]
    by_cases hone : w.db.recovery.countP (unused userId hashed) = 1
    · refine .inl ⟨by simp [hone], rfl, ?_, rfl⟩
      rw [← List.countP_pos_iff]
      omega
    · refine .inr ⟨by simpa using hone, ?_⟩
      have hzero : w.db.recovery.countP (unused userId hashed) = 0 := by omega
      rw [Table.update_eq_self (List.countP_eq_zero.mp hzero)]

lemma mfaFailedLocked_ok (hgate : gate (w.db.mfaOf userId) pending w.now = .ok (m, encrypted))
    (h : Tx.Ok (mfaFailedLocked userId w.now fault) w v w') :
    Judged s userId code pending fault w v w' := by
  obtain ⟨err, herr, rfl, rfl⟩ | ⟨-, h⟩ := ok_unlessFails.mp h
  · exact ⟨le_rfl, .inr ⟨m, encrypted, hgate, by simp [herr], rfl⟩⟩
  · simp only [Tx.ok_bind, ok_updateMfa, Tx.ok_pure] at h
    obtain ⟨⟨⟩, _, rfl, rfl, rfl⟩ := h
    exact ⟨le_rfl, .inr ⟨m, encrypted, hgate, rfl⟩⟩

lemma compareLocked_ok (hw : Valid w.db)
    (hgate : gate (w.db.mfaOf userId) pending w.now = .ok (m, encrypted))
    (h : Tx.Ok (compareLocked s userId code pending m encrypted w.now fault) w v w') :
    Judged s userId code pending fault w v w' := by
  unfold compareLocked at h
  by_cases htoken : token code 128 = true
  swap
  · rw [if_pos (by simpa using htoken)] at h
    exact mfaFailedLocked_ok hgate h
  simp only [htoken, Bool.not_true, Bool.false_eq_true, if_false] at h
  cases hdecrypt : decrypt s (mfaPurpose userId) encrypted with
  | error err =>
    rw [hdecrypt] at h
    obtain ⟨rfl, rfl⟩ := Tx.ok_pure.mp h
    exact ⟨le_rfl, .inr ⟨m, encrypted, hgate, rfl⟩⟩
  | ok secret =>
    rw [hdecrypt] at h
    have hcases := matchedStep_cases secret code pending m.lastStep w.now
    simp only at h
    generalize matchedStep secret code pending m.lastStep w.now = matched at h hcases
    obtain ⟨err, -, rfl, rfl⟩ | ⟨-, h⟩ := ok_unlessFails.mp h
    · exact ⟨le_rfl, .inr ⟨m, encrypted, hgate, rfl⟩⟩
    obtain ⟨recovery, w₁, hrecovery, h⟩ := Tx.ok_bind.mp h
    obtain ⟨rfl, htried, hunused, rfl⟩ | ⟨rfl, rfl⟩ := useRecovery_ok hw.recovery hrecovery
    · -- A recovery code, which is tried only if no step fits.
      simp only [Bool.and_eq_true, decide_eq_true_eq, Bool.not_eq_true'] at htried
      obtain rfl : matched = -1 := by omega
      rw [if_neg (by simp)] at h
      obtain ⟨err, herr, rfl, rfl⟩ | ⟨-, h⟩ := ok_unlessFails.mp h
      · exact ⟨le_rfl, .inr ⟨m, encrypted, hgate, by simp [herr], .inr rfl⟩⟩
      simp only [if_true, htried.2, Bool.false_eq_true, if_false, Tx.ok_bind, ok_updateMfa,
        Tx.ok_pure] at h
      obtain ⟨⟨⟩, _, rfl, rfl, rfl⟩ := h
      exact ⟨le_rfl, .inr ⟨m, encrypted, hgate, .recovery htried.2 hunused⟩⟩
    · by_cases hmatched : matched < 0
      · rw [if_pos ⟨hmatched, rfl⟩] at h
        exact mfaFailedLocked_ok hgate h
      · rw [if_neg (by simp [hmatched])] at h
        obtain ⟨err, herr, rfl, rfl⟩ | ⟨-, h⟩ := ok_unlessFails.mp h
        · exact ⟨le_rfl, .inr ⟨m, encrypted, hgate, by simp [herr], .inl rfl⟩⟩
        simp only [Bool.false_eq_true, if_false, Tx.ok_bind, ok_updateMfa, Tx.ok_pure] at h
        obtain ⟨⟨⟩, _, rfl, rfl, rfl⟩ := h
        exact ⟨le_rfl, .inr ⟨m, encrypted, hgate, .totp _ (by omega) fun hp => by grind⟩⟩

/-- **What the verification of a code does**, for each of its verdicts. -/
theorem mfaVerifyLocked_judged (hw : Valid w.db)
    (h : Tx.Ok (mfaVerifyLocked s userId code pending d fault) w v w') :
    Judged s userId code pending fault w v w' := by
  unfold mfaVerifyLocked at h
  by_cases htoken : token userId 256 = true
  · simp only [htoken, Bool.not_true, Bool.false_eq_true, if_false] at h
    obtain ⟨t, _, hclock, h⟩ := Tx.ok_bind.mp h
    obtain ⟨ht, rfl⟩ := Clocked.ok_clock.mp hclock
    have hle : w.now ≤ t := by omega
    obtain ⟨err, -, rfl, rfl⟩ | ⟨-, h⟩ := ok_unlessFails.mp h
    · exact ⟨hle, .inl ⟨⟨err, rfl⟩, rfl⟩⟩
    obtain ⟨row, _, hquery, h⟩ := Tx.ok_bind.mp h
    obtain ⟨rfl, rfl⟩ := Clocked.ok_query.mp hquery
    cases hgate : gate (w.db.mfaOf userId) pending t with
    | error err =>
      rw [hgate] at h
      obtain ⟨rfl, rfl⟩ := Tx.ok_pure.mp h
      exact ⟨hle, .inl ⟨⟨err, rfl⟩, rfl⟩⟩
    | ok found =>
      rw [hgate] at h
      obtain ⟨hlater, hv⟩ := compareLocked_ok (w := ⟨w.db, t⟩) hw hgate h
      exact ⟨hle.trans hlater, hv⟩
  · rw [if_pos (by simpa using htoken)] at h
    obtain ⟨rfl, rfl⟩ := Tx.ok_pure.mp h
    exact ⟨le_rfl, .inl ⟨⟨_, rfl⟩, rfl⟩⟩

omit [Crypto] in
lemma total_useRecovery {userId hashed : Bytes} :
    Tx.Total (useRecovery tried userId hashed now) := by
  cases tried with
  | false => exact Tx.total_pure
  | true =>
    exact Clocked.total_query.bind fun _ => Tx.total_modify.bind fun _ => Tx.total_pure

omit [Crypto] in
lemma total_unlessFails {m : Op Verdict} (hm : Tx.Total m) :
    Tx.Total (unlessFails fault stmt failed m) := by
  unfold unlessFails
  split
  · exact Tx.total_pure
  · exact hm

lemma total_mfaVerifyLocked (s : Security) (userId code : Bytes) (pending : Bool) (d : ℕ)
    (fault : Fault) : Tx.Total (mfaVerifyLocked s userId code pending d fault) := by
  have hfailed : ∀ now, Tx.Total (mfaFailedLocked userId now fault) := fun now =>
    total_unlessFails (Tx.total_modify.bind fun _ => Tx.total_pure)
  unfold mfaVerifyLocked
  split_ifs
  · exact Tx.total_pure
  refine Clocked.total_clock.bind fun now => total_unlessFails (Clocked.total_query.bind fun row => ?_)
  split
  · exact Tx.total_pure
  unfold compareLocked
  split
  · exact hfailed now
  split
  · exact Tx.total_pure
  · refine total_unlessFails (total_useRecovery.bind fun recovery => ?_)
    split
    · exact hfailed now
    · exact total_unlessFails (Tx.total_modify.bind fun _ => Tx.total_pure)

end SbEasy.Auth

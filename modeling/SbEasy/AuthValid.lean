import SbEasy.AuthExec

/-!
Every call keeps the tables well formed.
-/

namespace SbEasy.Auth

section

variable {t : List Session} {k : Session → Bytes}

lemma map_seeSessions (hashed : Bytes) (now : ℤ)
    (hk : ∀ r : Session, k { r with lastSeenAt := now } = k r) :
    (seeSessions hashed now t).map k = t.map k :=
  Table.map_update fun r _ _ => hk r

lemma map_endSessions (hashed : Bytes) (now : ℤ)
    (hk : ∀ r : Session, k { r with revokedAt := some now } = k r) :
    (endSessions hashed now t).map k = t.map k :=
  Table.map_update fun r _ _ => hk r

variable [Crypto]

lemma map_revokeSessions (s : Security) (userId : Bytes) (sessionId keepToken : Option Bytes) (now : ℤ)
    (hk : ∀ r : Session, k { r with revokedAt := some now } = k r) :
    (revokeSessions s userId sessionId keepToken now t).map k = t.map k :=
  Table.map_update fun r _ _ => hk r

end

section

variable {userId : Bytes} {t : List Mfa}

lemma keys_failMfa (now : ℤ) : (failMfa userId now t).map (·.userId) = t.map (·.userId) :=
  Table.map_update fun _ _ _ => rfl

lemma keys_acceptMfa (last : ℤ) : (acceptMfa userId last t).map (·.userId) = t.map (·.userId) :=
  Table.map_update fun _ _ _ => rfl

lemma keys_enableMfa (step : ℤ) : (enableMfa userId step t).map (·.userId) = t.map (·.userId) :=
  Table.map_update fun _ _ _ => rfl

lemma nodup_beginMfa {encrypted : Bytes} {until_ : ℤ} (h : (t.map (·.userId)).Nodup) :
    ((beginMfa userId encrypted until_ t).map (·.userId)).Nodup :=
  Table.nodup_upsert h { userId := userId, pendingEnc := some encrypted, pendingUntil := until_ }
    fun _ _ _ => rfl

variable (h : ∀ m ∈ t, 0 ≤ m.failedAttempts)

include h

lemma counts_failMfa (now : ℤ) : ∀ m ∈ failMfa userId now t, 0 ≤ m.failedAttempts := by
  refine Table.forall_update h fun m hm _ => ?_
  simp only
  split_ifs
  · exact le_rfl
  · omega

lemma counts_acceptMfa (last : ℤ) : ∀ m ∈ acceptMfa userId last t, 0 ≤ m.failedAttempts :=
  Table.forall_update h fun _ _ _ => le_rfl

lemma counts_enableMfa (step : ℤ) : ∀ m ∈ enableMfa userId step t, 0 ≤ m.failedAttempts :=
  Table.forall_update h fun _ hm _ => hm

lemma counts_beginMfa {encrypted : Bytes} {until_ : ℤ} :
    ∀ m ∈ beginMfa userId encrypted until_ t, 0 ≤ m.failedAttempts :=
  Table.forall_upsert h (fun _ hm => hm) le_rfl

end

lemma keys_spend {userId hashed : Bytes} {now : ℤ} {t : List RecoveryCode} :
    ((spend userId hashed now t).map fun r => (r.userId, r.codeHash)) =
      t.map fun r => (r.userId, r.codeHash) :=
  Table.map_update fun _ _ _ => rfl

/-! ### Calls -/

section

variable {db : Db}

lemma Valid.setSessions {t : List Session} (h : Valid db) (hid : t.map (·.id) = db.sessions.map (·.id))
    (hhash : t.map (·.tokenHash) = db.sessions.map (·.tokenHash)) :
    Valid { db with sessions := t } :=
  { h with
    sessionIds := by rw [hid]; exact h.sessionIds
    tokenHashes := by rw [hhash]; exact h.tokenHashes }

lemma Valid.setChallenges {t : List Challenge} (h : Valid db) (ht : t.Sublist db.challenges) :
    Valid { db with challenges := t } :=
  { h with challenges := h.challenges.sublist (ht.map _) }

lemma Valid.setMfa {t : List Mfa} (h : Valid db) (hkeys : (t.map (·.userId)).Nodup)
    (hcounts : ∀ m ∈ t, 0 ≤ m.failedAttempts) : Valid { db with mfa := t } :=
  { h with mfa := hkeys, counts := hcounts }

lemma Valid.setRecovery {t : List RecoveryCode} (h : Valid db)
    (hkeys : (t.map fun r => (r.userId, r.codeHash)).Nodup) : Valid { db with recovery := t } :=
  { h with recovery := hkeys }

end

variable [Platform] [Crypto] {s : Security} {w w' : Clocked Db}

omit [Platform] in
lemma Accepted.valid {userId code : Bytes} {pending : Bool} {t step : ℤ} {m : Mfa} {db db' : Db}
    (h : Accepted s userId code pending t m db step db') (hdb : Valid db) : Valid db' := by
  cases h with
  | totp =>
    exact hdb.setMfa (by rw [keys_acceptMfa]; exact hdb.mfa) (counts_acceptMfa hdb.counts _)
  | recovery =>
    have hmfa := hdb.setMfa (by rw [@keys_acceptMfa userId _ m.lastStep]; exact hdb.mfa)
      (counts_acceptMfa hdb.counts _)
    exact hmfa.setRecovery (by rw [keys_spend]; exact hdb.recovery)

lemma Issued.valid {userId method raw text : Bytes} {clientLabel : Option Bytes} {mfaCompleted : Bool}
    (h : Issued s userId method clientLabel mfaCompleted raw w text w') (hw : Valid w.db) :
    Valid w'.db := by
  obtain ⟨user, -, -, -, hid, hhash, hdb⟩ := h.written
  rw [hdb]
  refine { hw with sessionIds := ?_, tokenHashes := ?_ }
  · refine List.Nodup.sublist (List.filter_sublist.map _) ?_
    rw [List.map_append, List.nodup_append]
    exact ⟨hw.sessionIds, by simp, by simpa using hid⟩
  · refine List.Nodup.sublist (List.filter_sublist.map _) ?_
    rw [List.map_append, List.nodup_append]
    exact ⟨hw.tokenHashes, by simp, by simpa using hhash⟩

lemma Effect.valid {c : Call} {a : Option Attempt} {r : Except Err Answer}
    (h : Effect s w w' c a r) (hw : Valid w.db) : Valid w'.db := by
  have hrevoke : ∀ userId sessionId keepToken t, Valid { w.db with
      sessions := revokeSessions s userId sessionId keepToken t w.db.sessions } :=
    fun userId sessionId keepToken t => hw.setSessions
      (map_revokeSessions s userId sessionId keepToken t fun _ => rfl)
      (map_revokeSessions s userId sessionId keepToken t fun _ => rfl)
  cases h with
  | failed hdb => rw [hdb]; exact hw
  | stopped _ _ _ hdb => rw [hdb]; exact hw
  | lost _ _ _ _ hdb =>
    rw [hdb]
    exact hw.setRecovery (by rw [keys_spend]; exact hw.recovery)
  | rejected _ _ _ hdb =>
    rw [hdb]
    exact hw.setMfa (by rw [keys_failMfa]; exact hw.mfa) (counts_failMfa hw.counts _)
  | issued h => exact h.valid hw
  | seen t t' _ _ hdb =>
    rw [hdb]
    exact hw.setSessions (map_seeSessions _ _ fun _ => rfl) (map_seeSessions _ _ fun _ => rfl)
  | revoked t hdb =>
    rw [hdb]
    refine (hrevoke _ _ _ t).setChallenges ?_
    split_ifs
    · exact List.filter_sublist
    · exact List.Sublist.refl _
  | loggedOut t hdb =>
    rw [hdb]
    exact hw.setSessions (map_endSessions _ _ fun _ => rfl) (map_endSessions _ _ fun _ => rfl)
  | verified t _ _ haccepted => exact haccepted.valid hw
  | begun until_ hdb =>
    rw [hdb]
    exact hw.setMfa (nodup_beginMfa hw.mfa) (counts_beginMfa hw.counts)
  | confirmed t t' _ _ _ hkeys hdb =>
    rw [hdb]
    refine ((hrevoke _ _ _ t').setChallenges List.filter_sublist).setRecovery hkeys |>.setMfa ?_
      (counts_enableMfa (counts_acceptMfa hw.counts _) _)
    rw [keys_enableMfa, keys_acceptMfa]
    exact hw.mfa
  | disabled t hdb =>
    rw [hdb]
    exact (((hrevoke _ _ _ t).setChallenges List.filter_sublist).setRecovery
      (hw.recovery.sublist (List.filter_sublist.map _))).setMfa
      (hw.mfa.sublist (List.filter_sublist.map _)) fun m hm => hw.counts m (List.mem_of_mem_filter hm)
  | challenged t hrow hnew hdb =>
    rw [hdb]
    refine { hw with challenges := ?_ }
    rw [List.map_append, List.nodup_append]
    exact ⟨hw.challenges.sublist (List.filter_sublist.map _), by simp, by simpa using hnew⟩
  | completed t _ _ _ _ _ haccepted hissued =>
    exact hissued.valid ((haccepted.valid hw).setChallenges List.filter_sublist)
  | @roleChanged userId role d t hdb =>
    rw [hdb]
    have hcleared := (hrevoke userId none none t).setChallenges
      (List.filter_sublist (p := (·.userId != userId)))
    exact { hcleared with }

lemma exec_valid (hw : Valid w.db) (c : Call) : Valid (exec s c w).2.db :=
  (exec_effect hw c).valid hw

end SbEasy.Auth

import SbEasy.AuthForward

/-!
The calls that hand in a code, and with them the effects of all calls.
-/

namespace SbEasy.Auth

variable [Platform] [Crypto] {s : Security} {w w' w₁ : Clocked Db} {fault : Fault}

section

variable {α : Type} {verified : Op Verdict} {next : ℤ → Op α} {v : Verdict}

omit [Platform] [Crypto] in
lemma exec_committed_accepted {step : ℤ} (hv : Tx.Ok verified w (.accepted step) w₁) :
    Tx.exec (committed (withCode verified next)) w =
      match Tx.exec (next step) w₁ with
      | (.ok a, w') => (.ok a, w')
      | (.error e, w') => (.error e, ⟨w.db, w'.now⟩) := by
  rcases hnext : Tx.exec (next step) w₁ with ⟨e | a, w'⟩
  · have hbody : Tx.exec (withCode verified next) w = (.error e, w') := by
      rw [withCode, Tx.exec_bind, hv]
      simp only [Tx.exec_bind, hnext]
    rw [committed, Tx.exec_bind, Clocked.exec_transaction_error hbody]
  · have hbody : Tx.Ok (withCode verified next) w (.ok a) w' :=
      Tx.ok_bind.mpr ⟨_, w₁, hv, Tx.ok_bind.mpr ⟨a, w', hnext, rfl⟩⟩
    have hcommit : Tx.Ok (Clocked.transaction (withCode verified next)) w (.ok a) w' :=
      Clocked.ok_clockedTransaction.mpr hbody
    rw [committed, Tx.exec_bind, hcommit]
    rfl

omit [Platform] [Crypto] in
lemma exec_committed_of_not_accepted (hv : Tx.Ok verified w v w₁) (hnot : ∀ step, v ≠ .accepted step) :
    Tx.exec (committed (withCode verified next)) w = (.error v.err, w₁) := by
  have hbody : Tx.Ok (withCode verified next) w (.error v.err) w₁ := by
    refine Tx.ok_bind.mpr ⟨v, w₁, hv, ?_⟩
    cases v with
    | accepted step => exact absurd rfl (hnot step)
    | _ => rfl
  have hcommit : Tx.Ok (Clocked.transaction (withCode verified next)) w (.error v.err) w₁ :=
    Clocked.ok_clockedTransaction.mpr hbody
  rw [committed, Tx.exec_bind, hcommit]
  rfl

omit [Platform] [Crypto] in
lemma exec_committed_congr {m m' : Op (Except Err α)} {w₀ : Clocked Db}
    (h : Tx.exec m w = Tx.exec m' w₀) (hdb : w₀.db = w.db) :
    Tx.exec (committed m) w = Tx.exec (committed m') w₀ := by
  rcases hm : Tx.exec m w with ⟨e | a, w'⟩
  · rw [committed, Tx.exec_bind, Clocked.exec_transaction_error hm, committed, Tx.exec_bind,
      Clocked.exec_transaction_error (h.symm.trans hm), hdb]
  · have h₁ : Tx.Ok (Clocked.transaction m) w a w' := Clocked.ok_clockedTransaction.mpr hm
    have h₂ : Tx.Ok (Clocked.transaction m') w₀ a w' :=
      Clocked.ok_clockedTransaction.mpr (h.symm.trans hm)
    rw [committed, Tx.exec_bind, h₁, committed, Tx.exec_bind, h₂]

end

section

variable {userId code : Bytes} {pending : Bool} {d : ℕ} {v : Verdict} {c : Call} {a : Attempt}

omit [Platform] in
lemma judge_eq {answer : Except Err Answer}
    (hv : Tx.Ok (mfaVerifyLocked s userId code pending d fault) w v w₁) :
    judge s userId code pending d fault w answer = some ⟨userId, code, pending, w₁.now, v, answer⟩ := by
  rw [judge, hv]

omit [Platform] in
/-- A code is compared only if the gate is open. -/
lemma Judged.looked {t : ℤ} {answer : Except Err Answer}
    (h : Judged s userId code pending fault ⟨w.db, t⟩ v w₁) (ht : w.now ≤ t) (hstop : w₁.now ≤ w'.now) :
    Looked w w' ⟨userId, code, pending, w₁.now, v, answer⟩ :=
  ⟨ht.trans h.1, hstop, h.2.imp (fun hv => hv.1) fun ⟨m, encrypted, hgate, _⟩ => ⟨m, encrypted, hgate⟩⟩

lemma Judged.effect {t : ℤ} {e : Err} (h : Judged s userId code pending fault ⟨w.db, t⟩ v w₁)
    (ht : w.now ≤ t) (hnot : ∀ step, v ≠ .accepted step)
    (hfails : ∀ stmt, c.fails stmt = (fault.hits stmt).isSome) :
    Effect s w w₁ c (some ⟨userId, code, pending, w₁.now, v, .error e⟩) (.error e) := by
  have hlooked : Looked w w₁ ⟨userId, code, pending, w₁.now, v, .error e⟩ := h.looked ht le_rfl
  obtain ⟨-, ⟨⟨err, rfl⟩, hdb⟩ | ⟨m, encrypted, -, hv⟩⟩ := h
  · exact .stopped hlooked rfl (by simp [Verdict.wrong]) hdb
  cases v with
  | accepted step => exact absurd rfl (hnot step)
  | refused err => exact hv.elim
  | rejected => exact .rejected hlooked rfl rfl hv
  | uncounted err => exact .stopped hlooked rfl (fun _ => by rw [hfails]; exact hv.1) hv.2
  | unavailable err => exact .stopped hlooked rfl (by simp [Verdict.wrong]) hv
  | unwritten err =>
    obtain ⟨hfault, hdb | hdb⟩ := hv
    · exact .stopped hlooked rfl (by simp [Verdict.wrong]) hdb
    · exact .lost hlooked rfl rfl (by rw [hfails]; exact hfault) hdb

end

/-! ### Calls with a code -/

omit [Platform] [Crypto] in
lemma ok_unlessLater {α : Type} {m : Op α} {a : α} (h : Tx.Ok (unlessLater fault m) w a w') :
    Tx.Ok m w a w' := by
  unfold unlessLater at h
  split at h
  · exact absurd h Tx.ok_throw
  · exact h

lemma withCode_effect {α : Type} {c : Call} {userId code : Bytes} {pending : Bool} {d : ℕ} {t : ℤ}
    {next : ℤ → Op α} {f : α → Answer} (hw : Valid w.db) (ht : w.now ≤ t)
    (hexec : exec s c w = Tx.exec (committed (withCode (mfaVerifyLocked s userId code pending d fault)
      next) >>= fun a => pure (f a)) ⟨w.db, t⟩)
    (hattempt : attempt s c w = judge s userId code pending d fault ⟨w.db, t⟩ (exec s c w).1)
    (hfails : ∀ stmt, c.fails stmt = (fault.hits stmt).isSome)
    (hforward : ∀ step, Clocked.Forward (next step))
    (hok : ∀ step m encrypted w₁ a w',
      Looked w w' ⟨userId, code, pending, w₁.now, .accepted step, .ok (f a)⟩ →
      gate (w.db.mfaOf userId) pending w₁.now = .ok (m, encrypted) →
      Accepted s userId code pending w₁.now m w.db step w₁.db → Tx.Ok (next step) w₁ a w' →
      Effect s w w' c (some ⟨userId, code, pending, w₁.now, .accepted step, .ok (f a)⟩) (.ok (f a))) :
    Effect s w (exec s c w).2 c (attempt s c w) (exec s c w).1 := by
  obtain ⟨v, w₁, hv⟩ := total_mfaVerifyLocked s userId code pending d fault ⟨w.db, t⟩
  have hj := mfaVerifyLocked_judged (w := ⟨w.db, t⟩) hw hv
  rw [hattempt, judge_eq hv, hexec, Tx.exec_bind]
  by_cases hnot : ∀ step, v ≠ .accepted step
  · rw [exec_committed_of_not_accepted hv hnot]
    exact hj.effect ht hnot hfails
  · obtain ⟨step, rfl⟩ : ∃ step, v = .accepted step := by simpa using hnot
    obtain ⟨m, encrypted, hgate, haccepted⟩ := hj.2.resolve_left (by simp)
    have hle := (hforward step).le w₁
    rw [exec_committed_accepted hv]
    rcases hnext : Tx.exec (next step) w₁ with ⟨e | a, w₂⟩
    · rw [hnext] at hle
      exact .stopped (hj.looked ht hle) rfl (by simp [Verdict.wrong]) rfl
    · rw [hnext] at hle
      exact hok step m encrypted w₁ a w₂ (hj.looked ht hle) hgate haccepted hnext

lemma mfaVerify_effect (hw : Valid w.db) {userId code : Bytes} {d : ℕ} {call : Call}
    (hcall : call = .mfaVerify userId code d fault) :
    Effect s w (exec s call w).2 call (attempt s call w) (exec s call w).1 := by
  subst hcall
  refine withCode_effect (f := fun _ => .done) hw le_rfl rfl rfl (fun _ => rfl)
    (fun _ => Clocked.forward_pure) ?_
  intro step m encrypted w₁ a w' hlooked hgate haccepted h
  obtain ⟨-, rfl⟩ := Tx.ok_pure.mp h
  exact .verified w'.now hlooked (gate_ok hgate).1 haccepted

variable {userId : Bytes}

omit [Platform] in
lemma addRecoveries_ok {raws codes : List Bytes}
    (hw : (w.db.recovery.map fun r => (r.userId, r.codeHash)).Nodup)
    (h : Tx.Ok (addRecoveries s userId raws) w codes w') :
    ((w.db.recovery ++ recoveryRows s userId codes).map fun r => (r.userId, r.codeHash)).Nodup ∧
      w' = ⟨{ w.db with recovery := w.db.recovery ++ recoveryRows s userId codes }, w.now⟩ := by
  induction raws generalizing w codes with
  | nil =>
    obtain ⟨rfl, rfl⟩ := Tx.ok_pure.mp h
    simpa [recoveryRows] using hw
  | cons raw raws ih =>
    simp only [addRecoveries, addRecovery, Tx.ok_bind, Clocked.ok_query, Tx.ok_require, ok_setRecovery,
      Tx.ok_pure] at h
    obtain ⟨code, _, ⟨db, w, ⟨rfl, rfl⟩, ⟨⟩, w, ⟨hnew, rfl⟩, ⟨⟩, _, rfl, rfl, rfl⟩, codes, _, hrest, rfl,
      rfl⟩ := h
    have hkeys : ((w.db.recovery ++ [RecoveryCode.mk userId (recoveryHash s userId (random raw))
        none]).map fun r => (r.userId, r.codeHash)).Nodup := by
      rw [List.map_append, List.nodup_append]
      refine ⟨hw, by simp, fun a ha b hb => ?_⟩
      obtain ⟨r, hr, rfl⟩ := List.mem_map.mp ha
      obtain rfl : b = (userId, recoveryHash s userId (random raw)) := by simpa using hb
      rintro he
      simp only [Prod.mk.injEq] at he
      simp only [Bool.not_eq_true', List.any_eq_false, Bool.and_eq_true, beq_iff_eq] at hnew
      exact hnew r hr he
    obtain ⟨hnodup, rfl⟩ := ih hkeys hrest
    simp only [List.append_assoc, List.singleton_append] at hnodup ⊢
    exact ⟨hnodup, rfl⟩

variable {codes : List Bytes} {keepToken : Option Bytes} {step t : ℤ} {m : Mfa}

lemma enableLocked_effect {code : Bytes} {raws : Fin 10 → Bytes} {d₁ d₂ : ℕ} (hw : Valid w.db)
    (hlooked : Looked w w' ⟨userId, code, true, t, .accepted step, .ok (.codes codes)⟩)
    (hrow : w.db.mfaOf userId = some m)
    (haccepted : Accepted s userId code true t m w.db step w₁.db)
    (h : Tx.Ok (enableLocked s userId keepToken raws d₂ step) w₁ codes w') :
    Effect s w w' (.mfaConfirm userId code keepToken raws d₁ d₂ fault)
      (some ⟨userId, code, true, t, .accepted step, .ok (.codes codes)⟩) (.ok (.codes codes)) := by
  obtain ⟨db₁, t₁⟩ := w₁
  simp only at haccepted
  cases haccepted with
  | recovery hpending => cases hpending
  | totp _ hstep =>
    simp only [enableLocked, Tx.ok_bind, ok_updateMfa, ok_setRecovery, ok_revokeLocked,
      ok_clearChallengesLocked, Tx.ok_pure] at h
    obtain ⟨⟨⟩, _, rfl, ⟨⟩, _, rfl, codes, _, hcodes, ⟨⟩, _, rfl, ⟨⟩, _, rfl, rfl, rfl⟩ := h
    have hothers : ((w.db.recovery.filter (·.userId != userId)).map
        fun r => (r.userId, r.codeHash)).Nodup :=
      hw.recovery.sublist (List.filter_sublist.map _)
    obtain ⟨hkeys, rfl⟩ := addRecoveries_ok hothers hcodes
    exact .confirmed t _ hlooked hrow hstep hkeys rfl

lemma mfaConfirm_effect (hw : Valid w.db) {code : Bytes}
    {raws : Fin 10 → Bytes} {d₁ d₂ : ℕ} {call : Call}
    (hcall : call = .mfaConfirm userId code keepToken raws d₁ d₂ fault) :
    Effect s w (exec s call w).2 call (attempt s call w) (exec s call w).1 := by
  subst hcall
  have hexec : exec s (.mfaConfirm userId code keepToken raws d₁ d₂ fault) w =
      Tx.exec (committed (withCode (mfaVerifyLocked s userId code true d₁ fault) fun step =>
        unlessLater fault (enableLocked s userId keepToken raws d₂ step)) >>=
          fun codes => pure (.codes codes)) w := by
    rw [exec, answer, map_eq_pure_bind]
    rfl
  refine withCode_effect hw le_rfl hexec rfl (fun _ => rfl)
    (fun _ => forward_unlessLater forward_enableLocked) ?_
  intro step m encrypted w₁ codes w' hlooked hgate haccepted h
  exact enableLocked_effect hw hlooked (gate_ok hgate).1 haccepted (ok_unlessLater h)

omit [Platform] in
lemma mem_of_challengeOf {db : Db} {challenge : Bytes} {browserBinding : Option Bytes} {now : ℤ}
    {c : Challenge} (h : challengeOf s db challenge browserBinding now = some c) :
    c ∈ db.challenges ∧ c.challengeHash = hash s (lit "login-challenge") challenge := by
  obtain ⟨hfound, -⟩ := Option.filter_eq_some_iff.mp h
  have hhash := List.find?_some hfound
  simp only [Bool.and_eq_true, beq_iff_eq] at hhash
  exact ⟨List.mem_of_find?_eq_some hfound, hhash.1⟩

lemma finishLocked_effect {challenge code raw text : Bytes} {clientLabel browserBinding : Option Bytes}
    {d₁ d₂ d₃ : ℕ} {c : Challenge}
    (hlooked : Looked w w' ⟨c.userId, code, false, t, .accepted step, .ok (.text text)⟩)
    (hchallenge : c ∈ w.db.challenges)
    (hhash : c.challengeHash = hash s (lit "login-challenge") challenge)
    (hrow : w.db.mfaOf c.userId = some m) (hsecret : m.secretEnc.isSome = true)
    (haccepted : Accepted s c.userId code false t m w.db step w₁.db)
    (h : Tx.Ok (finishLocked s challenge c clientLabel raw d₃) w₁ text w') :
    Effect s w w' (.complete challenge code clientLabel browserBinding raw d₁ d₂ d₃ fault)
      (some ⟨c.userId, code, false, t, .accepted step, .ok (.text text)⟩) (.ok (.text text)) := by
  simp only [finishLocked, Tx.ok_bind, ok_setChallenges] at h
  obtain ⟨⟨⟩, _, rfl, hissue⟩ := h
  rw [← hhash] at hissue
  exact .completed t hlooked hchallenge hhash hrow hsecret haccepted (issueLocked_ok hissue)

section

variable {challenge code raw : Bytes} {clientLabel browserBinding : Option Bytes} {d₁ d₂ d₃ : ℕ}
  {call : Call} (hcall : call = .complete challenge code clientLabel browserBinding raw d₁ d₂ d₃ fault)

include hcall

lemma exec_complete {m : Op (Except Err Bytes)} {w₀ : Clocked Db}
    (hvalid : (token challenge 128 && labelValid clientLabel &&
      browserBinding.all (token · 256)) = true)
    (hbody : Tx.exec (completeLocked s challenge code clientLabel browserBinding raw d₁ d₂ d₃ fault) w =
      Tx.exec m w₀) (hdb : w₀.db = w.db) :
    exec s call w = Tx.exec (committed m >>= fun text => pure (.text text)) w₀ := by
  rw [hcall, exec, answer, map_eq_pure_bind, Tx.exec_bind, completeBound, Tx.exec_bind, Tx.require,
    if_pos hvalid, Tx.exec_pure, Tx.exec_bind]
  simp only
  rw [exec_committed_congr hbody hdb]

lemma complete_effect (hw : Valid w.db) : Effect s w (exec s call w).2 call (attempt s call w)
    (exec s call w).1 := by
  by_cases hvalid : (token challenge 128 && labelValid clientLabel &&
      browserBinding.all (token · 256)) = true
  swap
  · have hexec : exec s call w = (.error ⟨.auth, "Invalid or expired login challenge"⟩, w) := by
      rw [hcall, exec, answer, map_eq_pure_bind, Tx.exec_bind, completeBound, Tx.exec_bind, Tx.require,
        if_neg hvalid]
      rfl
    have hattempt : attempt s call w = none := by rw [hcall]; exact if_neg hvalid
    rw [hattempt, hexec]
    exact .failed rfl
  have hattempt : attempt s call w = (challengeOf s w.db challenge browserBinding (w.now + d₁)).bind
      fun c => judge s c.userId code false d₂ fault ⟨w.db, w.now + d₁⟩ (exec s call w).1 := by
    rw [hcall]
    exact if_pos hvalid
  cases hfound : challengeOf s w.db challenge browserBinding (w.now + d₁) with
  | none =>
    have hbody : Tx.exec
        (completeLocked s challenge code clientLabel browserBinding raw d₁ d₂ d₃ fault) w =
        Tx.exec (throw ⟨.auth, "Invalid or expired login challenge"⟩) ⟨w.db, w.now + d₁⟩ := by
      rw [completeLocked, Tx.exec_bind, Clocked.exec_clock]
      simp only
      rw [Tx.exec_bind, Clocked.exec_query]
      simp only [hfound]
    rw [hattempt, hfound, exec_complete hcall hvalid hbody rfl]
    exact .failed rfl
  | some c =>
    have hbody : Tx.exec
        (completeLocked s challenge code clientLabel browserBinding raw d₁ d₂ d₃ fault) w =
        Tx.exec (withCode (mfaVerifyLocked s c.userId code false d₂ fault)
          fun _ => unlessLater fault (finishLocked s challenge c clientLabel raw d₃))
          ⟨w.db, w.now + d₁⟩ := by
      rw [completeLocked, Tx.exec_bind, Clocked.exec_clock]
      simp only
      rw [Tx.exec_bind, Clocked.exec_query]
      simp only [hfound]
    obtain ⟨hchallenge, hhash⟩ := mem_of_challengeOf hfound
    refine withCode_effect hw (by omega) (exec_complete hcall hvalid hbody rfl) ?_
      (fun _ => by rw [hcall]; rfl) (fun _ => forward_unlessLater forward_finishLocked) ?_
    · rw [hattempt, hfound, Option.bind_some]
    · intro step m encrypted w₁ text w' hlooked hgate haccepted h
      obtain ⟨hrow, hsecret, -⟩ := gate_ok hgate
      rw [hcall]
      exact finishLocked_effect hlooked hchallenge hhash hrow
        (by simpa using Option.isSome_of_eq_some hsecret) haccepted (ok_unlessLater h)

end

/-! ### All calls -/

omit [Platform] [Crypto] in
lemma quiet_requiredUserLocked {userId : Bytes} : Tx.Quiet Clocked.db (requiredUserLocked userId) :=
  Clocked.quiet_query.bind fun _ => Tx.quiet_require

omit [Platform] in
lemma revoke_ok {sessionId keepToken : Option Bytes} {d : ℕ} {u : Unit}
    (h : Tx.Ok (revoke s userId sessionId keepToken d) w u w') : w'.db = { w.db with
      sessions := revokeSessions s userId sessionId keepToken (w.now + d) w.db.sessions
      challenges := if sessionId.isNone then w.db.challenges.filter (·.userId != userId)
        else w.db.challenges } := by
  simp only [revoke, Clocked.ok_clockedTransaction, Tx.ok_bind, ok_revokeLocked] at h
  obtain ⟨⟨⟩, _, rfl, h⟩ := h
  split at h
  · rename_i hnone
    rw [ok_clearChallengesLocked.mp h, if_pos hnone]
  · rename_i hsome
    rw [(Tx.ok_pure.mp h).2, if_neg hsome]

lemma changeRole_ok {role : Bytes} {d : ℕ} {u : Unit}
    (h : Tx.Ok (changeRole s userId role d) w u w') :
    Effect s w w' (.changeRole userId role d) none (.ok .done) := by
  simp only [changeRole, Tx.ok_bind, Tx.ok_require, Clocked.ok_clockedTransaction, Clocked.ok_query] at h
  obtain ⟨⟨⟩, w, ⟨-, rfl⟩, user, w, ⟨-, rfl⟩, h⟩ := h
  cases user with
  | none => exact absurd h Tx.ok_throw
  | some user =>
    simp only [Tx.ok_bind, Tx.ok_require, Clocked.ok_query, Clocked.ok_update, ok_revokeLocked,
      ok_clearChallengesLocked] at h
    obtain ⟨_, w, ⟨-, rfl⟩, ⟨⟩, w, ⟨-, rfl⟩, ⟨⟩, _, rfl, ⟨⟩, _, rfl, rfl⟩ := h
    exact .roleChanged _ rfl

/-- **Effects**: every call does one of the things that `Effect` lists. -/
theorem exec_effect (hw : Valid w.db) (c : Call) :
    Effect s w (exec s c w).2 c (attempt s c w) (exec s c w).1 := by
  cases c with
  | mfaVerify => exact mfaVerify_effect hw rfl
  | mfaConfirm => exact mfaConfirm_effect hw rfl
  | complete => exact complete_effect rfl hw
  | issue userId method clientLabel raw d =>
    refine effect_of_ok (safe_map Clocked.safe_clockedTransaction) rfl fun a w' h => ?_
    obtain ⟨text, rfl, hrun⟩ := ok_map.mp h
    exact .issued (issueLocked_ok (Clocked.ok_clockedTransaction.mp hrun))
  | verify text d₁ d₂ d₃ =>
    refine effect_of_ok (safe_map safe_verify) rfl fun a w' h => ?_
    obtain ⟨claims, rfl, hrun⟩ := ok_map.mp h
    exact verify_ok hrun
  | revoke userId sessionId keepToken d =>
    refine effect_of_ok (safe_done Clocked.safe_clockedTransaction) rfl fun a w' h => ?_
    obtain ⟨rfl, hrun⟩ := ok_done.mp h
    exact .revoked _ (revoke_ok hrun)
  | logout text d =>
    refine effect_of_ok (safe_done (Tx.quiet_require.bind_safe fun _ =>
      Clocked.quiet_clock.bind_safe fun _ => Tx.safe_modify)) rfl fun a w' h => ?_
    simp only [answer, ok_done, logout, Tx.ok_bind, Tx.ok_require, Clocked.ok_clock,
      ok_updateSessions] at h
    obtain ⟨rfl, ⟨⟩, w, ⟨-, rfl⟩, t, _, ⟨-, rfl⟩, rfl⟩ := h
    exact .loggedOut t rfl
  | mfaBegin userId raw nonce d =>
    refine effect_of_ok (safe_map (Tx.quiet_require.bind_safe fun _ =>
      Tx.quiet_ofExcept.bind_safe fun _ => quiet_requiredUserLocked.bind_safe fun _ =>
      Clocked.quiet_clock.bind_safe fun _ => Tx.safe_modify_pure)) rfl fun a w' h => ?_
    simp only [answer, ok_map, mfaBegin, Tx.ok_bind, Tx.ok_require, Tx.ok_ofExcept, Clocked.ok_clock,
      ok_requiredUserLocked, Clocked.ok_update, Tx.ok_pure] at h
    obtain ⟨setup, rfl, ⟨⟩, w, ⟨-, rfl⟩, encrypted, w, ⟨-, rfl⟩, ⟨⟩, w, ⟨-, rfl⟩, t, _, ⟨-, rfl⟩, ⟨⟩, _, rfl,
      rfl, rfl⟩ := h
    exact .begun _ rfl
  | mfaDisable userId keepToken d =>
    refine effect_of_ok (safe_done Clocked.safe_clockedTransaction) rfl fun a w' h => ?_
    simp only [answer, ok_done, mfaDisable, Clocked.ok_clockedTransaction, Tx.ok_bind,
      ok_requiredUserLocked, Clocked.ok_update, ok_setRecovery, ok_revokeLocked,
      ok_clearChallengesLocked] at h
    obtain ⟨rfl, ⟨⟩, w, ⟨-, rfl⟩, ⟨⟩, _, rfl, ⟨⟩, _, rfl, ⟨⟩, _, rfl, rfl⟩ := h
    exact .disabled _ rfl
  | challenge userId method browserBinding raw d₁ d₂ =>
    refine effect_of_ok (safe_map (Tx.quiet_require.bind_safe fun _ =>
      Clocked.safe_clockedTransaction)) rfl fun a w' h => ?_
    obtain ⟨text, rfl, hrun⟩ := ok_map.mp h
    exact challenge_ok hrun
  | changeRole userId role d =>
    refine effect_of_ok (safe_done (Tx.quiet_require.bind_safe fun _ =>
      Clocked.safe_clockedTransaction)) rfl fun a w' h => ?_
    obtain ⟨rfl, hrun⟩ := ok_done.mp h
    exact changeRole_ok hrun

end SbEasy.Auth

import SbEasy.AuthValid

/-!
What a call does to the second factor of one user: to the row of the secret, and to the recovery
codes.
-/

namespace SbEasy.Auth

variable [Platform] [Crypto] {s : Security} {w w' : Clocked Db} {c : Call} {a : Option Attempt}
  {r : Except Err Answer}

lemma Effect.looked {z : Attempt} (h : Effect s w w' c (some z) r) : Looked w w' z := by
  cases h with
  | stopped hlooked => exact hlooked
  | lost hlooked => exact hlooked
  | rejected hlooked => exact hlooked
  | verified t hlooked => exact hlooked
  | confirmed t t' hlooked => exact hlooked
  | completed t hlooked => exact hlooked

/-- A call that takes the second factor of a user away. -/
def Call.disables (u : Bytes) : Call → Bool
  | .mfaDisable userId _ _ => userId == u
  | _ => false

/-! ### The secret -/

/-- One more failure. -/
def Mfa.fail (now : ℤ) (m : Mfa) : Mfa :=
  { m with
    failedAttempts := if m.failedAttempts ≥ 4 then 0 else m.failedAttempts + 1
    lockedUntil := if m.failedAttempts ≥ 4 then now + mfaLockSeconds else 0 }

def Mfa.accept (last : ℤ) (m : Mfa) : Mfa :=
  { m with lastStep := last, failedAttempts := 0, lockedUntil := 0 }

def Mfa.enable (step : ℤ) (m : Mfa) : Mfa :=
  { m with secretEnc := m.pendingEnc, pendingEnc := none, pendingUntil := 0, lastStep := step }

/-- The row of a user before and after a call, with the code it hands in. -/
inductive RowStep (u : Bytes) (c : Call) (a : Option Attempt) : Option Mfa → Option Mfa → Prop
  | same {row : Option Mfa}
      (hother : ∀ z, a = some z → z.userId = u →
        z.ok = false ∧ (z.verdict.wrong = true → c.fails .count = true)) :
      RowStep u c a row row
  | failed {m : Mfa} {z : Attempt} (hz : a = some z) (hu : z.userId = u) (hok : z.ok = false)
      (hverdict : z.verdict = .rejected) : RowStep u c a (some m) (some (m.fail z.time))
  | accepted {m : Mfa} {z : Attempt} {step last : ℤ} (hz : a = some z) (hu : z.userId = u)
      (hok : z.ok = true) (hpending : z.pending = false) (hverdict : z.verdict = .accepted step)
      (hlast : (0 ≤ step ∧ m.lastStep < step ∧ last = step) ∨ (step = -1 ∧ last = m.lastStep)) :
      RowStep u c a (some m) (some (m.accept last))
  | begun {row : Option Mfa} {encrypted : Bytes} {until_ : ℤ} (hz : a = none) :
      RowStep u c a row (some ((row.map fun m =>
        { m with pendingEnc := some encrypted, pendingUntil := until_ }).getD
        { userId := u, pendingEnc := some encrypted, pendingUntil := until_ }))
  | confirmed {m : Mfa} {z : Attempt} {step last : ℤ} (hz : a = some z) (hu : z.userId = u)
      (hok : z.ok = true) (hpending : z.pending = true) (hverdict : z.verdict = .accepted step)
      (hstep : 0 ≤ step) : RowStep u c a (some m) (some ((m.accept last).enable step))
  | disabled {row : Option Mfa} (hz : a = none) (hc : c.disables u = true) : RowStep u c a row none

section

variable {t : List Mfa} {u userId : Bytes}

omit [Platform] [Crypto]

lemma find?_failMfa (now : ℤ) :
    (failMfa userId now t).find? (·.userId == u) =
      if userId = u then (t.find? (·.userId == u)).map (Mfa.fail now) else t.find? (·.userId == u) :=
  Table.find?_update_key (k := Mfa.userId) fun _ => rfl

lemma find?_acceptMfa (last : ℤ) :
    (acceptMfa userId last t).find? (·.userId == u) =
      if userId = u then (t.find? (·.userId == u)).map (Mfa.accept last)
      else t.find? (·.userId == u) :=
  Table.find?_update_key (k := Mfa.userId) fun _ => rfl

lemma find?_enableMfa (step : ℤ) :
    (enableMfa userId step t).find? (·.userId == u) =
      if userId = u then (t.find? (·.userId == u)).map (Mfa.enable step)
      else t.find? (·.userId == u) :=
  Table.find?_update_key (k := Mfa.userId) fun _ => rfl

end

section

variable {u userId code : Bytes} {t step : ℤ} {m : Mfa} {db db' : Db} {z : Attempt}

omit [Platform] in
lemma Accepted.rowStep (h : Accepted s userId code false t m db step db')
    (hrow : db.mfaOf userId = some m) (hz : a = some z) (hu : z.userId = userId)
    (hok : z.ok = true) (hpending : z.pending = false) (hverdict : z.verdict = .accepted step) :
    RowStep u c a (db.mfaOf u) (db'.mfaOf u) := by
  have hboth : ∃ last, ((0 ≤ step ∧ m.lastStep < step ∧ last = step) ∨
      (step = -1 ∧ last = m.lastStep)) ∧ db'.mfa = acceptMfa userId last db.mfa := by
    cases h with
    | totp step hstep hopen => exact ⟨step, .inl ⟨hstep, hopen rfl, rfl⟩, rfl⟩
    | recovery => exact ⟨m.lastStep, .inr ⟨rfl, rfl⟩, rfl⟩
  obtain ⟨last, hlast, hmfa⟩ := hboth
  have hnew : db'.mfaOf u = if userId = u then (db.mfaOf u).map (Mfa.accept last) else db.mfaOf u := by
    rw [Db.mfaOf, hmfa]
    exact find?_acceptMfa last
  rw [hnew]
  split_ifs with hsame
  · subst hsame
    rw [hrow]
    exact .accepted hz hu hok hpending hverdict hlast
  · refine .same fun z' hz' hu' => absurd ?_ hsame
    obtain rfl : z = z' := Option.some.inj (hz.symm.trans hz')
    exact hu.symm.trans hu'

end

omit [Platform] [Crypto] in
lemma RowStep.of_mfa_eq (u : Bytes) (hmfa : w'.db.mfa = w.db.mfa) :
    RowStep u c none (w.db.mfaOf u) (w'.db.mfaOf u) := by
  have hsame : w'.db.mfaOf u = w.db.mfaOf u := by rw [Db.mfaOf, hmfa, Db.mfaOf]
  rw [hsame]
  exact .same fun z hz => by cases hz

/-- **The row of a user**: every call does one of the things that `RowStep` lists. -/
theorem Effect.rowStep (h : Effect s w w' c a r) (u : Bytes) :
    RowStep u c a (w.db.mfaOf u) (w'.db.mfaOf u) := by
  cases h with
  | failed hdb => exact .of_mfa_eq u (by rw [hdb])
  | @stopped _ z e hlooked hanswer hverdict hdb =>
    rw [hdb]
    refine .same fun z' hz _ => ?_
    obtain rfl : z = z' := Option.some.inj hz
    exact ⟨by rw [Attempt.ok, hanswer]; rfl, hverdict⟩
  | @lost _ z e hlooked hanswer hverdict hfails hdb =>
    have hsame : w'.db.mfaOf u = w.db.mfaOf u := by rw [hdb]; rfl
    rw [hsame]
    refine .same fun z' hz _ => ?_
    obtain rfl : z = z' := Option.some.inj hz
    exact ⟨by rw [Attempt.ok, hanswer]; rfl, by simp [hverdict]⟩
  | @rejected _ z e hlooked hanswer hverdict hdb =>
    have hnew : w'.db.mfaOf u =
        if z.userId = u then (w.db.mfaOf u).map (Mfa.fail z.time) else w.db.mfaOf u := by
      rw [hdb]
      exact find?_failMfa z.time
    rw [hnew]
    split_ifs with hu
    · obtain ⟨err, herr⟩ | ⟨m, encrypted, hgate⟩ := hlooked.gate
      · rw [hverdict] at herr
        cases herr
      · subst hu
        rw [(gate_ok hgate).1]
        exact .failed rfl rfl (by rw [Attempt.ok, hanswer]; rfl) hverdict
    · refine .same fun z' hz hu' => absurd ?_ hu
      obtain rfl : z = z' := Option.some.inj hz
      exact hu'
  | issued h =>
    obtain ⟨user, -, -, -, -, -, hdb⟩ := h.written
    exact .of_mfa_eq u (by rw [hdb])
  | seen t t' _ _ hdb => exact .of_mfa_eq u (by rw [hdb])
  | revoked t hdb => exact .of_mfa_eq u (by rw [hdb])
  | loggedOut t hdb => exact .of_mfa_eq u (by rw [hdb])
  | verified t _ hrow haccepted => exact haccepted.rowStep hrow rfl rfl rfl rfl rfl
  | @begun userId raw nonce encrypted d setup until_ hdb =>
    have hnew : w'.db.mfaOf u = if userId = u then some (((w.db.mfaOf u).map fun m =>
        { m with pendingEnc := some encrypted, pendingUntil := until_ }).getD
        { userId := userId, pendingEnc := some encrypted, pendingUntil := until_ })
        else w.db.mfaOf u := by
      rw [hdb]
      exact Table.find?_upsert_key (k := Mfa.userId) (fun _ => rfl) rfl
    rw [hnew]
    split_ifs with hu
    · rw [hu]
      exact .begun rfl
    · exact .same fun z hz => by cases hz
  | @confirmed userId code keepToken raws d₁ d₂ fault step m codes t t' hlooked hrow hstep hkeys hdb =>
    have hnew : w'.db.mfaOf u = if userId = u then (w.db.mfaOf u).map fun m' =>
        (m'.accept m.lastStep).enable step else w.db.mfaOf u := by
      rw [hdb]
      change (enableMfa userId step (acceptMfa userId m.lastStep w.db.mfa)).find? (·.userId == u) = _
      rw [find?_enableMfa, find?_acceptMfa]
      split_ifs
      · rw [Option.map_map]
        rfl
      · rfl
    rw [hnew]
    split_ifs with hu
    · rw [← hu, hrow]
      exact .confirmed rfl rfl rfl rfl rfl hstep
    · refine .same fun z hz hu' => absurd ?_ hu
      obtain rfl := Option.some.inj hz
      exact hu'
  | @disabled userId keepToken d t hdb =>
    have hnew : w'.db.mfaOf u = if userId = u then none else w.db.mfaOf u := by
      rw [hdb]
      exact Table.find?_filter_key (k := Mfa.userId)
    rw [hnew]
    split_ifs with hu
    · exact .disabled rfl (by simp [Call.disables, hu])
    · exact .same fun z hz => by cases hz
  | challenged t _ _ hdb => exact .of_mfa_eq u (by rw [hdb])
  | @completed _ _ _ _ _ _ _ _ _ _ _ m row w₁ t hlooked hchallenge hhash hrow hsecret haccepted hissued =>
    obtain ⟨user, -, -, -, -, -, hdb⟩ := hissued.written
    have hmfa : w'.db.mfaOf u = w₁.db.mfaOf u := by
      rw [Db.mfaOf, hdb]
      rfl
    rw [hmfa]
    exact haccepted.rowStep hrow rfl rfl rfl rfl rfl
  | roleChanged t hdb => exact .of_mfa_eq u (by rw [hdb])

end SbEasy.Auth

import SbEasy.AuthRow
import SbEasy.AuthToken

/-!
What a call does to the sessions and to the login challenges.
-/

namespace SbEasy.Auth

variable [Platform] [Crypto] {s : Security} {w w' : Clocked Db} {c : Call} {a : Option Attempt}
  {ans : Except Err Answer}

/-! ### Sessions -/

/-- The bytes that a call draws for the identifier of a session. -/
def Call.sessionDraw : Call → Option Bytes
  | .issue _ _ _ raw _ => some raw
  | .complete _ _ _ _ raw _ _ _ _ => some raw
  | _ => none

/-- A row that was there before, under the same token, and not revoked unless it still is. -/
def Old (t : List Session) (r' : Session) : Prop :=
  ∃ r ∈ t, r.userId = r'.userId ∧ r.tokenHash = r'.tokenHash ∧
    (r'.revokedAt = none → r.revokedAt = none)

/-- A text is the token of the session with this identifier. -/
def TokenOf (s : Security) (raw text : Bytes) : Prop :=
  ∃ user now, text = signed s (payload user (random raw) now)

/-- A row that a call has added. -/
structure New (s : Security) (w : Clocked Db) (c : Call) (ans : Except Err Answer) (r : Session) :
    Prop where
  answer : ∃ text raw, ans = .ok (.text text) ∧ c.sessionDraw = some raw ∧ TokenOf s raw text ∧
    r.tokenHash = hash s (lit "session") text
  allowed : w.db.mfaEnabled r.userId = true →
    ∃ challenge code label binding raw d₁ d₂ d₃ fault,
      c = .complete challenge code label binding raw d₁ d₂ d₃ fault

section

omit [Platform] [Crypto]

lemma old_of_mem {t : List Session} {r : Session} (h : r ∈ t) : Old t r := ⟨r, h, rfl, rfl, fun h => h⟩

lemma old_of_update {t : List Session} {p : Session → Bool} {f : Session → Session} {r' : Session}
    (h : r' ∈ Table.update p f t) (hf : ∀ r, (f r).userId = r.userId ∧
      (f r).tokenHash = r.tokenHash ∧ ((f r).revokedAt = none → r.revokedAt = none)) : Old t r' := by
  obtain ⟨r, hr, rfl⟩ := Table.mem_update.mp h
  split_ifs
  · exact ⟨r, hr, (hf r).1.symm, (hf r).2.1.symm, (hf r).2.2⟩
  · exact old_of_mem hr

end

variable {userId : Bytes} {r' : Session}

variable {keepToken : Option Bytes} {now : ℤ} {code u : Bytes} {db : Db} {r : Session}

omit [Platform] in
lemma old_of_revoke {t : List Session} {sessionId keepToken : Option Bytes}
    (h : r' ∈ revokeSessions s userId sessionId keepToken now t) : Old t r' :=
  old_of_update h fun _ => ⟨rfl, rfl, fun h => by cases h⟩

lemma Issued.sessions {method raw text : Bytes} {clientLabel : Option Bytes} {mfaCompleted : Bool}
    (h : Issued s userId method clientLabel mfaCompleted raw w text w') (hr : r' ∈ w'.db.sessions) :
    r' ∈ w.db.sessions ∨
      r'.userId = userId ∧ r'.tokenHash = hash s (lit "session") text ∧ TokenOf s raw text := by
  obtain ⟨user, -, -, htext, -, -, hdb⟩ := h.written
  rw [hdb] at hr
  rcases List.mem_append.mp (List.mem_of_mem_filter hr) with hr | hr
  · exact .inl hr
  · rw [List.mem_singleton.mp hr]
    exact .inr ⟨rfl, rfl, user, w'.now, htext⟩

omit [Platform] in
/-- A code touches neither sessions nor challenges. -/
lemma Accepted.frame {pending : Bool} {t step : ℤ} {m : Mfa} {db db' : Db}
    (h : Accepted s userId code pending t m db step db') :
    db'.sessions = db.sessions ∧ db'.challenges = db.challenges := by
  cases h with
  | totp => exact ⟨rfl, rfl⟩
  | recovery => exact ⟨rfl, rfl⟩

/-- **Sessions**: the rows after a call were there before or are new. -/
theorem Effect.sessions (h : Effect s w w' c a ans) (hr : r' ∈ w'.db.sessions) :
    Old w.db.sessions r' ∨ New s w c ans r' := by
  cases h with
  | failed hdb => exact .inl (old_of_mem (by rwa [hdb] at hr))
  | stopped _ _ _ hdb => exact .inl (old_of_mem (by rwa [hdb] at hr))
  | lost _ _ _ _ hdb => exact .inl (old_of_mem (by rwa [hdb] at hr))
  | rejected _ _ _ hdb => exact .inl (old_of_mem (by rwa [hdb] at hr))
  | issued h =>
    rcases h.sessions hr with hr | ⟨hu, hhash, htext⟩
    · exact .inl (old_of_mem hr)
    · refine .inr ⟨⟨_, _, rfl, rfl, htext, hhash⟩, fun henabled => ?_⟩
      rw [hu] at henabled
      cases h.allowed henabled
  | seen t t' _ _ hdb =>
    rw [hdb] at hr
    exact .inl (old_of_update hr fun _ => ⟨rfl, rfl, fun h => h⟩)
  | revoked t hdb =>
    rw [hdb] at hr
    exact .inl (old_of_revoke hr)
  | loggedOut t hdb =>
    rw [hdb] at hr
    exact .inl (old_of_update hr fun _ => ⟨rfl, rfl, fun h => by cases h⟩)
  | verified t _ _ haccepted =>
    exact .inl (old_of_mem (by rwa [haccepted.frame.1] at hr))
  | begun until_ hdb => exact .inl (old_of_mem (by rwa [hdb] at hr))
  | confirmed t t' _ _ _ _ hdb =>
    rw [hdb] at hr
    exact .inl (old_of_revoke hr)
  | disabled t hdb =>
    rw [hdb] at hr
    exact .inl (old_of_revoke hr)
  | challenged t _ _ hdb => exact .inl (old_of_mem (by rwa [hdb] at hr))
  | completed t _ _ _ _ _ haccepted hissued =>
    rcases hissued.sessions hr with hr | ⟨-, hhash, htext⟩
    · exact .inl (old_of_mem (by rwa [haccepted.frame.1] at hr))
    · exact .inr ⟨⟨_, _, rfl, rfl, htext, hhash⟩, fun _ => ⟨_, _, _, _, _, _, _, _, _, rfl⟩⟩
  | roleChanged t hdb =>
    rw [hdb] at hr
    exact .inl (old_of_revoke hr)

/-- A call that ends a session, if it succeeds. -/
def Call.ends (s : Security) (r : Session) : Call → Prop
  | .revoke userId sessionId keepToken _ => r.userId = userId ∧
    (sessionId = none ∨ sessionId = some r.id) ∧
    keepToken.map (hash s (lit "session")) ≠ some r.tokenHash
  | .logout text _ => r.tokenHash = hash s (lit "session") text
  | _ => False

omit [Platform] in
lemma kept_of_revoke {t : List Session}
    (h : r' ∈ revokeSessions s userId none keepToken now t) (hu : r'.userId = userId)
    (hopen : r'.revokedAt = none) : keepToken.map (hash s (lit "session")) = some r'.tokenHash := by
  obtain ⟨r, hr, rfl⟩ := Table.mem_update.mp h
  by_cases hrevocable : revocable s userId none keepToken r = true
  · rw [if_pos hrevocable] at hopen
    cases hopen
  · rw [if_neg hrevocable] at hu hopen ⊢
    simp only [revocable, hu, hopen, beq_self_eq_true, Option.isNone_none, Bool.true_or, Bool.true_and,
      Bool.or_eq_true, not_or, Option.isNone_iff_eq_none, bne_iff_ne, ne_eq, not_not] at hrevocable
    exact hrevocable.2

omit [Platform] [Crypto] in
lemma Valid.eq_of_tokenHash (h : Valid db) (hr : r ∈ db.sessions)
    (hr' : r' ∈ db.sessions) (hsame : r.tokenHash = r'.tokenHash) : r = r' :=
  List.inj_on_of_nodup_map h.tokenHashes hr hr' hsame

lemma Effect.ended (h : Effect s w w' c a ans) (hok : ans.isOk = true) (hw : Valid w.db)
    (hr : r ∈ w.db.sessions) (hends : c.ends s r) (hr' : r' ∈ w'.db.sessions)
    (hsame : r'.tokenHash = r.tokenHash) : r'.revokedAt.isSome = true := by
  cases c with
  | revoke userId sessionId keepToken d =>
    cases h with
    | failed | stopped | lost | rejected => cases hok
    | revoked t hdb =>
      rw [hdb] at hr'
      obtain ⟨r₀, hr₀, rfl⟩ := Table.mem_update.mp hr'
      have hold : r₀.tokenHash = r.tokenHash := by
        split_ifs at hsame
        · exact hsame
        · exact hsame
      obtain rfl := hw.eq_of_tokenHash hr₀ hr hold
      obtain ⟨hu, hid, hkeep⟩ := hends
      split_ifs with hrevocable
      · rfl
      · by_contra hopen
        refine hrevocable ?_
        simp only [revocable, Bool.and_eq_true, Bool.or_eq_true, beq_iff_eq, bne_iff_ne,
          Option.isNone_iff_eq_none]
        exact ⟨⟨⟨hu, by simpa using hopen⟩, hid⟩, .inr hkeep⟩
  | logout text d =>
    cases h with
    | failed | stopped | lost | rejected => cases hok
    | loggedOut t hdb =>
      rw [hdb] at hr'
      obtain ⟨r₀, hr₀, rfl⟩ := Table.mem_update.mp hr'
      split_ifs at hsame ⊢ with hlive
      · rfl
      · by_contra hopen
        refine hlive ?_
        simp only [Bool.and_eq_true, beq_iff_eq]
        exact ⟨hsame.trans hends, by simpa using hopen⟩
  | _ => exact hends.elim

lemma Effect.accepted {text : Bytes} {d₁ d₂ d₃ : ℕ} (h : Effect s w w' (.verify text d₁ d₂ d₃) a ans)
    (hok : ans.isOk = true) : ∃ claims, ans = .ok (.claims claims) ∧ ∃ r ∈ w.db.sessions,
      r.tokenHash = hash s (lit "session") text ∧ r.userId = claims.subject ∧ r.revokedAt = none := by
  cases h with
  | failed | stopped | lost | rejected => cases hok
  | seen t t' _ hrow =>
    obtain ⟨r, hr, hhash, hu, hlive⟩ := hrow
    simp only [live, Bool.and_eq_true, Option.isNone_iff_eq_none] at hlive
    exact ⟨_, rfl, r, hr, hhash, hu, hlive.1⟩

omit [Platform] [Crypto] in
lemma Valid.mfaEnabled_iff (h : Valid db) :
    db.mfaEnabled u = true ↔ ∃ m, db.mfaOf u = some m ∧ m.secretEnc.isSome = true := by
  simp only [Db.mfaEnabled, List.any_eq_true, Bool.and_eq_true, beq_iff_eq]
  constructor
  · rintro ⟨m, hm, rfl, hsecret⟩
    exact ⟨m, Table.find?_of_mem (k := Mfa.userId) h.mfa hm rfl, hsecret⟩
  · rintro ⟨m, hm, hsecret⟩
    exact ⟨m, List.mem_of_find?_eq_some hm, by simpa using List.find?_some hm, hsecret⟩

/-- A successful confirmation of a user that keeps a session. -/
def Call.confirms (u : Bytes) (keep : Option Bytes) : Call → Prop
  | .mfaConfirm userId _ keepToken _ _ _ _ => userId = u ∧ keepToken = keep
  | _ => False

lemma Effect.confirms {z : Attempt} (h : Effect s w w' c (some z) ans) (hpending : z.pending = true)
    (hok : z.ok = true) : ans.isOk = true ∧ ∃ keep, c.confirms z.userId keep := by
  cases h with
  | stopped _ hanswer | lost _ hanswer | rejected _ hanswer =>
    rw [Attempt.ok, hanswer] at hok
    cases hok
  | verified => cases hpending
  | confirmed => exact ⟨rfl, _, rfl, rfl⟩
  | completed => cases hpending

lemma Effect.disabled_row (h : Effect s w w' c a ans) (hok : ans.isOk = true)
    (hc : c.disables u = true) : w'.db.mfaOf u = none := by
  cases c with
  | mfaDisable userId keepToken d =>
    cases h with
    | failed | stopped | lost | rejected => cases hok
    | disabled t hdb =>
      obtain rfl : userId = u := by simpa [Call.disables] using hc
      rw [hdb]
      exact (Table.find?_filter_key (k := Mfa.userId)).trans (if_pos rfl)
  | _ => cases hc

/-- **The second factor** of a user is there because it was, or because of a confirmation. -/
theorem Effect.enabled (h : Effect s w w' c a ans) (hw : Valid w.db)
    (henabled : w'.db.mfaEnabled u = true) :
    (w.db.mfaEnabled u = true ∧ ¬ (ans.isOk = true ∧ c.disables u = true)) ∨
      (ans.isOk = true ∧ ∃ keep, c.confirms u keep) := by
  obtain ⟨m', hm', hsecret⟩ := (h.valid hw).mfaEnabled_iff.mp henabled
  have hkept : ¬ (ans.isOk = true ∧ c.disables u = true) := by
    rintro ⟨hok, hc⟩
    rw [h.disabled_row hok hc] at hm'
    cases hm'
  have hstep := h.rowStep u
  rw [hm'] at hstep
  generalize hrow : w.db.mfaOf u = row at hstep
  -- Apart from a confirmation, the secret that is there now was there before.
  have hleft : (∃ m, row = some m ∧ m.secretEnc = m'.secretEnc) → w.db.mfaEnabled u = true := by
    rintro ⟨m, rfl, hsame⟩
    exact hw.mfaEnabled_iff.mpr ⟨m, hrow, by rw [hsame]; exact hsecret⟩
  cases hstep with
  | same => exact .inl ⟨hleft ⟨m', rfl, rfl⟩, hkept⟩
  | @failed m => exact .inl ⟨hleft ⟨m, rfl, rfl⟩, hkept⟩
  | @accepted m => exact .inl ⟨hleft ⟨m, rfl, rfl⟩, hkept⟩
  | begun =>
    cases row with
    | none => cases hsecret
    | some m => exact .inl ⟨hleft ⟨m, rfl, rfl⟩, hkept⟩
  | confirmed hz hu hok hpending =>
    subst hz hu
    exact .inr (h.confirms hpending hok)

/-- The bytes that a call draws for a challenge. -/
def Call.challengeDraw : Call → Option Bytes
  | .challenge _ _ _ raw _ _ => some raw
  | _ => none

/-- **Challenges**: the rows after a call were there before or are new. -/
theorem Effect.challenges (h : Effect s w w' c a ans) {row : Challenge} (hr : row ∈ w'.db.challenges) :
    row ∈ w.db.challenges ∨ ∃ raw, c.challengeDraw = some raw ∧ ans = .ok (.text (random raw)) ∧
      row.challengeHash = hash s (lit "login-challenge") (random raw) := by
  cases h with
  | failed hdb => exact .inl (by rwa [hdb] at hr)
  | stopped _ _ _ hdb => exact .inl (by rwa [hdb] at hr)
  | lost _ _ _ _ hdb => exact .inl (by rwa [hdb] at hr)
  | rejected _ _ _ hdb => exact .inl (by rwa [hdb] at hr)
  | issued h =>
    obtain ⟨user, -, -, -, -, -, hdb⟩ := h.written
    exact .inl (by rwa [hdb] at hr)
  | seen t t' _ _ hdb => exact .inl (by rwa [hdb] at hr)
  | revoked t hdb =>
    rw [hdb] at hr
    simp only at hr
    split_ifs at hr
    · exact .inl (List.mem_of_mem_filter hr)
    · exact .inl hr
  | loggedOut t hdb => exact .inl (by rwa [hdb] at hr)
  | verified t _ _ haccepted => exact .inl (by rwa [haccepted.frame.2] at hr)
  | begun until_ hdb => exact .inl (by rwa [hdb] at hr)
  | confirmed t t' _ _ _ _ hdb =>
    rw [hdb] at hr
    exact .inl (List.mem_of_mem_filter hr)
  | disabled t hdb =>
    rw [hdb] at hr
    exact .inl (List.mem_of_mem_filter hr)
  | challenged t hrow _ hdb =>
    rw [hdb] at hr
    rcases List.mem_append.mp hr with hr | hr
    · exact .inl (List.mem_of_mem_filter hr)
    · rw [List.mem_singleton.mp hr]
      exact .inr ⟨_, rfl, rfl, hrow⟩
  | completed t _ _ _ _ _ haccepted hissued =>
    obtain ⟨user, -, -, -, -, -, hdb⟩ := hissued.written
    rw [hdb] at hr
    have hmem := List.mem_of_mem_filter hr
    exact .inl (by rwa [haccepted.frame.2] at hmem)
  | roleChanged t hdb =>
    rw [hdb] at hr
    exact .inl (List.mem_of_mem_filter hr)

lemma Effect.completed_challenge {challenge code raw text : Bytes} {label binding : Option Bytes}
    {d₁ d₂ d₃ : ℕ} {fault : Fault}
    (h : Effect s w w' (.complete challenge code label binding raw d₁ d₂ d₃ fault) a
      (.ok (.text text))) :
    (∃ row ∈ w.db.challenges, row.challengeHash = hash s (lit "login-challenge") challenge) ∧
      ∀ row ∈ w'.db.challenges, row.challengeHash ≠ hash s (lit "login-challenge") challenge := by
  cases h with
  | completed t _ hchallenge hhash _ _ _ hissued =>
    refine ⟨⟨_, hchallenge, hhash⟩, fun row hr => ?_⟩
    obtain ⟨user, -, -, -, -, -, hdb⟩ := hissued.written
    rw [hdb] at hr
    have hne := (List.mem_filter.mp hr).2
    rw [hhash] at hne
    simpa using hne

end SbEasy.Auth

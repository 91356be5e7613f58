import SbEasy.AuthFaithful
import SbEasy.AuthSessions

/-!
Sessions along a run of calls whose commits may fail: what is accepted for a user with a second
factor, and what is never accepted again.
-/

namespace SbEasy.Auth

/-- A call, and the error it ends with if its commit fails, or another statement after which it is
rolled back. -/
structure Event where
  call : Call
  fault : Option Err := none

/-- A call in the history, with its answer. -/
abbrev Record := Event × Except Err Answer

/-- The successful calls about one user that start its second factor anew or end it. -/
def Record.Resets (u : Bytes) (x : Record) : Prop :=
  x.2.isOk = true ∧ (x.1.call.disables u = true ∨ ∃ keep, x.1.call.confirms u keep)

/-- A successful confirmation of a user that keeps a session. -/
def Record.Confirms (u : Bytes) (keep : Option Bytes) (x : Record) : Prop :=
  x.2.isOk = true ∧ x.1.call.confirms u keep

/-- A login that was completed, with its challenge and its token. -/
def Record.Completes (challenge text : Bytes) (x : Record) : Prop :=
  x.2 = .ok (.text text) ∧ ∃ code label binding raw d₁ d₂ d₃ fault,
    x.1.call = .complete challenge code label binding raw d₁ d₂ d₃ fault

/-- The tokens and challenges of a successful call, with the purposes of their hashes. -/
def Record.texts : Record → List (Bytes × Bytes)
  | (⟨.issue _ _ _ _ _, _⟩, .ok (.text token)) => [(lit "session", token)]
  | (⟨.challenge _ _ _ _ _ _, _⟩, .ok (.text challenge)) => [(lit "login-challenge", challenge)]
  | (⟨.complete challenge _ _ _ _ _ _ _ _, _⟩, .ok (.text token)) =>
    [(lit "login-challenge", challenge), (lit "session", token)]
  | _ => []

/-- The bytes that are drawn in a run, for one purpose. -/
def draws (draw : Call → Option Bytes) (es : List Event) : List Bytes :=
  es.filterMap fun e => draw e.call

variable [Platform] [Crypto]

/-- No two of these texts have the same hash. -/
def Apart (s : Security) (l : List (Bytes × Bytes)) : Prop :=
  ∀ x ∈ l, ∀ y ∈ l, hash s x.1 x.2 = hash s y.1 y.2 → x = y

/-- A call that is rolled back has changed nothing. -/
def step (s : Security) (e : Event) (w : Clocked Db) : Except Err Answer × Clocked Db :=
  match e.fault with
  | none => exec s e.call w
  | some err => (.error err, ⟨w.db, (exec s e.call w).2.now⟩)

def history (s : Security) (w : Clocked Db) (es : List Event) : List Record := Trace.trace (step s) w es

def reach (s : Security) (w : Clocked Db) (es : List Event) : Clocked Db := Trace.run (step s) w es

variable {s : Security} {w w' : Clocked Db} {e : Event} {es : List Event} {l : List (Bytes × Bytes)}

lemma step_effect (hw : Valid w.db) (e : Event) :
    ∃ a, Effect s w (step s e w).2 e.call a (step s e w).1 := by
  unfold step
  cases e.fault with
  | none => exact ⟨_, exec_effect hw e.call⟩
  | some err => exact ⟨none, .failed rfl⟩

lemma step_valid (hw : Valid w.db) (e : Event) : Valid (step s e w).2.db := by
  obtain ⟨a, h⟩ := step_effect (s := s) hw e
  exact h.valid hw

lemma valid_reach (s : Security) (es : List Event) (hw : Valid w.db) : Valid (reach s w es).db :=
  Trace.run_invariant (I := fun w : Clocked Db => Valid w.db) (fun e _ h => step_valid h e) hw

/-- The sessions of a user since the last confirmation: the one that was kept, and those of
completed logins. -/
def Guarded (s : Security) (h : List Record) (t : List Session) (u : Bytes) : Prop :=
  ∃ h₁ x h₂ keep, h = h₁ ++ x :: h₂ ∧ x.Confirms u keep ∧ (∀ y ∈ h₂, ¬ y.Resets u) ∧
    ∀ r ∈ t, r.userId = u → r.revokedAt = none →
      keep.map (hash s (lit "session")) = some r.tokenHash ∨
      ∃ y ∈ h₂, ∃ challenge text, y.Completes challenge text ∧
        r.tokenHash = hash s (lit "session") text

/-- The invariant of the history and the tables. -/
structure Secure (s : Security) (h : List Record) (w : Clocked Db) : Prop where
  valid : Valid w.db
  guarded : ∀ u, w.db.mfaEnabled u = true → Guarded s h w.db.sessions u

/-- A confirmation revokes all sessions but one. -/
lemma Guarded.confirmed {h : List Record} {a : Option Attempt} {ans : Except Err Answer} {u : Bytes}
    {keep : Option Bytes} (heffect : Effect s w w' e.call a ans) (hok : ans.isOk = true)
    (hconfirms : e.call.confirms u keep) :
    Guarded s (h ++ [(e, ans)]) w'.db.sessions u := by
  refine ⟨h, (e, ans), [], keep, rfl, ⟨hok, hconfirms⟩, by simp, fun r hr hu hopen => .inl ?_⟩
  obtain ⟨call, fault⟩ := e
  cases call with
  | mfaConfirm userId code keepToken raws d₁ d₂ fault =>
    obtain ⟨rfl, rfl⟩ := hconfirms
    cases heffect with
    | failed | stopped | lost | rejected => cases hok
    | confirmed t t' _ _ _ _ hdb =>
      rw [hdb] at hr
      exact kept_of_revoke hr hu hopen
  | _ => exact hconfirms.elim

lemma Guarded.step {h : List Record} {a : Option Attempt} {ans : Except Err Answer} {u : Bytes}
    (hg : Guarded s h w.db.sessions u) (heffect : Effect s w w' e.call a ans)
    (henabled : w.db.mfaEnabled u = true) (hno : ¬ Record.Resets u (e, ans)) :
    Guarded s (h ++ [(e, ans)]) w'.db.sessions u := by
  obtain ⟨h₁, x, h₂, keep, rfl, hconfirms, hquiet, hrows⟩ := hg
  refine ⟨h₁, x, h₂ ++ [(e, ans)], keep, by simp, hconfirms, ?_, fun r' hr' hu hopen => ?_⟩
  · intro y hy
    rcases List.mem_append.mp hy with hy | hy
    · exact hquiet y hy
    · rw [List.mem_singleton.mp hy]
      exact hno
  · rcases heffect.sessions hr' with ⟨r, hr, hru, hhash, hlive⟩ | hnew
    · rcases hrows r hr (hru.trans hu) (hlive hopen) with hkeep | ⟨y, hy, challenge, text, hc, htext⟩
      · exact .inl (by rw [hkeep, hhash])
      · exact .inr ⟨y, List.mem_append_left _ hy, challenge, text, hc, hhash.symm.trans htext⟩
    · obtain ⟨text, raw, hans, -, -, htext⟩ := hnew.answer
      obtain ⟨challenge, code, label, binding, raw, d₁, d₂, d₃, fault, hcall⟩ :=
        hnew.allowed (by rw [hu]; exact henabled)
      exact .inr ⟨(e, ans), by simp, challenge, text,
        ⟨hans, code, label, binding, raw, d₁, d₂, d₃, fault, hcall⟩, htext⟩

lemma Secure.step {h : List Record} (hs : Secure s h w) (e : Event) :
    Secure s (h ++ [(e, (step s e w).1)]) (step s e w).2 := by
  refine ⟨step_valid hs.valid e, fun u henabled => ?_⟩
  obtain ⟨a, heffect⟩ := step_effect (s := s) hs.valid e
  by_cases hconfirms : (Auth.step s e w).1.isOk = true ∧ ∃ keep, e.call.confirms u keep
  · obtain ⟨hok, keep, hconfirms⟩ := hconfirms
    exact .confirmed heffect hok hconfirms
  · obtain ⟨hbefore, hkept⟩ := (heffect.enabled hs.valid henabled).resolve_right hconfirms
    refine (hs.guarded u hbefore).step heffect hbefore ?_
    rintro ⟨hok, hdisables | hconfirms'⟩
    · exact hkept ⟨hok, hdisables⟩
    · exact hconfirms ⟨hok, hconfirms'⟩

/-- What was drawn for the rows that are there is not drawn again. -/
structure Drawn (s : Security) (l : List (Bytes × Bytes)) (es : List Event) (w : Clocked Db) :
    Prop where
  sessions : ∀ r ∈ w.db.sessions, ∃ raw text, TokenOf s raw text ∧ (lit "session", text) ∈ l ∧
    r.tokenHash = hash s (lit "session") text ∧ raw ∉ draws Call.sessionDraw es
  challenges : ∀ c ∈ w.db.challenges, ∃ raw, (lit "login-challenge", random raw) ∈ l ∧
    c.challengeHash = hash s (lit "login-challenge") (random raw) ∧ raw ∉ draws Call.challengeDraw es

/-- All texts of a run are among these. -/
def Within (l : List (Bytes × Bytes)) (s : Security) (w : Clocked Db) (es : List Event) : Prop :=
  ∀ x ∈ history s w es, ∀ y ∈ x.texts, y ∈ l

omit [Platform] in
lemma Apart.eq (h : Apart s l) {purpose a b : Bytes} (ha : (purpose, a) ∈ l) (hb : (purpose, b) ∈ l)
    (hsame : hash s purpose a = hash s purpose b) : a = b :=
  (Prod.mk.inj (h _ ha _ hb hsame)).2

lemma Within.head (h : Within l s w (e :: es)) : ∀ y ∈ Record.texts (e, (step s e w).1), y ∈ l :=
  h _ (List.mem_cons_self)

lemma Within.tail (h : Within l s w (e :: es)) : Within l s (step s e w).2 es :=
  fun x hx => h x (List.mem_cons_of_mem _ hx)

lemma Within.right {es₁ es₂ : List Event} (h : Within l s w (es₁ ++ es₂)) :
    Within l s (reach s w es₁) es₂ := by
  intro x hx
  refine h x ?_
  rw [history, Trace.trace_append]
  exact List.mem_append_right _ hx

omit [Platform] [Crypto] in
lemma session_mem_texts {raw text : Bytes} (h : e.call.sessionDraw = some raw) :
    (lit "session", text) ∈ Record.texts (e, .ok (.text text)) := by
  obtain ⟨call, fault⟩ := e
  cases call <;> simp_all [Call.sessionDraw, Record.texts]

omit [Platform] [Crypto] in
lemma challenge_mem_texts {raw text : Bytes} (h : e.call.challengeDraw = some raw) :
    (lit "login-challenge", text) ∈ Record.texts (e, .ok (.text text)) := by
  obtain ⟨call, fault⟩ := e
  cases call <;> simp_all [Call.challengeDraw, Record.texts]

section

variable {draw : Call → Option Bytes} {raw : Bytes}

omit [Platform] [Crypto]

lemma mem_draws_cons (h : raw ∈ draws draw es) : raw ∈ draws draw (e :: es) := by
  obtain ⟨e', he', hdraw⟩ := List.mem_filterMap.mp h
  exact List.mem_filterMap.mpr ⟨e', List.mem_cons_of_mem e he', hdraw⟩

lemma nodup_of_cons (h : (draws draw (e :: es)).Nodup) : (draws draw es).Nodup :=
  h.sublist (List.Sublist.filterMap _ (List.sublist_cons_self e es))

lemma not_mem_draws (h : (draws draw (e :: es)).Nodup) (hdraw : draw e.call = some raw) :
    raw ∉ draws draw es := by
  have hcons : draws draw (e :: es) = raw :: draws draw es := List.filterMap_cons_some hdraw
  rw [hcons] at h
  exact (List.nodup_cons.mp h).1

end

lemma Drawn.step (hw : Valid w.db) (hl : ∀ y ∈ Record.texts (e, (step s e w).1), y ∈ l)
    (hsessions : (draws Call.sessionDraw (e :: es)).Nodup)
    (hchallenges : (draws Call.challengeDraw (e :: es)).Nodup) (h : Drawn s l (e :: es) w) :
    Drawn s l es (step s e w).2 := by
  obtain ⟨a, heffect⟩ := step_effect (s := s) hw e
  refine ⟨fun r' hr' => ?_, fun c hc => ?_⟩
  · rcases heffect.sessions hr' with ⟨r, hr, -, hhash, -⟩ | hnew
    · obtain ⟨raw, text, htext, hmem, hr, hraw⟩ := h.sessions r hr
      exact ⟨raw, text, htext, hmem, hhash.symm.trans hr, fun hmem => hraw (mem_draws_cons hmem)⟩
    · obtain ⟨text, raw, hans, hdraw, htext, hhash⟩ := hnew.answer
      exact ⟨raw, text, htext, hl _ (by rw [hans]; exact session_mem_texts hdraw), hhash,
        not_mem_draws hsessions hdraw⟩
  · rcases heffect.challenges hc with hc | ⟨raw, hdraw, hans, hhash⟩
    · obtain ⟨raw, hmem, hhash, hraw⟩ := h.challenges c hc
      exact ⟨raw, hmem, hhash, fun hmem => hraw (mem_draws_cons hmem)⟩
    · exact ⟨raw, hl _ (by rw [hans]; exact challenge_mem_texts hdraw), hhash,
        not_mem_draws hchallenges hdraw⟩

lemma Drawn.reach {es₁ es₂ : List Event} (hw : Valid w.db) (hl : Within l s w (es₁ ++ es₂))
    (hsessions : (draws Call.sessionDraw (es₁ ++ es₂)).Nodup)
    (hchallenges : (draws Call.challengeDraw (es₁ ++ es₂)).Nodup) (h : Drawn s l (es₁ ++ es₂) w) :
    Drawn s l es₂ (reach s w es₁) := by
  induction es₁ generalizing w with
  | nil => exact h
  | cons e es₁ ih =>
    exact ih (step_valid hw e) hl.tail (nodup_of_cons hsessions) (nodup_of_cons hchallenges)
      (h.step hw hl.head hsessions hchallenges)

/-- No session of this token can be used. -/
def Ended (hashed : Bytes) (t : List Session) : Prop :=
  ∀ r ∈ t, r.tokenHash = hashed → r.revokedAt.isSome = true

/-- A session that has ended does not come back, since its identifier is not drawn again. -/
lemma ended_reach (hapart : Apart s l) {raw text : Bytes} (htext : TokenOf s raw text)
    (hmem : (lit "session", text) ∈ l) (hw : Valid w.db) (hl : Within l s w es)
    (hraw : raw ∉ draws Call.sessionDraw es)
    (h : Ended (hash s (lit "session") text) w.db.sessions) :
    Ended (hash s (lit "session") text) (reach s w es).db.sessions := by
  induction es generalizing w with
  | nil => exact h
  | cons e es ih =>
    refine ih (step_valid hw e) hl.tail (fun hmem => hraw (mem_draws_cons hmem)) fun r' hr' hhash' => ?_
    obtain ⟨a, heffect⟩ := step_effect (s := s) hw e
    rcases heffect.sessions hr' with ⟨r, hr, -, hhash, hopen⟩ | hnew
    · have hended := h r hr (hhash.trans hhash')
      by_contra hne
      rw [hopen (by simpa using hne)] at hended
      cases hended
    · obtain ⟨text', raw', hans, hdraw, ⟨user', now', htext'⟩, hnewhash⟩ := hnew.answer
      obtain ⟨user, now, rfl⟩ := htext
      have hnew : (lit "session", text') ∈ l := hl.head _ (by rw [hans]; exact session_mem_texts hdraw)
      have hsame := hapart.eq hnew hmem (hnewhash.symm.trans hhash')
      rw [raw_of_signed (htext'.symm.trans hsame)] at hdraw
      exact absurd (List.mem_filterMap.mpr ⟨e, by simp, hdraw⟩) hraw

/-- A challenge that was answered does not come back, since it is not drawn again. -/
lemma gone_reach (hapart : Apart s l) {raw : Bytes} (hmem : (lit "login-challenge", random raw) ∈ l)
    (hw : Valid w.db) (hl : Within l s w es) (hraw : raw ∉ draws Call.challengeDraw es)
    (h : ∀ c ∈ w.db.challenges, c.challengeHash ≠ hash s (lit "login-challenge") (random raw)) :
    ∀ c ∈ (reach s w es).db.challenges,
      c.challengeHash ≠ hash s (lit "login-challenge") (random raw) := by
  induction es generalizing w with
  | nil => exact h
  | cons e es ih =>
    refine ih (step_valid hw e) hl.tail (fun hmem => hraw (mem_draws_cons hmem)) fun c hc hhash => ?_
    obtain ⟨a, heffect⟩ := step_effect (s := s) hw e
    rcases heffect.challenges hc with hc | ⟨raw', hdraw, hans, hnewhash⟩
    · exact h c hc hhash
    · have hnew : (lit "login-challenge", random raw') ∈ l :=
        hl.head _ (by rw [hans]; exact challenge_mem_texts hdraw)
      rw [random_injective (hapart.eq hnew hmem (hnewhash.symm.trans hhash))] at hdraw
      exact hraw (List.mem_filterMap.mpr ⟨e, by simp, hdraw⟩)

lemma not_accepted_of_ended {text : Bytes} (hw : Valid w.db)
    (h : Ended (hash s (lit "session") text) w.db.sessions) (d₁ d₂ d₃ : ℕ) :
    (exec s (.verify text d₁ d₂ d₃) w).1.isOk = false := by
  by_contra hok
  obtain ⟨claims, -, r, hr, hhash, -, hopen⟩ :=
    (exec_effect (s := s) hw (.verify text d₁ d₂ d₃)).accepted (by simpa using hok)
  have hended := h r hr hhash
  rw [hopen] at hended
  cases hended

/-! ### Main result -/

/-- What is true of the sessions in a run. -/
structure SessionSafety (s : Security) (w : Clocked Db) (es : List Event) : Prop where
  /-- A token is accepted because of the row of its session. -/
  accepted : ∀ text d₁ d₂ d₃, (exec s (.verify text d₁ d₂ d₃) (reach s w es)).1.isOk = true →
    ∃ claims, (exec s (.verify text d₁ d₂ d₃) (reach s w es)).1 = .ok (.claims claims) ∧
      ∃ r ∈ (reach s w es).db.sessions, r.tokenHash = hash s (lit "session") text ∧
        r.userId = claims.subject ∧ r.revokedAt = none
  /-- The rows of a user with a second factor. -/
  guarded : ∀ u, (reach s w es).db.mfaEnabled u = true →
    Guarded s (history s w es) (reach s w es).db.sessions u
  /-- A revoked session is not accepted any more. -/
  revoked : ∀ es₁ es₂ r text, es = es₁ ++ es₂ → r ∈ (reach s w es₁).db.sessions →
    r.revokedAt.isSome = true → r.tokenHash = hash s (lit "session") text →
    ∀ d₁ d₂ d₃, (exec s (.verify text d₁ d₂ d₃) (reach s w es)).1.isOk = false
  /-- Nor is one that a successful call has revoked or logged out. -/
  ended : ∀ es₁ e es₂ r text, es = es₁ ++ e :: es₂ → r ∈ (reach s w es₁).db.sessions →
    e.call.ends s r → (step s e (reach s w es₁)).1.isOk = true →
    r.tokenHash = hash s (lit "session") text →
    ∀ d₁ d₂ d₃, (exec s (.verify text d₁ d₂ d₃) (reach s w es)).1.isOk = false
  /-- A challenge gives one session. -/
  challenges : (history s w es).Pairwise fun x y => ∀ challenge text text',
    x.Completes challenge text → ¬ y.Completes challenge text'

section

variable (hapart : Apart s l)

include hapart

lemma not_accepted_reach (hw : Valid w.db) (hl : Within l s w es) {raw text text' : Bytes}
    (htext' : TokenOf s raw text') (hmem : (lit "session", text') ∈ l)
    (hraw : raw ∉ draws Call.sessionDraw es)
    (hended : Ended (hash s (lit "session") text') w.db.sessions)
    (hsame : hash s (lit "session") text' = hash s (lit "session") text) (d₁ d₂ d₃ : ℕ) :
    (exec s (.verify text d₁ d₂ d₃) (reach s w es)).1.isOk = false := by
  refine not_accepted_of_ended (valid_reach s es hw) ?_ d₁ d₂ d₃
  rw [← hsame]
  exact ended_reach hapart htext' hmem hw hl hraw hended

lemma revoked_reach (hw : Valid w.db) (hl : Within l s w es) (hdrawn : Drawn s l es w) {r : Session}
    {text : Bytes} (hr : r ∈ w.db.sessions) (hrevoked : r.revokedAt.isSome = true)
    (htext : r.tokenHash = hash s (lit "session") text) (d₁ d₂ d₃ : ℕ) :
    (exec s (.verify text d₁ d₂ d₃) (reach s w es)).1.isOk = false := by
  obtain ⟨raw, text', htext', hmem, hhash, hraw⟩ := hdrawn.sessions r hr
  refine not_accepted_reach hapart hw hl htext' hmem hraw (fun r' hr' hhash' => ?_)
    (hhash.symm.trans htext) d₁ d₂ d₃
  rw [hw.eq_of_tokenHash hr' hr (hhash'.trans hhash.symm)]
  exact hrevoked

lemma ended_by_call (hw : Valid w.db) (hl : Within l s w (e :: es)) (hdrawn : Drawn s l (e :: es) w)
    {r : Session} {text : Bytes} (hr : r ∈ w.db.sessions) (hends : e.call.ends s r)
    (hok : (step s e w).1.isOk = true) (htext : r.tokenHash = hash s (lit "session") text)
    (d₁ d₂ d₃ : ℕ) : (exec s (.verify text d₁ d₂ d₃) (reach s w (e :: es))).1.isOk = false := by
  obtain ⟨raw, text', htext', hmem, hhash, hraw⟩ := hdrawn.sessions r hr
  obtain ⟨a, heffect⟩ := step_effect (s := s) hw e
  refine not_accepted_reach hapart (step_valid hw e) hl.tail htext' hmem
    (fun hmem => hraw (mem_draws_cons hmem)) (fun r' hr' hhash' => ?_) (hhash.symm.trans htext) d₁ d₂ d₃
  exact heffect.ended hok hw hr hends hr' (hhash'.trans hhash.symm)

lemma challenges_once (hw : Valid w.db) (hl : Within l s w es)
    (hsessions : (draws Call.sessionDraw es).Nodup)
    (hchallenges : (draws Call.challengeDraw es).Nodup) (hdrawn : Drawn s l es w) :
    (history s w es).Pairwise fun x y => ∀ challenge text text',
      x.Completes challenge text → ¬ y.Completes challenge text' := by
  induction es generalizing w with
  | nil => exact .nil
  | cons e es ih =>
    refine List.pairwise_cons.mpr ⟨?_, ih (step_valid hw e) hl.tail (nodup_of_cons hsessions)
      (nodup_of_cons hchallenges) (hdrawn.step hw hl.head hsessions hchallenges)⟩
    rintro y hy challenge text text' ⟨hans, code, label, binding, raw, d₁, d₂, d₃, fault, hcall⟩
      ⟨hans', code', label', binding', raw', d₁', d₂', d₃', fault', hcall'⟩
    obtain ⟨a, heffect⟩ := step_effect (s := s) hw e
    simp only at hans hcall
    rw [hans, hcall] at heffect
    obtain ⟨⟨row, hrow, hhash⟩, hgone⟩ := heffect.completed_challenge
    obtain ⟨draw, hmem, hdraw, hfresh⟩ := hdrawn.challenges row hrow
    have hanswered : (lit "login-challenge", challenge) ∈ l := by
      refine hl.head _ ?_
      obtain ⟨call, err⟩ := e
      subst hcall
      rw [hans]
      exact List.mem_cons_self
    obtain rfl := hapart.eq hmem hanswered (hdraw.symm.trans hhash)
    obtain ⟨es₁, e', es₂, rfl, rfl⟩ := Trace.split_of_mem_trace hy
    have hw₁ : Valid (reach s (step s e w).2 es₁).db := valid_reach s es₁ (step_valid hw e)
    obtain ⟨a', heffect'⟩ := step_effect (s := s) hw₁ e'
    simp only at hans' hcall'
    rw [reach, hans', hcall'] at heffect'
    obtain ⟨⟨row', hrow', hhash'⟩, -⟩ := heffect'.completed_challenge
    refine gone_reach hapart hmem (step_valid hw e) (fun x hx => hl.tail x ?_) ?_ hgone row' hrow' hhash'
    · rw [history, Trace.trace_append]
      exact List.mem_append_left _ hx
    · intro hmem
      refine hfresh (mem_draws_cons ?_)
      obtain ⟨e'', he'', hdraw''⟩ := List.mem_filterMap.mp hmem
      exact List.mem_filterMap.mpr ⟨e'', by simp [he''], hdraw''⟩

end

/-- No sessions, codes or challenges yet. -/
def Db.Fresh (db : Db) : Prop :=
  db.sessions = [] ∧ db.mfa = [] ∧ db.recovery = [] ∧ db.challenges = []

/-- **Session safety**, where no two tokens or challenges of the run have the same hash, and the
random bytes for them do not repeat. -/
theorem session_safety (s : Security) (w : Clocked Db) (es : List Event) (hw : w.db.Fresh)
    (hapart : Apart s ((history s w es).flatMap Record.texts))
    (hsessions : (draws Call.sessionDraw es).Nodup)
    (hchallenges : (draws Call.challengeDraw es).Nodup) : SessionSafety s w es := by
  obtain ⟨hs, hm, hr, hc⟩ := hw
  have hvalid : Valid w.db := by
    constructor <;> simp [hs, hm, hr, hc]
  have hl : Within ((history s w es).flatMap Record.texts) s w es :=
    fun x hx y hy => List.mem_flatMap.mpr ⟨x, hx, hy⟩
  have hdrawn : ∀ l es, Drawn s l es w := fun l es => ⟨by simp [hs], by simp [hc]⟩
  have hsecure : Secure s (history s w es) (reach s w es) :=
    Trace.trace_invariant (I := fun h w => Secure s h w)
      ⟨hvalid, fun u henabled => by simp [Db.mfaEnabled, hm] at henabled⟩
      fun h e w hsecure => hsecure.step e
  refine ⟨fun text d₁ d₂ d₃ hok => ?_, hsecure.guarded, ?_, ?_, ?_⟩
  · exact (exec_effect hsecure.valid (.verify text d₁ d₂ d₃)).accepted hok
  · rintro es₁ es₂ r text rfl hr hrevoked htext d₁ d₂ d₃
    have hmoment := (hdrawn _ (es₁ ++ es₂)).reach hvalid hl hsessions hchallenges
    rw [reach, Trace.run_append]
    exact revoked_reach hapart (valid_reach s es₁ hvalid) hl.right hmoment hr hrevoked htext d₁ d₂ d₃
  · rintro es₁ e es₂ r text rfl hr hends hok htext d₁ d₂ d₃
    have hmoment := (hdrawn _ (es₁ ++ e :: es₂)).reach hvalid hl hsessions hchallenges
    rw [reach, Trace.run_append]
    exact ended_by_call hapart (valid_reach s es₁ hvalid) hl.right hmoment hr hends hok htext d₁ d₂ d₃
  · exact challenges_once hapart hvalid hl hsessions hchallenges (hdrawn _ es)

/-- The token of the session with this identifier below. -/
def exampleToken (raw : Bytes) (now : ℤ) : Bytes :=
  @signed .sample .sample ⟨lit "k", false⟩ (payload ⟨lit "u", lit "u", lit "admin"⟩ (random raw) now)

/-- A user logs in, sets up a second factor in this session, logs in again with it, and leaves the
first session. -/
def exampleEvents : List Event := [
  ⟨.issue (lit "u") (lit "password") none [1] 0, none⟩,
  ⟨.mfaBegin (lit "u") (List.replicate 20 0) (List.replicate 12 7) 0, none⟩,
  ⟨.mfaConfirm (lit "u") (lit "000000") (some (exampleToken [1] 90))
    (fun i => [i.val.toUInt8]) 0 0, none⟩,
  ⟨.issue (lit "u") (lit "password") none [4] 0, none⟩,
  ⟨.challenge (lit "u") (lit "password") none [2] 0 0, none⟩,
  ⟨.complete (random [2]) (lit "000000") none none [3] 0 60 0, none⟩,
  ⟨.logout (exampleToken [1] 90) 0, none⟩]

def exampleStart : Clocked Db := ⟨⟨[⟨lit "u", lit "u", lit "admin"⟩], [], [], [], []⟩, 90⟩

omit [Platform] [Crypto] in
theorem session_safety_example :
    ((@history .sample .sample ⟨lit "k", false⟩ exampleStart exampleEvents).map (·.2.isOk)) =
      [true, true, true, false, true, true, true] ∧
    (@reach .sample .sample ⟨lit "k", false⟩ exampleStart exampleEvents).db.mfaEnabled (lit "u") = true ∧
    ([exampleToken [1] 90, exampleToken [3] 150].map fun text =>
      (@exec .sample .sample ⟨lit "k", false⟩ (.verify text 0 0 0)
        (@reach .sample .sample ⟨lit "k", false⟩ exampleStart exampleEvents)).1.isOk) = [false, true] ∧
    @SessionSafety .sample .sample ⟨lit "k", false⟩ exampleStart exampleEvents :=
  have hrun : _ ∧ _ ∧ _ := by decide +kernel
  ⟨hrun.1, hrun.2.1, hrun.2.2, @session_safety .sample .sample ⟨lit "k", false⟩ exampleStart exampleEvents
    ⟨rfl, rfl, rfl, rfl⟩ (by unfold Apart; decide +kernel) (by decide) (by decide)⟩

/-- A call that hands out the token of a new session. -/
def Record.Begins (text : Bytes) (x : Record) : Prop :=
  x.2 = .ok (.text text) ∧ x.1.call.sessionDraw.isSome = true

/-- Every session has a call that began it. -/
structure Begun (s : Security) (h : List Record) (w : Clocked Db) : Prop where
  valid : Valid w.db
  rows : ∀ r ∈ w.db.sessions, ∃ x ∈ h, ∃ text,
    x.Begins text ∧ r.tokenHash = hash s (lit "session") text

lemma Begun.step {h : List Record} (hb : Begun s h w) (e : Event) :
    Begun s (h ++ [(e, (step s e w).1)]) (step s e w).2 := by
  obtain ⟨a, heffect⟩ := step_effect (s := s) hb.valid e
  refine ⟨heffect.valid hb.valid, fun r' hr' => ?_⟩
  rcases heffect.sessions hr' with ⟨r, hr, -, hhash, -⟩ | hnew
  · obtain ⟨x, hx, text, hbegins, htext⟩ := hb.rows r hr
    exact ⟨x, List.mem_append_left _ hx, text, hbegins, hhash.symm.trans htext⟩
  · obtain ⟨text, raw, hans, hdraw, -, htext⟩ := hnew.answer
    exact ⟨(e, _), by simp, text, ⟨hans, by simp [hdraw]⟩, htext⟩

/-- **No token is made up**: one that is accepted was handed out in the run, or has the hash of one
that was. -/
theorem accepted_was_issued (s : Security) (w : Clocked Db) (es : List Event) (hw : w.db.Fresh)
    {text : Bytes} {d₁ d₂ d₃ : ℕ}
    (hok : (exec s (.verify text d₁ d₂ d₃) (reach s w es)).1.isOk = true) :
    ∃ x ∈ history s w es, ∃ text', x.Begins text' ∧
      hash s (lit "session") text = hash s (lit "session") text' := by
  obtain ⟨hs, hm, hr, hc⟩ := hw
  have hbegun : Begun s (history s w es) (reach s w es) := Trace.trace_invariant (I := Begun s)
    ⟨by constructor <;> simp [hs, hm, hr, hc], by simp [hs]⟩ fun h e w hb => hb.step e
  obtain ⟨_, -, r, hr, hhash, -⟩ := (exec_effect hbegun.valid (.verify text d₁ d₂ d₃)).accepted hok
  rw [← hhash]
  exact hbegun.rows r hr

omit [Platform] [Crypto] in
theorem accepted_was_issued_example : ∃ x ∈ @history .sample .fixed ⟨lit "k", false⟩ exampleStart
    (exampleEvents.take 1), ∃ text, x.Begins text :=
  have ⟨x, hx, text, h, _⟩ := @accepted_was_issued .sample .fixed ⟨lit "k", false⟩ exampleStart
    (exampleEvents.take 1) ⟨rfl, rfl, rfl, rfl⟩ (@signed .sample .fixed ⟨lit "k", false⟩
      (payload ⟨lit "u", lit "u", lit "admin"⟩ (random [1]) 90)) 0 0 0 (by decide +kernel)
  ⟨x, hx, text, h⟩

end SbEasy.Auth

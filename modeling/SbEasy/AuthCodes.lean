import SbEasy.AuthRow

/-!
One-time codes along a run of calls: none is accepted twice, and only few wrong ones are looked at.
-/

namespace SbEasy.Auth

variable [Platform] [Crypto]

def after (s : Security) (w : Clocked Db) (cs : List Call) : Clocked Db := Trace.run (exec s) w cs

/-- A code of a user in the 300 seconds from some time on. -/
def Attempt.within (u : Bytes) (start : ℤ) (z : Attempt) : Bool :=
  z.userId == u && decide (start ≤ z.time ∧ z.time < start + mfaLockSeconds)

/-- The number of codes of a user that were looked at and found wrong in these 300 seconds. -/
def rejections (u : Bytes) (start : ℤ) (l : List Attempt) : ℕ :=
  l.countP fun z => z.within u start && z.verdict.wrong

variable {s : Security} {w w' : Clocked Db} {c : Call} {cs : List Call} {a : Option Attempt} {u : Bytes}

/-- No step up to this one is open for the enabled secret. -/
def Closed (step : ℤ) (row : Option Mfa) : Prop :=
  ∀ m, row = some m → m.secretEnc.isSome = true → step ≤ m.lastStep

variable {row row' : Option Mfa}

omit [Platform] [Crypto] in
/-- A step stays closed until another secret is enabled. -/
lemma RowStep.closed {step : ℤ} (h : RowStep u c a row row') (hrow : Closed step row)
    (hno : ∀ z, a = some z → z.userId = u → z.ok = true → z.pending = false) : Closed step row' := by
  cases h with
  | same => exact hrow
  | @failed m =>
    rintro _ ⟨⟩ hsecret
    exact hrow m rfl hsecret
  | accepted _ _ _ _ _ hlast =>
    rintro _ ⟨⟩ hsecret
    have hle := hrow _ rfl hsecret
    simp only [Mfa.accept]
    omega
  | @begun _ encrypted until_ hz =>
    cases row with
    | none =>
      rintro _ ⟨⟩ hsecret
      cases hsecret
    | some m =>
      rintro _ ⟨⟩ hsecret
      exact hrow m rfl hsecret
  | confirmed hz hu hok hpending =>
    rw [hno _ hz hu hok] at hpending
    cases hpending
  | disabled =>
    rintro _ ⟨⟩

variable {hashed : Bytes} {t : List RecoveryCode}

/-- What the row of a user says after some wrong codes in the 300 seconds from `start` on. -/
def Counted (start : ℤ) (k : ℕ) (row : Option Mfa) : Prop :=
  (row = none ∧ k = 0) ∨ ∃ m, row = some m ∧
    ((k ≤ m.failedAttempts ∧ k ≤ 4) ∨ start + mfaLockSeconds ≤ m.lockedUntil)

/-- The invariant of the lock. -/
structure Window (u : Bytes) (start : ℤ) (k : ℕ) (w : Clocked Db) : Prop where
  le : k ≤ 5
  started : k = 0 ∨ start ≤ w.now
  counted : w.now < start + mfaLockSeconds → Counted start k (w.db.mfaOf u)

section

variable {start : ℤ} {k : ℕ} {z : Attempt}

omit [Platform] [Crypto]

lemma Window.later (h : Window u start k w) (hle : w.now ≤ w'.now)
    (hrow : Counted start k (w.db.mfaOf u) → Counted start k (w'.db.mfaOf u)) :
    Window u start k w' :=
  ⟨h.le, h.started.imp_right hle.trans', fun hlt => hrow (h.counted (by omega))⟩

lemma Window.outside (h : Window u start k w) (hlooked : Looked w w' z) (hu : z.userId = u)
    (hout : z.within u start = false) (hrow : Counted start 0 (w'.db.mfaOf u)) :
    Window u start k w' := by
  have hstop := hlooked.stop
  have hstart := hlooked.start
  simp only [Attempt.within, hu, beq_self_eq_true, Bool.true_and, decide_eq_false_iff_not, not_and,
    not_lt] at hout
  rcases lt_or_ge z.time start with hbefore | hafter
  · have hzero : k = 0 := h.started.resolve_right (by omega)
    subst hzero
    exact ⟨h.le, .inl rfl, fun _ => hrow⟩
  · have := hout hafter
    exact ⟨h.le, h.started.imp_right (by omega), fun hlt => by omega⟩

/-- A wrong code in the window was looked at, so it found no lock. -/
lemma Window.failed {m : Mfa} (h : Window u start k w) (hlooked : Looked w w' z)
    (hrow : w.db.mfaOf z.userId = some m) (hrow' : w'.db.mfaOf z.userId = some (m.fail z.time))
    (hverdict : z.verdict = .rejected) (hin : z.within u start = true) :
    Window u start (k + 1) w' := by
  have hstop := hlooked.stop
  have hstart := hlooked.start
  simp only [Attempt.within, Bool.and_eq_true, beq_iff_eq, decide_eq_true_eq] at hin
  obtain ⟨rfl, hafter, hbefore⟩ := hin
  obtain ⟨err, herr⟩ | ⟨m', encrypted, hgate⟩ := hlooked.gate
  · rw [hverdict] at herr
    cases herr
  obtain ⟨hm, -, hunlocked⟩ := gate_ok hgate
  obtain rfl := Option.some.inj (hrow.symm.trans hm)
  obtain ⟨hnone, -⟩ | ⟨m', hm', hcount⟩ := h.counted (by omega)
  · rw [hrow] at hnone
    cases hnone
  obtain rfl := Option.some.inj (hrow.symm.trans hm')
  obtain ⟨hfailed, hfour⟩ : k ≤ m.failedAttempts ∧ k ≤ 4 := hcount.resolve_right (by omega)
  refine ⟨by omega, .inr (by omega), fun _ => .inr ⟨_, hrow', ?_⟩⟩
  simp only [Mfa.fail]
  split_ifs
  · exact .inr (by omega)
  · exact .inl ⟨by push_cast; omega, by omega⟩

/-- **One call** keeps the invariant of the lock. -/
lemma Window.step (hw : Valid w.db) (h : Window u start k w)
    (hstep : RowStep u c a (w.db.mfaOf u) (w'.db.mfaOf u)) (hle : w.now ≤ w'.now)
    (hlooked : ∀ z, a = some z → Looked w w' z) (hc : c.disables u = false)
    (hcounted : c.fails .count = false)
    (hok : ∀ z, a = some z → z.within u start = true → z.ok = false) :
    Window u start (k + rejections u start a.toList) w' := by
  generalize hrow : w.db.mfaOf u = row at hstep
  generalize hrow' : w'.db.mfaOf u = row' at hstep
  have hnone : (∀ z, a = some z → z.within u start = true → z.verdict.wrong = false) →
      rejections u start a.toList = 0 := by
    intro hno
    rw [rejections, List.countP_eq_zero]
    intro z hz
    simp only [Bool.and_eq_true, not_and, Bool.not_eq_true]
    exact hno z (Option.mem_toList.mp hz)
  cases hstep with
  | same hother =>
    have hright : ∀ z, a = some z → z.within u start = true → z.verdict.wrong = false := by
      intro z hz hin
      have hu : z.userId = u := by simp_all [Attempt.within]
      by_contra hwrong
      rw [(hother z hz hu).2 (by simpa using hwrong)] at hcounted
      cases hcounted
    rw [hnone hright, add_zero]
    exact h.later hle (by rw [hrow, hrow']; exact fun h => h)
  | @failed m z hz hu _ hverdict =>
    subst hz
    by_cases hin : z.within u start = true
    · have hone : rejections u start (some z).toList = 1 := by
        simp [rejections, hin, hverdict, Verdict.wrong]
      subst hu
      rw [hone]
      exact h.failed (hlooked z rfl) hrow hrow' hverdict hin
    · have hout : z.within u start = false := by simpa using hin
      rw [hnone fun z' hz' hin' => by simp_all, add_zero]
      refine h.outside (hlooked z rfl) hu hout ?_
      have hcount := hw.counts m (List.mem_of_find?_eq_some hrow)
      rw [hrow']
      refine .inr ⟨_, rfl, .inl ⟨?_, by omega⟩⟩
      simp only [Mfa.fail]
      split_ifs <;> omega
  | @accepted m z step last hz hu hok' | @confirmed m z step last hz hu hok' =>
    subst hz
    have hout : z.within u start = false := by
      by_contra hin
      simp [hok z rfl (by simpa using hin)] at hok'
    rw [hnone fun z' hz' hin' => by simp_all, add_zero]
    refine h.outside (hlooked z rfl) hu hout ?_
    rw [hrow']
    exact .inr ⟨_, rfl, .inl ⟨le_rfl, by omega⟩⟩
  | @begun _ encrypted until_ hz =>
    rw [hnone fun z' hz' => by simp [hz] at hz', add_zero]
    refine h.later hle fun hcount => ?_
    rw [hrow']
    rw [hrow] at hcount
    obtain ⟨rfl, rfl⟩ | ⟨m, rfl, hm⟩ := hcount
    · exact .inr ⟨_, rfl, .inl ⟨le_rfl, by omega⟩⟩
    · exact .inr ⟨_, rfl, hm⟩
  | disabled _ hdisables =>
    rw [hc] at hdisables
    cases hdisables

end

end SbEasy.Auth

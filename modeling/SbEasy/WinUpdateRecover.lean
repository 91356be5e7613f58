import SbEasy.WinUpdateSpec

/-!
What the update helper does to undo an update: the label `terminal`, and the branch of `--recover`.
-/

namespace SbEasy.WinUpdate

open Prog

variable {u : Update} {w w' : World}

/-! ### What is known while a state can be put back -/

/-- No installer is at work, and there is a backup. -/
structure Settled (u : Update) (existed : Bool) (w : World) : Prop where
  inv : Inv u w
  idle : w.installer = false
  backed : w.Backed existed

/-- The previous version is registered, too. -/
structure Undoing (u : Update) (existed : Bool) (w : World) : Prop extends Settled u existed w where
  previous : w.registered = u.job.previousVersion

variable {existed : Bool} {l : Locals}

lemma Settled.rely (h : Settled u existed w) (hr : Rely u w w') : Settled u existed w' :=
  ⟨h.inv.rely hr, (hr.idle h.idle).1, h.backed.rely hr⟩

lemma Undoing.rely (h : Undoing u existed w) (hr : Rely u w w') : Undoing u existed w' :=
  ⟨h.toSettled.rely hr, (hr.idle h.idle).2.trans h.previous⟩

lemma keeps_undoing (existed : Bool) : Keeps u (Undoing u existed) :=
  ⟨fun _ _ => Undoing.rely, fun _ hw => hw.inv⟩

lemma Undoing.other (h : Undoing u existed w) : w.registered ≠ u.release.version := by
  obtain ⟨d, hsaved, -⟩ := h.backed
  rw [h.previous]
  exact (h.inv.newer (by rw [hsaved]; simp)).symm

lemma Undoing.writeJournal (h : Undoing u existed w) (id : Bytes) (phase : Phase)
    (code : ℕ) : Undoing u existed (w.writeJournal ⟨id, phase, existed, code⟩) :=
  ⟨⟨h.inv.writeJournal fun _ => h.backed, h.idle, h.backed⟩, h.previous⟩

lemma Undoing.askHealth (h : Undoing u existed w) (recorded : Bool) :
    Undoing u existed (w.askHealth u true recorded) :=
  ⟨⟨h.inv.askHealth recorded fun _ => ⟨h.other, h.idle⟩, h.idle, h.backed⟩, h.previous⟩

lemma triple_afterPutBack (existed : Bool) (code : ℕ) (original : String) :
    Triple (setting u) (fun w => Undoing u existed w ∧ w.restored = true)
      (do
        serviceState true
        probe .serviceBinary
        healthRpc u u.job.previousVersion true
        writeResult u.release.id u.release.version .rolledBack code true original
        writeJournal u .complete existed code)
      (fun _ => Inv u) fun _ => Inv u := by
  have hk : Keeps u fun w => Undoing u existed w ∧ w.restored = true :=
    ⟨(keeps_undoing existed).stable.and fun _ _ h hr => hr.restored.trans h, fun _ hw => hw.1.inv⟩
  refine (triple_start hk hk.inv ?_).bind fun _ => ?_
  · rintro w ⟨hw, hrestored⟩
    exact ⟨⟨⟨hw.inv.start, hw.idle, hw.backed⟩, hw.previous⟩, hrestored⟩
  refine (triple_probe hk hk.inv _).bind fun _ => ?_
  refine (triple_healthRpc hk hk.inv ?_).bind fun _ => ?_
  · rintro w recorded ⟨hw, hrestored⟩
    exact ⟨hw.askHealth recorded, hrestored⟩
  refine (triple_writeResult (Q := Undoing u existed) hk hk.inv ?_ ?_).bind fun _ => ?_
  · rintro w ⟨hw, hrestored⟩
    exact ⟨hw.previous, hw.idle, hrestored⟩
  · rintro w r ⟨hw, -⟩ hinv
    exact ⟨⟨hinv, hw.idle, hw.backed⟩, hw.previous⟩
  exact triple_writeJournal (keeps_undoing existed) (fun w hw => hw.inv)
    fun w hw => (hw.writeJournal _ _ _).inv

variable {P : World → Prop} {checked : Bool}

lemma triple_installed {ε : Type} {D : ε → World → Prop} (hk : Keeps u P) :
    Triple (setting u) P registeredVersion.result
      (fun v w => P w ∧ ∀ version, v.toOption = some version → w.registered = version) D := by
  refine Triple.result (Triple.mono (triple_registeredVersion hk fun _ => id) (fun _ => id) ?_ ?_)
  · rintro v w ⟨hw, rfl⟩
    exact ⟨hw, fun version h => Option.some.inj h⟩
  · exact fun e w hw => ⟨hw, fun version h => nomatch h⟩

lemma triple_restorePrevious (existed : Bool) (code : ℕ) (original : String) :
    Triple (setting u) (Settled u existed) (restorePrevious u existed code original)
      (fun _ => Inv u) fun _ => Inv u := by
  have hk := keeps_undoing (u := u) existed
  refine (triple_installed ⟨fun _ _ => Settled.rely, fun _ hw => hw.inv⟩).bind fun v => ?_
  refine Triple.ite (fun _ => triple_throw _ fun w hw => hw.1.inv) fun hv =>
    Triple.pre (P := Undoing u existed) ?_ (fun w hw => ⟨hw.1, hw.2 _ (not_not.mp hv)⟩)
  refine (triple_stop hk hk.inv fun w hw =>
    (⟨⟨hw.inv.stop, hw.idle, hw.backed⟩, hw.previous⟩ : Undoing u existed _)).bind fun _ => ?_
  refine (triple_writeJournal hk hk.inv fun w hw => hw.writeJournal _ _ _).bind fun _ => ?_
  refine (triple_putBack hk hk.inv (fun w hw => ⟨hw.previous, hw.backed⟩) ?_).bind fun _ =>
    triple_afterPutBack existed code original
  exact fun w content hw hinv => ⟨⟨⟨hinv, hw.idle, hw.backed⟩, hw.previous⟩, rfl⟩

/-! ### The label `terminal` -/

/-- What the variables stand for at the label `terminal`. -/
structure Term (u : Update) (l : Locals) (w : World) : Prop where
  inv : Inv u w
  backed : l.backup = true → l.restoreAttempted = false → Settled u l.existed w
  other : l.stopped = true → l.backup = false →
    w.installer = false ∧ w.registered ≠ u.release.version

lemma Inv.term (h : Inv u w) (hbackup : l.backup = false) (hstopped : l.stopped = false) :
    Term u l w :=
  ⟨h, fun hb => by simp [hbackup] at hb, fun hs => by simp [hstopped] at hs⟩

lemma Settled.term (h : Settled u l.existed w) (hbackup : l.backup = true) : Term u l w :=
  ⟨h.inv, fun _ _ => h, fun _ hb => by simp [hbackup] at hb⟩

lemma Rely.other (hr : Rely u w w') (h : w.installer = false ∧ w.registered ≠ u.release.version) :
    w'.installer = false ∧ w'.registered ≠ u.release.version := by
  obtain ⟨hidle, hversion⟩ := hr.idle h.1
  exact ⟨hidle, hversion ▸ h.2⟩

/-- What is left to do when nothing is to be put back. -/
structure Reporting (u : Update) (l : Locals) (w : World) : Prop where
  inv : Inv u w
  other : l.stopped = true → l.backup = false →
    w.installer = false ∧ w.registered ≠ u.release.version

lemma Reporting.rely (h : Reporting u l w) (hr : Rely u w w') : Reporting u l w' :=
  ⟨h.inv.rely hr, fun hs hb => hr.other (h.other hs hb)⟩

lemma Term.failed (h : Term u l w) (e : String) : Term u { l with error := e } w :=
  ⟨h.inv, h.backed, h.other⟩

lemma triple_need {α : Type} {p : Fn α} {Q : α → World → Prop}
    (h : Triple (setting u) P p Q fun _ => Term u l) : Triple (setting u) P (need l p) Q (Term u) :=
  Triple.handle h fun e => triple_throw _ fun _ hw => hw.failed e

lemma Reporting.askHealth (h : Reporting u l w) (hstopped : l.stopped = true)
    (hbackup : l.backup = false) (recorded : Bool) : Reporting u l (w.askHealth u true recorded) :=
  ⟨h.inv.askHealth recorded fun _ => (h.other hstopped hbackup).symm, h.other⟩

lemma triple_wake (l : Locals) : Triple (setting u) (Reporting u l) (wake u l)
    (fun _ => Reporting u l) fun _ _ => True := by
  have hk : Keeps u (Reporting u l) := ⟨fun _ _ => Reporting.rely, fun _ hw => hw.inv⟩
  refine Triple.ite (fun hwake => ?_) fun _ => triple_pure _ fun _ => id
  obtain ⟨hstopped, hbackup⟩ : l.stopped = true ∧ l.backup = false := by simpa using hwake
  refine (Triple.result (R := fun _ => Reporting u l)
    (triple_start hk (fun _ => id) fun w hw => ⟨hw.inv.start, hw.other⟩)).bind fun _ => ?_
  refine (Triple.result (R := fun _ => Reporting u l)
    (triple_healthRpc hk (fun _ => id) fun w recorded hw =>
      hw.askHealth hstopped hbackup recorded)).bind fun _ => triple_pure _ fun _ => id

lemma triple_report (recovering : Bool) (l : Locals) :
    Triple (setting u) (Reporting u l) (report u recovering l) (fun _ => Inv u) fun _ _ => True := by
  have hk : Keeps u (Reporting u l) := ⟨fun _ _ => Reporting.rely, fun _ hw => hw.inv⟩
  refine Triple.bind (Q := fun _ => Reporting u l) ?_ fun name => ?_
  · refine Triple.ite (fun _ => triple_pure _ fun _ => id) fun _ => ?_
    refine Triple.bind (Q := fun _ => Reporting u l)
      (triple_perform hk.stable (fun w hw => ⟨hw.inv, trivial⟩) ?_) fun r => triple_pure _ fun _ => id
    rintro w r w' hw ⟨x, hx⟩
    cases hx
    exact hw
  · cases name with
    | none => exact triple_pure _ hk.inv
    | some name =>
      refine (triple_wake l).bind fun _ => ?_
      refine (Triple.result (R := fun _ => Inv u)
        (triple_writeResult hk hk.inv ?_ ?_)).bind fun _ => triple_pure _ fun _ => id
      · intro w _
        split <;> trivial
      · exact fun w r _ hinv => hinv

lemma triple_terminal (recovering : Bool) (l : Locals) :
    Triple (setting u) (Term u l) (terminal u recovering l) (fun _ => Inv u) fun _ _ => True := by
  refine Triple.ite (fun hrestore => ?_) fun _ => Triple.pre (triple_report recovering l)
    (fun w hw => ⟨hw.inv, hw.other⟩)
  obtain ⟨hbackup, hattempted⟩ : l.backup = true ∧ l.restoreAttempted = false := by
    simpa using hrestore
  refine (Triple.pre (Triple.result (R := fun _ => Inv u)
    (triple_restorePrevious l.existed l.code l.error)) (fun w hw => hw.backed hbackup hattempted)).bind
    fun r => ?_
  cases r with
  | ok a => exact triple_pure _ fun _ => id
  | error e =>
    exact Triple.pre (triple_report recovering _)
      (fun w hw => ⟨hw, fun _ hb => by simp [hbackup] at hb⟩)

/-! ### Recovery -/

lemma triple_undo (hbackup : l.backup = true) (original : String) :
    Triple (setting u) (Settled u l.existed) (undo u l original) (fun _ => Inv u) (Term u) := by
  refine (Triple.result (R := fun _ => Inv u)
    (triple_restorePrevious l.existed l.code original)).bind fun r => ?_
  cases r with
  | ok a => exact triple_pure _ fun _ => id
  | error e =>
    exact triple_throw _ fun w hw =>
      ⟨hw, fun _ ha => (nomatch ha), fun _ hb => by simp [hbackup] at hb⟩

/-- No installer is at work, and what the journal has said about the backup is so. -/
structure Recovering (u : Update) (l : Locals) (w : World) : Prop where
  inv : Inv u w
  idle : w.installer = false
  backed : l.backup = true → w.Backed l.existed

lemma Recovering.rely (h : Recovering u l w) (hr : Rely u w w') : Recovering u l w' :=
  ⟨h.inv.rely hr, (hr.idle h.idle).1, fun hb => (h.backed hb).rely hr⟩

lemma Recovering.term (h : Recovering u l w) (hstopped : l.stopped = false) : Term u l w :=
  ⟨h.inv, fun hb _ => ⟨h.inv, h.idle, h.backed hb⟩, fun hs => by simp [hstopped] at hs⟩

/-- What a recovery that finds the new version knows; `checked` says that its health is recorded. -/
structure Confirming (u : Update) (l : Locals) (checked : Bool) (w : World) : Prop
    extends Recovering u l w where
  version : w.registered = u.release.version
  healthy : checked = true → w.Healthy u

lemma Confirming.rely (h : Confirming u l checked w)
    (hr : Rely u w w') : Confirming u l checked w' :=
  ⟨h.toRecovering.rely hr, (hr.idle h.idle).2.trans h.version,
    fun hc => hr.healthy (h.inv.unasked h.version) (h.healthy hc)⟩

lemma Confirming.start (h : Confirming u l checked w) :
    Confirming u l checked { w with stopped := none } :=
  ⟨⟨h.inv.start, h.idle, h.backed⟩, h.version, h.healthy⟩

lemma Confirming.askHealth (h : Confirming u l checked w)
    (recorded : Bool) : Confirming u l checked (w.askHealth u false recorded) := by
  refine ⟨⟨h.inv.askHealth recorded fun hr => (nomatch hr), h.idle, h.backed⟩, h.version, fun hc => ?_⟩
  cases recorded with
  | true => exact ⟨_, rfl, rfl, rfl, rfl, rfl⟩
  | false => exact h.healthy hc

lemma healthy_of_checked {h : Health} (hw : w.health = some h) (hc : healthChecked u h = true) :
    w.Healthy u := by
  simp only [healthChecked, Bool.and_eq_true, beq_iff_eq, Bool.not_eq_true'] at hc
  exact ⟨h, hw, hc.1.1.1, hc.1.1.2, hc.1.2, hc.2⟩

lemma triple_confirm (hstopped : l.stopped = false) :
    Triple (setting u) (Confirming u l false) (confirm u l) (fun _ => Inv u) (Term u) := by
  have hk : ∀ checked, Keeps u (Confirming u l checked) :=
    fun _ => ⟨fun _ _ => Confirming.rely, fun _ hw => hw.inv⟩
  have ht : ∀ checked w, Confirming u l checked w → Term u l w :=
    fun _ w hw => hw.toRecovering.term hstopped
  refine (Triple.result (R := fun h w =>
      Confirming u l ((h.toOption.map (healthChecked u)).getD false) w)
    (Triple.post (triple_readHealth (hk _) fun _ => id) ?_)).bind
    fun health => ?_
  · rintro h w ⟨hw, hhealth⟩
    exact ⟨hw.toRecovering, hw.version, healthy_of_checked hhealth⟩
  refine (Triple.result (R := fun _ => Confirming u l _)
    (triple_probe (hk _) (fun _ => id) _)).bind fun binary => ?_
  cases binary with
  | error e => exact triple_throw _ fun w hw => (ht _ w hw).failed e
  | ok a =>
    cases health with
    | error e => exact triple_throw _ fun w hw => (ht _ w hw).failed e
    | ok h =>
      refine Triple.ite (fun _ => triple_throw _ (ht _)) fun hc => ?_
      have hchecked : ((Except.toOption (.ok h : Except String Health)).map
          (healthChecked u)).getD false = true := by
        simpa [Except.toOption] using hc
      rw [hchecked]
      refine (triple_need (triple_start (hk _) (ht _) fun _ => Confirming.start)).bind fun _ => ?_
      refine (triple_need (triple_healthRpc (hk _) (ht _)
        fun _ recorded hw => hw.askHealth recorded)).bind fun _ => ?_
      refine Triple.bind (Triple.result (R := fun _ => Inv u) (triple_writeResult (hk true) (hk true).inv
        (fun w hw => ⟨hw.version, hw.idle, hw.healthy rfl⟩) fun w r _ hinv => hinv)) fun r => ?_
      cases r with
      | error e => exact triple_pure _ fun _ => id
      | ok a =>
        exact Triple.bind (Triple.result (R := fun _ => Inv u) (triple_writeJournal keeps_inv
          (fun _ => id) fun w hw => hw.writeJournal fun hb => (nomatch hb)))
          fun _ => triple_pure _ fun _ => id

/-- The old version is registered, and there is nothing to put back. -/
structure Abandoning (u : Update) (l : Locals) (w : World) : Prop extends Recovering u l w where
  other : w.registered ≠ u.release.version

lemma triple_abandon (hstopped : l.stopped = false) :
    Triple (setting u) (Abandoning u l) (abandon u l) (fun _ => Inv u) (Term u) := by
  have hk : Keeps u (Abandoning u l) := ⟨fun _ _ h hr =>
    ⟨h.toRecovering.rely hr, (hr.other ⟨h.idle, h.other⟩).2⟩, fun _ hw => hw.inv⟩
  have ht : ∀ w, Abandoning u l w → Term u l w := fun w hw => hw.toRecovering.term hstopped
  refine (triple_need (triple_probe hk ht _)).bind fun _ => ?_
  refine (triple_need (triple_start hk ht fun w hw =>
    ⟨⟨hw.inv.start, hw.idle, hw.backed⟩, hw.other⟩)).bind fun _ => ?_
  refine (triple_need (triple_healthRpc hk ht fun w recorded hw =>
    ⟨⟨hw.inv.askHealth recorded fun _ => ⟨hw.other, hw.idle⟩, hw.idle, hw.backed⟩, hw.other⟩)).bind
    fun _ => ?_
  exact Triple.bind (Triple.result (R := fun _ => Inv u) (triple_writeResult hk hk.inv
    (fun _ _ => trivial) fun w r _ hinv => hinv)) fun _ => triple_pure _ fun _ => id

lemma triple_recover : Triple (setting u) (Inv u) (recover u) (fun _ => Inv u) (Term u) := by
  refine Triple.bind (Q := fun idle w => Inv u w ∧ (idle = true → w.installer = false))
    (triple_perform keeps_inv.stable (fun w hw => ⟨hw, trivial⟩) ?_) fun idle => ?_
  · rintro w idle w' hw ⟨x, hx⟩
    cases hx
    refine ⟨hw, fun h => ?_⟩
    simpa using (Bool.and_eq_true _ _ ▸ h : x.idle = true ∧ (!w.installer) = true).2
  refine Triple.ite (fun _ => triple_throw _ fun w hw => hw.1.term rfl rfl) fun hidle => ?_
  have hk : Keeps u fun w => Inv u w ∧ (idle = true → w.installer = false) :=
    ⟨fun _ _ hw hr => ⟨hw.1.rely hr, fun h => (hr.idle (hw.2 h)).1⟩, fun _ hw => hw.1⟩
  refine (triple_need (triple_readJournal hk
    fun w hw => hw.1.term rfl rfl)).bind fun journal => ?_
  refine Triple.ite (fun _ => triple_throw _ fun w hw => hw.1.1.term rfl rfl) fun _ => ?_
  -- what the journal said is the invariant's, and it stays so
  refine (Triple.pre (P := Recovering u _) (triple_need (triple_registeredVersion
    ⟨fun _ _ => Recovering.rely, fun _ hw => hw.inv⟩ fun w hw => hw.term rfl)) ?_).bind fun installed => ?_
  · rintro w ⟨⟨hw, hinstaller⟩, rfl⟩
    refine ⟨hw, hinstaller (Bool.not_eq_false _ ▸ hidle), fun hb => ?_⟩
    cases hj : w.journal with
    | none => simp [hj] at hb
    | some j =>
      simp only [hj, Option.any_some] at hb ⊢
      exact hw.backup j hj hb
  refine Triple.ite (fun hversion => ?_) fun hversion => ?_
  · exact Triple.pre (triple_confirm rfl)
      (fun w hw => ⟨hw.1, hw.2.trans hversion, fun hc => nomatch hc⟩)
  refine Triple.ite (fun _ => triple_throw _ fun w hw => (hw.1.term rfl).failed _) fun _ => ?_
  refine Triple.ite (fun hbackup => ?_) fun hbackup => ?_
  · exact Triple.pre (triple_undo hbackup _)
      (fun w hw => ⟨hw.1.inv, hw.1.idle, hw.1.backed hbackup⟩)
  refine Triple.ite (fun _ => triple_throw _ fun w hw => (hw.1.term rfl).failed _) fun _ => ?_
  exact Triple.pre (triple_abandon rfl) (fun w hw => ⟨hw.1, hw.2 ▸ hversion⟩)

end SbEasy.WinUpdate

import SbEasy.WinUpdateRecover

/-!
What the update helper does to install an update: the branch of `--apply`.
-/

namespace SbEasy.WinUpdate

open Prog

variable {u : Update} {w w' : World}

structure Fresh (u : Update) (w : World) : Prop where
  inv : Inv u w
  saved : w.saved = none
  applied : w.applied = true
  idle : w.installer = false

lemma Fresh.rely (h : Fresh u w) (hr : Rely u w w') : Fresh u w' :=
  ⟨h.inv.rely hr, hr.saved.trans h.saved, hr.applied.trans h.applied, (hr.idle h.idle).1⟩

/-- The versions have been compared. -/
structure Before (u : Update) (w : World) : Prop extends Fresh u w where
  previous : w.registered = u.job.previousVersion
  newer : u.release.version ≠ u.job.previousVersion

lemma Before.rely (h : Before u w) (hr : Rely u w w') : Before u w' :=
  ⟨h.toFresh.rely hr, (hr.idle h.idle).2.trans h.previous, h.newer⟩

lemma Before.other (h : Before u w) : w.registered ≠ u.release.version := by
  rw [h.previous]
  exact h.newer.symm

lemma Before.writeJournal (h : Before u w) {j : Journal} (hj : j.phase.hasBackup = false) :
    Before u (w.writeJournal j) :=
  ⟨⟨h.inv.writeJournal fun hb => absurd (hj.symm.trans hb) (by simp), h.saved, h.applied, h.idle⟩,
    h.previous, h.newer⟩

/-- The service has been stopped. -/
structure Halted (u : Update) (w : World) : Prop extends Before u w where
  halted : w.halted = true
  unasked : w.asked = false

lemma Halted.rely (h : Halted u w) (hr : Rely u w w') : Halted u w' :=
  ⟨h.toBefore.rely hr, hr.halted.trans h.halted, hr.unasked h.unasked⟩

variable {l : Locals} {d : Option Bytes}

lemma Halted.term (h : Halted u w) (hbackup : l.backup = false) : Term u l w :=
  ⟨h.inv, fun hb => absurd (hbackup.symm.trans hb) (by simp), fun _ _ => ⟨h.idle, h.other⟩⟩

/-- `d` is what the state was when it was backed up. -/
structure Saved (u : Update) (d : Option Bytes) (w : World) : Prop where
  inv : Inv u w
  saved : w.saved = some d
  idle : w.installer = false
  previous : w.registered = u.job.previousVersion
  unasked : w.asked = false
  kept : w.restored = false
  untouched : ∀ d', w.stopped = some d' → d' = d

lemma Saved.rely (h : Saved u d w) (hr : Rely u w w') : Saved u d w' where
  inv := h.inv.rely hr
  saved := hr.saved.trans h.saved
  idle := (hr.idle h.idle).1
  previous := (hr.idle h.idle).2.trans h.previous
  unasked := hr.unasked h.unasked
  kept := hr.restored.trans h.kept
  untouched d' hd' := by
    rcases hr.stopped with hnone | ⟨hstopped, -⟩
    · rw [hnone] at hd'
      cases hd'
    · exact h.untouched d' (hstopped ▸ hd')

lemma Saved.other (h : Saved u d w) : w.registered ≠ u.release.version := by
  rw [h.previous]
  exact (h.inv.newer (by rw [h.saved]; simp)).symm

lemma Saved.term (h : Saved u d w) (hbackup : l.backup = false) : Term u l w :=
  ⟨h.inv, fun hb => absurd (hbackup.symm.trans hb) (by simp), fun _ _ => ⟨h.idle, h.other⟩⟩

/-- The state has been read; the journal does not know of it yet. -/
structure Copied (u : Update) (d : Option Bytes) (w : World) : Prop extends Saved u d w where
  journal : ∀ j, w.journal = some j → j.phase.hasBackup = false
  copy : d.isSome = true → w.backup = d

lemma Copied.rely (h : Copied u d w) (hr : Rely u w w') : Copied u d w' :=
  ⟨h.toSaved.rely hr, fun j hj => h.journal j (hr.journal ▸ hj),
    fun hd => hr.backup.trans (h.copy hd)⟩

/-- The backup is complete. -/
structure Kept (u : Update) (d : Option Bytes) (w : World) : Prop extends Saved u d w where
  backup : w.backup = d

lemma Kept.rely (h : Kept u d w) (hr : Rely u w w') : Kept u d w' :=
  ⟨h.toSaved.rely hr, hr.backup.trans h.backup⟩

lemma Kept.backed (h : Kept u d w) : w.Backed d.isSome :=
  ⟨d, h.saved, h.backup, rfl⟩

lemma Kept.settled (h : Kept u d w) : Settled u d.isSome w :=
  ⟨h.inv, h.idle, h.backed⟩

lemma Kept.writeJournal (h : Kept u d w) (id : Bytes) (phase : Phase) (code : ℕ) :
    Kept u d (w.writeJournal ⟨id, phase, d.isSome, code⟩) :=
  ⟨⟨h.inv.writeJournal fun _ => h.backed, h.saved, h.idle, h.previous, h.unasked, h.kept,
    h.untouched⟩, h.backup⟩

/-- The journal of phase `backed_up` has been written. -/
structure Recorded (u : Update) (d : Option Bytes) (w : World) : Prop extends Kept u d w where
  recorded : w.recorded = some d

lemma Recorded.rely (h : Recorded u d w) (hr : Rely u w w') : Recorded u d w' :=
  ⟨h.toKept.rely hr, hr.recorded.trans h.recorded⟩

/-- The journal of phase `backed_up` vouches for the backup. -/
lemma Kept.record (h : Kept u d w) (id : Bytes) (code : ℕ) :
    Recorded u d (w.writeJournal ⟨id, .backedUp, d.isSome, code⟩) := by
  refine ⟨h.writeJournal _ _ _, ?_⟩
  cases d with
  | none => rfl
  | some c => exact congrArg some h.backup

lemma Recorded.installing (h : Recorded u d w) (id : Bytes) (code : ℕ) :
    Recorded u d (w.writeJournal ⟨id, .installing, d.isSome, code⟩) :=
  ⟨h.toKept.writeJournal _ _ _, h.recorded⟩

/-! ### The installer -/

/-- The installer may be at work. -/
structure Running (u : Update) (d : Option Bytes) (w : World) : Prop where
  inv : Inv u w
  backed : w.Backed d.isSome
  unasked : w.asked = false

lemma Running.rely (h : Running u d w) (hr : Rely u w w') : Running u d w' :=
  ⟨h.inv.rely hr, h.backed.rely hr, hr.unasked h.unasked⟩

/-- The installer has come back; `checked` says that the health of the new version is recorded. -/
structure Finished (u : Update) (d : Option Bytes) (checked : Bool) (w : World) : Prop
    extends Running u d w where
  idle : w.installer = false
  healthy : checked = true → w.Healthy u

lemma Finished.rely {checked : Bool} (h : Finished u d checked w)
    (hr : Rely u w w') : Finished u d checked w' :=
  ⟨h.toRunning.rely hr, (hr.idle h.idle).1, fun hc => hr.healthy h.unasked (h.healthy hc)⟩

lemma Finished.settled {checked : Bool} (h : Finished u d checked w) : Settled u d.isSome w :=
  ⟨h.inv, h.idle, h.backed⟩

lemma Recorded.startInstaller (h : Recorded u d w) :
    Running u d { w with installer := true, stopped := none } := by
  refine ⟨h.inv.startInstaller (by rw [h.saved]; simp) h.unasked (fun hsaid => ?_) fun hsaid => ?_,
    h.backed, h.unasked⟩
  · exact h.other (h.inv.succeeded hsaid).1
  · exact absurd (h.kept.symm.trans (h.inv.rolledBack hsaid).2.2) (by simp)

lemma triple_awaitInstaller {D : Locals → World → Prop} :
    Triple (setting u) (Running u d) (perform .awaitInstaller) (fun _ => Finished u d false) D := by
  refine triple_perform (fun _ _ => Running.rely) (fun w hw => ⟨hw.inv, trivial⟩) ?_
  rintro w code w' hw ⟨x, hx⟩
  simp only [act] at hx
  split at hx
  · cases hx
  · rename_i hidle
    cases hx
    exact ⟨hw, Bool.not_eq_true _ ▸ hidle, fun hc => nomatch hc⟩

lemma triple_installed_end (hbackup : l.backup = true) (hexisted : l.existed = d.isSome) :
    Triple (setting u) (Finished u d false) (installed u l) (fun _ => Inv u) (Term u) := by
  have hk : ∀ checked, Keeps u (Finished u d checked) :=
    fun _ => ⟨fun _ _ => Finished.rely, fun _ hw => hw.inv⟩
  have ht : ∀ checked w, Finished u d checked w → Term u l w :=
    fun _ w hw => Settled.term (hexisted ▸ hw.settled) hbackup
  refine Triple.ite (fun _ => ?_) fun _ => Triple.pre (triple_undo hbackup _)
    (fun w hw => hexisted ▸ hw.settled)
  refine (Triple.result (R := fun h w =>
      Finished u d ((h.toOption.map (healthChecked u)).getD false) w)
    (Triple.post (triple_readHealth (hk _) fun _ => id) ?_)).bind
    fun health => ?_
  · rintro h w ⟨hw, hhealth⟩
    exact ⟨hw.toRunning, hw.idle, healthy_of_checked hhealth⟩
  refine Triple.ite (fun _ => triple_throw _ fun w hw => (ht _ w hw).failed _) fun hhealth => ?_
  have hchecked : (health.toOption.map (healthChecked u)).getD false = true := by
    cases hh : health.toOption with
    | none => simp [hh] at hhealth
    | some h =>
      simp only [hh, Option.all_some, Bool.not_eq_true', Bool.not_eq_false, Bool.and_eq_true] at hhealth
      exact hhealth.1
  rw [hchecked]
  refine (triple_installed (hk true)).bind fun active => ?_
  refine Triple.ite (fun _ => triple_throw _ fun w hw => (ht _ w hw.1).failed _) fun hactive => ?_
  have hfinal : Keeps u fun w => Finished u d true w ∧ w.registered = u.release.version :=
    ⟨fun _ _ hw hr => ⟨hw.1.rely hr, (hr.idle hw.1.idle).2.trans hw.2⟩, fun _ hw => hw.1.inv⟩
  refine Triple.bind (Triple.pre (triple_need (triple_writeResult (Q := Inv u) hfinal
    (fun w hw => ht _ w hw.1)
    (fun w hw => ⟨hw.2, hw.1.idle, hw.1.healthy rfl⟩) fun w r _ hinv => hinv))
    (fun w hw => ⟨hw.1, hw.2 _ (not_not.mp hactive)⟩)) fun _ => ?_
  exact Triple.bind (Triple.result (R := fun _ => Inv u) (triple_writeJournal keeps_inv
    (fun _ => id) fun w hw => hw.writeJournal fun hb => (nomatch hb)))
    fun _ => triple_pure _ fun _ => id

/-! ### The whole branch -/

lemma Halted.copied (h : Halted u w) (d : Option Bytes) (backup : Option Bytes)
    (hd : w.deviceState = d) (hbackup : d.isSome = true → backup = d) :
    Copied u d { w with backup, saved := some d } where
  inv := h.inv.backUp h.saved h.applied h.newer backup d
  saved := rfl
  idle := h.idle
  previous := h.previous
  unasked := h.unasked
  kept := by
    by_contra hne
    exact h.inv.restored (by simpa using hne) h.saved
  untouched d' hd' := (h.inv.stopped d' hd').symm.trans hd
  journal j hj := by
    by_contra hne
    obtain ⟨d', hd', -⟩ := h.inv.backup j hj (by simpa using hne)
    rw [h.saved] at hd'
    cases hd'
  copy := hbackup

lemma triple_backUp (hbackup : l.backup = false) :
    Triple (setting u) (Halted u) backUp (fun existed w => ∃ d, existed = d.isSome ∧ Copied u d w)
      fun _ => Term u l := by
  refine triple_try ⟨fun _ _ => Halted.rely, fun _ hw => hw.inv⟩ .backUp id (fun w hw => hw.halted)
    fun w x r w' hw hx => ?_
  rcases Choice.run_cases hx with ⟨e, rfl, rfl⟩ | hdone
  · exact .inl ⟨e, rfl, hw.term hbackup⟩
  · unfold World.backUp at hdone
    split at hdone
    · rename_i hnone
      cases hdone
      exact .inr ⟨false, rfl, none, rfl, hw.copied none _ hnone fun hd => nomatch hd⟩
    · rename_i content hsome
      split at hdone
      · cases hdone
        exact .inl ⟨_, rfl, hw.term hbackup⟩
      · cases hdone
        exact .inr ⟨true, rfl, some content, rfl, hw.copied _ _ hsome fun _ => rfl⟩

lemma triple_dropBackup (hbackup : l.backup = false) (hexisted : l.existed = d.isSome) :
    Triple (setting u) (Copied u d) (dropBackup l) (fun _ => Kept u d) (Term u) := by
  refine Triple.ite (fun hd => triple_pure _ fun w hw => ⟨hw.toSaved, hw.copy (hexisted ▸ hd)⟩)
    fun hd => ?_
  refine triple_need (triple_remove ⟨fun _ _ => Copied.rely, fun _ hw => hw.inv⟩
    (fun w hw => hw.toSaved.term hbackup) fun w hw => ?_)
  refine ⟨⟨hw.inv.removeBackup hw.journal, hw.saved, hw.idle, hw.previous, hw.unasked, hw.kept,
    hw.untouched⟩, ?_⟩
  cases d with
  | none => rfl
  | some c => exact absurd hexisted hd

lemma triple_runInstaller (hbackup : l.backup = true) (hexisted : l.existed = d.isSome) :
    Triple (setting u) (Recorded u d) (runInstaller u l) (fun _ => Inv u) (Term u) := by
  have hk : Keeps u (Recorded u d) := ⟨fun _ _ => Recorded.rely, fun _ hw => hw.inv⟩
  have ht : ∀ w, Recorded u d w → Term u l w :=
    fun w hw => Settled.term (hexisted ▸ hw.settled) hbackup
  have hstart : Stable u fun w => Recorded u d w ∧
      w.journal = some ⟨u.release.id, .installing, d.isSome, l.code⟩ :=
    fun w w' hw hr => ⟨hw.1.rely hr, hr.journal.trans hw.2⟩
  refine (triple_need (triple_remove hk ht fun w hw => hw)).bind fun _ => ?_
  refine (triple_need (Triple.handle (triple_probe hk (fun _ => id) _)
    fun _ => triple_throw _ ht)).bind fun _ => ?_
  refine (triple_need (triple_writeJournal (Q := fun w => Recorded u d w ∧
      w.journal = some ⟨u.release.id, .installing, d.isSome, l.code⟩) hk ht fun w hw => ?_)).bind
    fun _ => ?_
  · rw [hexisted]
    exact ⟨hw.installing _ _, rfl⟩
  refine Triple.bind (Q := fun _ => Running u d) (triple_perform hstart (fun w hw => ?_) ?_) fun _ => ?_
  · exact ⟨hw.1.inv, d, hw.1.recorded, hw.1.saved, hw.1.backup, ⟨_, hw.2, rfl, rfl⟩, hw.1.untouched⟩
  · rintro w r w' ⟨hw, -⟩ ⟨x, hx⟩
    cases hx
    exact hw.startInstaller
  exact triple_awaitInstaller.bind fun code => triple_installed_end hbackup hexisted

lemma triple_backUpAndInstall (hbackup : l.backup = false) :
    Triple (setting u) (Halted u) (backUpAndInstall u l) (fun _ => Inv u) (Term u) := by
  refine (triple_need (triple_writeJournal ⟨fun _ _ => Halted.rely, fun _ hw => hw.inv⟩
    (fun w hw => hw.term hbackup) fun w hw =>
      (⟨hw.toBefore.writeJournal rfl, hw.halted, hw.unasked⟩ : Halted u _))).bind fun _ => ?_
  refine (triple_need (triple_backUp hbackup)).bind fun existed => ?_
  refine Triple.exists fun d => ?_
  rintro w ⟨rfl, hw⟩
  refine (triple_dropBackup (l := { l with existed := d.isSome }) hbackup rfl).bind (fun _ => ?_) w hw
  refine (triple_need (triple_writeJournal ⟨fun _ _ => Kept.rely, fun _ hw => hw.inv⟩
    (fun w hw => hw.toSaved.term (l := { l with existed := d.isSome }) hbackup)
    fun w hw => hw.record _ _)).bind fun _ => ?_
  exact triple_runInstaller rfl rfl

lemma triple_apply (hprevious : u.job.previousVersion = u.appVersion) :
    Triple (setting u) (Fresh u) (apply u) (fun _ => Inv u) (Term u) := by
  have hk : Keeps u (Before u) := ⟨fun _ _ => Before.rely, fun _ hw => hw.inv⟩
  have ht : ∀ w, Before u w → Term u {} w := fun w hw => hw.inv.term rfl rfl
  refine (triple_installed ⟨fun _ _ => Fresh.rely, fun _ hw => hw.inv⟩).bind fun version => ?_
  refine Triple.ite (fun _ => triple_throw _ fun w hw => hw.1.inv.term rfl rfl) fun hversion => ?_
  push Not at hversion
  have hnewer : u.release.version ≠ u.job.previousVersion := by
    intro heq
    rw [heq, hprevious] at hversion
    exact releaseCompare_self _ hversion.2.1
  refine Triple.pre (P := Before u) ?_
    (fun w hw => ⟨hw.1, (hw.2 _ hversion.1).trans hprevious.symm, hnewer⟩)
  refine (triple_need (triple_probe hk ht _)).bind fun _ => ?_
  refine (triple_need (triple_probe hk ht _)).bind fun _ => ?_
  refine (triple_need (triple_probe hk ht _)).bind fun _ => ?_
  refine (triple_need (triple_writeJournal hk ht fun w hw => hw.writeJournal rfl)).bind fun _ => ?_
  refine (triple_need (triple_remove hk ht fun w hw =>
    (⟨⟨hw.inv.removeHealth hw.other, hw.saved, hw.applied, hw.idle⟩, hw.previous, hw.newer⟩ :
      Before u _))).bind fun _ => ?_
  refine (triple_need (triple_stop hk ht fun w hw =>
    (⟨⟨⟨hw.inv.stop, hw.saved, hw.applied, hw.idle⟩, hw.previous, hw.newer⟩, rfl, rfl⟩ :
      Halted u _))).bind fun _ => ?_
  exact triple_backUpAndInstall rfl

end SbEasy.WinUpdate

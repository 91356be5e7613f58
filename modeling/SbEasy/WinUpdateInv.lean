import SbEasy.WinUpdate

/-!
What links the journal, the backup, the registered version and the result of an update, and which
operations of the helper keep it.
-/

namespace SbEasy.WinUpdate

/-- What `current.json` says. -/
def World.Says (w : World) (phase : Outcome) : Prop := ∃ r, w.current = some r ∧ r.phase = phase

/-- There is a record that the new version is healthy. -/
def World.Healthy (u : Update) (w : World) : Prop :=
  ∃ h, w.health = some h ∧ h.releaseId = u.release.id ∧ h.version = u.release.version ∧
    h.healthy = true ∧ h.rollback = false

/-- What is known about the backup. -/
def World.Backed (w : World) (existed : Bool) : Prop :=
  ∃ d, w.saved = some d ∧ w.backup = d ∧ existed = d.isSome

structure Inv (u : Update) (w : World) : Prop where
  backup : ∀ j, w.journal = some j → j.phase.hasBackup = true → w.Backed j.stateExisted
  succeeded : w.Says .succeeded →
    w.registered = u.release.version ∧ w.installer = false ∧ w.Healthy u
  rolledBack : w.Says .rolledBack →
    w.registered = u.job.previousVersion ∧ w.installer = false ∧ w.restored = true
  asked : w.asked = true → w.registered ≠ u.release.version ∧ w.installer = false
  newer : w.saved ≠ none → u.release.version ≠ u.job.previousVersion
  restored : w.restored = true → w.saved ≠ none
  stopped : ∀ d, w.stopped = some d → w.deviceState = d
  fresh : w.applied = false → w.saved = none ∧ w.installer = false

/-- When a result may be written. -/
def Allowed (u : Update) (w : World) : Outcome → Prop
  | .succeeded => w.registered = u.release.version ∧ w.installer = false ∧ w.Healthy u
  | .rolledBack => w.registered = u.job.previousVersion ∧ w.installer = false ∧ w.restored = true
  | _ => True

/-- What has to hold when the helper asks for an operation. -/
def Guard (u : Update) (w : World) : Op → Prop
  | .backUp => w.halted = true
  | .startInstaller => ∃ d, w.recorded = some d ∧ w.saved = some d ∧ w.backup = d ∧
      (∃ j, w.journal = some j ∧ j.phase = .installing ∧ j.stateExisted = d.isSome) ∧
      ∀ d', w.stopped = some d' → d' = d
  | .restoreState => w.registered = u.job.previousVersion ∧
      ∃ c, w.saved = some (some c) ∧ w.backup = some c
  | .removeState => w.registered = u.job.previousVersion ∧ w.saved = some none
  | .writeResult r => Allowed u w r.phase
  | _ => True

variable {u : Update} {w w' w'' : World}

/-! ### Others -/

lemma Rely.refl (u : Update) (w : World) : Rely u w w :=
  ⟨rfl, rfl, rfl, rfl, rfl, rfl, rfl, rfl, .inl rfl, id, id, .inl rfl, .inr ⟨rfl, rfl⟩⟩

lemma Rely.trans (h : Rely u w w') (h' : Rely u w' w'') : Rely u w w'' where
  journal := h'.journal.trans h.journal
  backup := h'.backup.trans h.backup
  current := h'.current.trans h.current
  applied := h'.applied.trans h.applied
  halted := h'.halted.trans h.halted
  saved := h'.saved.trans h.saved
  recorded := h'.recorded.trans h.recorded
  restored := h'.restored.trans h.restored
  registered := by
    rcases h'.registered with heq | ⟨hinstaller, hversion⟩
    · rw [heq]
      exact h.registered
    · exact .inr ⟨h.installer hinstaller, hversion⟩
  installer hinstaller := h.installer (h'.installer hinstaller)
  asked hasked := h.asked (h'.asked hasked)
  health := by
    rcases h'.health with heq | hnew | ⟨hasked, hold⟩
    · rw [heq]
      exact h.health
    · exact .inr (.inl hnew)
    · exact .inr (.inr ⟨h.asked hasked, hold⟩)
  stopped := by
    rcases h'.stopped with hnone | ⟨hstopped, hstate⟩
    · exact .inl hnone
    · rw [hstopped, hstate]
      exact h.stopped

lemma Rely.idle (h : Rely u w w') (hidle : w.installer = false) :
    w'.installer = false ∧ w'.registered = w.registered := by
  refine ⟨?_, ?_⟩
  · by_contra hne
    rw [h.installer (by simpa using hne)] at hidle
    cases hidle
  · rcases h.registered with heq | ⟨hinstaller, -⟩
    · exact heq
    · rw [hinstaller] at hidle
      cases hidle

lemma Rely.unasked (h : Rely u w w') (hasked : w.asked = false) : w'.asked = false := by
  by_contra hne
  rw [h.asked (by simpa using hne)] at hasked
  cases hasked

lemma Rely.healthy (h : Rely u w w') (hasked : w.asked = false) (hhealthy : w.Healthy u) : w'.Healthy u := by
  rcases h.health with heq | hnew | ⟨hask, -⟩
  · obtain ⟨r, hr, hrest⟩ := hhealthy
    exact ⟨r, heq.trans hr, hrest⟩
  · exact ⟨_, hnew, rfl, rfl, rfl, rfl⟩
  · rw [hask] at hasked
    cases hasked

lemma Rely.said (h : Rely u w w') {phase : Outcome} (hsaid : w'.Says phase) : w.Says phase := by
  obtain ⟨r, hr, hphase⟩ := hsaid
  exact ⟨r, h.current ▸ hr, hphase⟩

lemma World.Backed.rely {existed : Bool} (h : w.Backed existed) (hr : Rely u w w') :
    w'.Backed existed := by
  obtain ⟨d, hsaved, hbackup, hexisted⟩ := h
  exact ⟨d, hr.saved.trans hsaved, hr.backup.trans hbackup, hexisted⟩

lemma Inv.unasked (h : Inv u w) (hversion : w.registered = u.release.version) : w.asked = false := by
  by_contra hne
  exact (h.asked (by simpa using hne)).1 hversion

lemma Inv.rely (h : Inv u w) (hr : Rely u w w') : Inv u w' where
  backup j hj hphase := (h.backup j (hr.journal ▸ hj) hphase).rely hr
  succeeded hsaid := by
    obtain ⟨hversion, hidle, hhealthy⟩ := h.succeeded (hr.said hsaid)
    exact ⟨(hr.idle hidle).2.trans hversion, (hr.idle hidle).1,
      hr.healthy (h.unasked hversion) hhealthy⟩
  rolledBack hsaid := by
    obtain ⟨hversion, hidle, hrestored⟩ := h.rolledBack (hr.said hsaid)
    exact ⟨(hr.idle hidle).2.trans hversion, (hr.idle hidle).1, hr.restored.trans hrestored⟩
  asked hasked := by
    obtain ⟨hversion, hidle⟩ := h.asked (hr.asked hasked)
    exact ⟨(hr.idle hidle).2 ▸ hversion, (hr.idle hidle).1⟩
  newer hsaved := h.newer (hr.saved ▸ hsaved)
  restored hrestored := hr.saved ▸ h.restored (hr.restored ▸ hrestored)
  stopped d hd := by
    rcases hr.stopped with hnone | ⟨hstopped, hstate⟩
    · rw [hnone] at hd
      cases hd
    · rw [hstate]
      exact h.stopped d (hstopped ▸ hd)
  fresh happlied := by
    obtain ⟨hsaved, hidle⟩ := h.fresh (hr.applied ▸ happlied)
    exact ⟨hr.saved.trans hsaved, (hr.idle hidle).1⟩

/-- The helper among the others. -/
def setting (u : Update) : Prog.Setting World Op Reply where
  act o w r w' := ∃ x, act u x w o = some (r, w')
  rely := Rely u
  inv := Inv u
  guard o w := Guard u w o
  rely_refl := Rely.refl u
  rely_trans _ _ _ := Rely.trans
  inv_rely _ _ := Inv.rely

/-- Others do not make it false. -/
abbrev Stable (u : Update) (P : World → Prop) : Prop := (setting u).Stable P

/-- What others leave alone, inside the invariant. -/
structure Keeps (u : Update) (P : World → Prop) : Prop where
  stable : Stable u P
  inv : ∀ w, P w → Inv u w

lemma keeps_inv : Keeps u (Inv u) := ⟨fun _ _ => Inv.rely, fun _ => id⟩

lemma Inv.start (h : Inv u w) : Inv u { w with stopped := none } :=
  ⟨h.backup, h.succeeded, h.rolledBack, h.asked, h.newer, h.restored, fun _ hd => (nomatch hd), h.fresh⟩

lemma Inv.stop (h : Inv u w) : Inv u { w with asked := false, halted := true, stopped := some w.deviceState } :=
  ⟨h.backup, h.succeeded, h.rolledBack, fun ha => (nomatch ha), h.newer, h.restored,
    fun _ hd => Option.some.inj hd, h.fresh⟩

lemma Inv.writeJournal (h : Inv u w) {j : Journal} (hj : j.phase.hasBackup = true → w.Backed j.stateExisted) :
    Inv u (w.writeJournal j) :=
  ⟨fun j' hj' hphase => by cases hj'; exact hj hphase, h.succeeded, h.rolledBack, h.asked, h.newer,
    h.restored, h.stopped, h.fresh⟩

lemma Inv.askHealth (h : Inv u w) {rollback : Bool} (recorded : Bool)
    (hrollback : rollback = true → w.registered ≠ u.release.version ∧ w.installer = false) :
    Inv u (w.askHealth u rollback recorded) where
  backup := h.backup
  succeeded hsaid := by
    obtain ⟨hversion, hidle, hhealthy⟩ := h.succeeded hsaid
    refine ⟨hversion, hidle, ?_⟩
    cases rollback with
    | true => exact absurd hversion (hrollback rfl).1
    | false =>
      cases recorded with
      | true => exact ⟨_, rfl, rfl, rfl, rfl, rfl⟩
      | false => exact hhealthy
  rolledBack := h.rolledBack
  asked hasked := by
    rcases Bool.or_eq_true _ _ ▸ hasked with hold | hnew
    · exact h.asked hold
    · exact hrollback hnew
  newer := h.newer
  restored := h.restored
  stopped := h.stopped
  fresh := h.fresh

lemma Inv.writeResult (h : Inv u w) {r : Result} (hallowed : Allowed u w r.phase) :
    Inv u { w with current := some r } where
  backup := h.backup
  succeeded hsaid := by
    obtain ⟨r', hr', hphase⟩ := hsaid
    cases hr'
    rwa [hphase] at hallowed
  rolledBack hsaid := by
    obtain ⟨r', hr', hphase⟩ := hsaid
    cases hr'
    rwa [hphase] at hallowed
  asked := h.asked
  newer := h.newer
  restored := h.restored
  stopped := h.stopped
  fresh := h.fresh

lemma Inv.removeHealth (h : Inv u w) (hversion : w.registered ≠ u.release.version) :
    Inv u (w.remove .health) :=
  ⟨h.backup, fun hsaid => absurd (h.succeeded hsaid).1 hversion, h.rolledBack, h.asked, h.newer,
    h.restored, h.stopped, h.fresh⟩

lemma Inv.backUp (h : Inv u w) (hsaved : w.saved = none) (happlied : w.applied = true)
    (hnewer : u.release.version ≠ u.job.previousVersion) (backup d : Option Bytes) :
    Inv u { w with backup, saved := some d } where
  backup j hj hphase := by
    obtain ⟨d', hd', -⟩ := h.backup j hj hphase
    rw [hsaved] at hd'
    cases hd'
  succeeded := h.succeeded
  rolledBack := h.rolledBack
  asked := h.asked
  newer _ := hnewer
  restored _ := Option.some_ne_none d
  stopped := h.stopped
  fresh hfresh := absurd (happlied.symm.trans hfresh) (by simp)

lemma Inv.removeBackup (h : Inv u w)
    (hjournal : ∀ j, w.journal = some j → j.phase.hasBackup = false) :
    Inv u (w.remove .backup) :=
  ⟨fun j hj hphase => absurd ((hjournal j hj).symm.trans hphase) (by simp), h.succeeded,
    h.rolledBack, h.asked, h.newer, h.restored, h.stopped, h.fresh⟩

lemma Inv.putBack (h : Inv u w) (hsaved : w.saved ≠ none) (content : Option Bytes) :
    Inv u { w with deviceState := content, restored := true, stopped := none } :=
  ⟨h.backup, h.succeeded, fun hsaid => ⟨(h.rolledBack hsaid).1, (h.rolledBack hsaid).2.1, rfl⟩, h.asked,
    h.newer, fun _ => hsaved, fun _ hd => (nomatch hd), h.fresh⟩

lemma Inv.startInstaller (h : Inv u w) (hsaved : w.saved ≠ none) (hasked : w.asked = false)
    (hsucceeded : ¬ w.Says .succeeded) (hrolledBack : ¬ w.Says .rolledBack) :
    Inv u { w with installer := true, stopped := none } :=
  ⟨h.backup, fun hsaid => absurd hsaid hsucceeded, fun hsaid => absurd hsaid hrolledBack,
    fun ha => absurd (hasked.symm.trans ha) (by simp), h.newer, h.restored, fun _ hd => (nomatch hd),
    fun hfresh => absurd (h.fresh hfresh).1 hsaved⟩

end SbEasy.WinUpdate

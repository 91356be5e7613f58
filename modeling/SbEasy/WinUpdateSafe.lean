import SbEasy.WinUpdateApply

/-!
One update, one run of the helper with `--apply` and any number with `--recover`, each cut off
anywhere: the backup comes before the installer, only the backup is ever put back, and a result that
says how the update ended is so.
-/

namespace SbEasy.WinUpdate

open Prog

variable {u : Update} {w w' : World}

variable {recovering : Bool} {P : World → Prop} {p : Prog Op Reply Empty ℕ} {x : Choice} {o : Op}

lemma triple_body (hk : Keeps u P) (h : u.job.previousVersion = u.appVersion →
      Triple (setting u) P (if recovering then recover u else apply u) (fun _ => Inv u) (Term u)) :
    Triple (setting u) P (body u recovering) (fun _ => Inv u) (Term u) := by
  refine (triple_need (triple_probe hk (fun w hw => (hk.inv w hw).term rfl rfl) _)).bind fun _ => ?_
  refine (triple_need (triple_probe hk (fun w hw => (hk.inv w hw).term rfl rfl) _)).bind fun _ => ?_
  refine (triple_now hk).bind fun now₁ => ?_
  refine (triple_now hk).bind fun now₂ => ?_
  refine Triple.ite (fun _ => triple_throw _ fun w hw => (hk.inv w hw).term rfl rfl) fun hvalid => ?_
  refine (triple_need (triple_probe hk (fun w hw => (hk.inv w hw).term rfl rfl) _)).bind fun _ => ?_
  simp only [jobValid, Bool.not_eq_false, Bool.and_eq_true, beq_iff_eq] at hvalid
  exact h hvalid.1.1.2

lemma triple_helperMain (hk : Keeps u P) (h : u.job.previousVersion = u.appVersion →
      Triple (setting u) P (if recovering then recover u else apply u) (fun _ => Inv u) (Term u)) :
    Triple (setting u) P (helperMain u recovering) (fun _ => Inv u) fun _ _ => True := by
  refine (Triple.result (R := fun _ => P) ?_).bind fun r => ?_
  · refine (triple_probe hk (fun _ => id) _).bind fun _ => ?_
    exact (triple_probe hk (fun _ => id) _).bind fun _ => triple_probe hk (fun _ => id) _
  · cases r with
    | error e => exact triple_pure _ hk.inv
    | ok a => exact Triple.handle (triple_body hk h) fun l => triple_terminal recovering l

/-- How the helper is started: once to apply the update, and at any time to recover. -/
inductive Launch (u : Update) : World → Prog Op Reply Empty ℕ → World → Prop
  | recover {w : World} : Launch u w (helperMain u true) w
  | apply {w : World} (h : w.applied = false) :
    Launch u w (helperMain u false) { w with applied := true, halted := false }

lemma Inv.apply (h : Inv u w) (happlied : w.applied = false) :
    Fresh u { w with applied := true, halted := false } := by
  obtain ⟨hsaved, hidle⟩ := h.fresh happlied
  exact ⟨⟨h.backup, h.succeeded, h.rolledBack, h.asked, h.newer, h.restored, h.stopped,
    fun hf => nomatch hf⟩, hsaved, rfl, hidle⟩

lemma Launch.safe (hlaunch : Launch u w p w') (h : Inv u w) :
    wp (setting u) p (fun _ => Inv u) (fun _ _ => True) w' := by
  cases hlaunch with
  | recover => exact triple_helperMain keeps_inv (fun _ => triple_recover) _ h
  | apply happlied =>
    exact triple_helperMain ⟨fun _ _ => Fresh.rely, fun _ hw => hw.inv⟩ triple_apply _
      (h.apply happlied)

/-- What `sbw_updater_install` leaves behind. -/
structure Start (w : World) : Prop where
  journal : w.journal = none
  current : w.Says .installing
  asked : w.asked = false
  installer : w.installer = false
  saved : w.saved = none
  stopped : w.stopped = none
  restored : w.restored = false
  applied : w.applied = false

lemma World.Says.unique {p q : Outcome} (hp : w.Says p) (hq : w.Says q) : p = q := by
  obtain ⟨r, hr, rfl⟩ := hp
  obtain ⟨r', hr', rfl⟩ := hq
  rw [Option.some.inj (hr.symm.trans hr')]

lemma Rely.unstopped (h : Rely u w w') (hw : w.stopped = none) : w'.stopped = none := by
  rcases h.stopped with hnone | ⟨hstopped, -⟩
  · exact hnone
  · exact hstopped.trans hw

lemma Start.inv (h : Start w) : Inv u w where
  backup j hj := by
    rw [h.journal] at hj
    cases hj
  succeeded hsays := nomatch h.current.unique hsays
  rolledBack hsays := nomatch h.current.unique hsays
  asked hasked := absurd (h.asked.symm.trans hasked) (by simp)
  newer hsaved := absurd h.saved hsaved
  restored hrestored := absurd (h.restored.symm.trans hrestored) (by simp)
  stopped d hd := by
    rw [h.stopped] at hd
    cases hd
  fresh _ := ⟨h.saved, h.installer⟩

lemma Start.rely (h : Start w) (hr : Rely u w w') : Start w' where
  journal := hr.journal.trans h.journal
  current := by
    obtain ⟨r, hr', hphase⟩ := h.current
    exact ⟨r, hr.current.trans hr', hphase⟩
  asked := hr.unasked h.asked
  installer := (hr.idle h.installer).1
  saved := hr.saved.trans h.saved
  stopped := hr.unstopped h.stopped
  restored := hr.restored.trans h.restored
  applied := hr.applied.trans h.applied

/-! ### How an update begins -/

/-- The service, while it prepares an update. -/
def preparing (u : Update) : Setting World Op Reply where
  act o w r w' := ∃ x, act u x w o = some (r, w')
  rely := Rely u
  inv _ := True
  guard _ _ := True
  rely_refl := Rely.refl u
  rely_trans _ _ _ := Rely.trans
  inv_rely _ _ _ _ := trivial

lemma triple_prepare {α : Type} (o : Op) (f : Reply o → Except String α) {P Q : World → Prop}
    {failed next : Choice → World → World} {answer : Choice → World → α}
    (hs : (preparing u).Stable P)
    (hrun : ∀ x w r w', act u x w o = some (r, w') →
      x.run (failed x w) (.ok (answer x w), next x w) = some (f r, w'))
    (hnext : ∀ x w, P w → Q (next x w)) :
    Triple (preparing u) P (perform o >>= fun r => ofExcept (f r)) (fun _ => Q) fun _ _ => True := by
  refine Triple.bind (Q := fun r w => ∀ a, f r = .ok a → Q w)
    (triple_perform hs (fun _ _ => ⟨trivial, trivial⟩) ?_) fun r w hw => ?_
  · rintro w r w' hw ⟨x, hx⟩ a ha
    rcases Choice.run_cases (hrun x w r w' hx) with ⟨e, he, -⟩ | hdone
    · rw [ha] at he
      cases he
    · obtain ⟨-, rfl⟩ := Prod.mk.inj hdone
      exact hnext x w hw
  · cases hr : f r with
    | error e => trivial
    | ok a => exact hw a hr

/-- While nothing is at work. -/
structure Resting (w : World) : Prop where
  asked : w.asked = false
  installer : w.installer = false

lemma Resting.rely (h : Resting w) (hr : Rely u w w') : Resting w' :=
  ⟨hr.unasked h.asked, (hr.idle h.installer).1⟩

/-- The files of an earlier update are gone. -/
structure Cleared (w : World) : Prop extends Resting w where
  journal : w.journal = none

/-- The job has been written. -/
structure Queued (w : World) : Prop extends Cleared w where
  saved : w.saved = none
  stopped : w.stopped = none
  restored : w.restored = false
  applied : w.applied = false

lemma Cleared.rely (h : Cleared w) (hr : Rely u w w') : Cleared w' :=
  ⟨h.toResting.rely hr, hr.journal.trans h.journal⟩

lemma Queued.rely (h : Queued w) (hr : Rely u w w') : Queued w' where
  toCleared := h.toCleared.rely hr
  saved := hr.saved.trans h.saved
  stopped := hr.unstopped h.stopped
  restored := hr.restored.trans h.restored
  applied := hr.applied.trans h.applied

/-- An update begins as `sbw_updater_install` says. -/
theorem triple_install : Triple (preparing u) Resting (install u) (fun _ => Start) fun _ _ => True := by
  have hresting : (preparing u).Stable Resting := fun _ _ => Resting.rely
  have hcleared : (preparing u).Stable Cleared := fun _ _ => Cleared.rely
  refine (triple_prepare .registeredVersion id hresting (fun _ _ _ _ h => h)
    fun _ _ => id).bind fun version => ?_
  refine Triple.ite (fun _ => triple_throw _ fun _ _ => trivial) fun _ => ?_
  refine (triple_prepare (.probe .package) id hresting (fun _ _ _ _ h => h) fun _ _ =>
    id).bind fun _ => ?_
  refine (triple_prepare (.probe .helper) id hresting (fun _ _ _ _ h => h) fun _ _ =>
    id).bind fun _ => ?_
  refine (triple_prepare (.remove .journal) id hresting (fun _ _ _ _ h => h)
    fun _ w hw => (⟨⟨hw.asked, hw.installer⟩, rfl⟩ : Cleared (w.remove .journal))).bind fun _ => ?_
  refine (triple_prepare (.remove .backup) id hcleared (fun _ _ _ _ h => h)
    fun _ w hw => (⟨⟨hw.asked, hw.installer⟩, hw.journal⟩ : Cleared (w.remove .backup))).bind fun _ => ?_
  refine (triple_prepare (.remove .health) id hcleared (fun _ _ _ _ h => h)
    fun _ w hw => (⟨⟨hw.asked, hw.installer⟩, hw.journal⟩ : Cleared (w.remove .health))).bind fun _ => ?_
  refine (triple_prepare (.probe .random) id hcleared (fun _ _ _ _ h => h) fun _ _ =>
    id).bind fun _ => ?_
  refine (triple_prepare (Q := Queued) .writeJob id hcleared (fun _ _ _ _ h => h)
    fun _ w hw => ⟨⟨⟨hw.asked, hw.installer⟩, hw.journal⟩, rfl, rfl, rfl, rfl⟩).bind fun _ => ?_
  refine (triple_prepare (Q := Start) (.writeResult _) id (fun _ _ => Queued.rely)
    (fun _ _ _ _ h => h) fun _ w hw => ⟨hw.journal, ⟨_, rfl, rfl⟩, hw.asked, hw.installer, hw.saved,
      hw.stopped, hw.restored, hw.applied⟩).bind fun _ => ?_
  refine Triple.handle (triple_prepare .launch id (fun _ _ => Start.rely) (fun _ _ _ _ h => h)
    fun _ _ => id) fun e => ?_
  refine (Triple.result (R := fun _ _ => True) (triple_prepare (.remove .current) id
    (fun _ _ _ _ => trivial) (fun _ _ _ _ h => h) fun _ _ _ => trivial)).bind fun _ =>
    triple_throw _ fun _ _ => trivial

/-! ### Safety -/

/-- Something that happens in a run: an operation meets a choice, or the installer registers the new
version, whose service records its health. -/
inductive Move
  | operation (x : Choice := {})
  | finish

/-- The installation comes to its end. -/
def World.finish (u : Update) (w : World) : World :=
  { w with registered := u.release.version, installer := false, health := some (u.record false),
           stopped := none }

lemma rely_finish (h : w.installer = true) : Rely u w (w.finish u) :=
  ⟨rfl, rfl, rfl, rfl, rfl, rfl, rfl, rfl, .inr ⟨h, .inr rfl⟩, fun hf => (nomatch hf), id,
    .inr (.inl rfl), .inl rfl⟩

/-- A run of one program. -/
def drive (u : Update) : List Move → World → Prog Op Reply Empty ℕ → Option (Config World Op Reply ℕ)
  | [], w, p => some ⟨w, some p⟩
  | .operation x :: moves, w, .call o k =>
    match act u x w o with
    | some (r, w') => drive u moves w' (k r)
    | none => none
  | .finish :: moves, w, p => if w.installer then drive u moves (w.finish u) p else none
  | _, _, _ => none

lemma drive_sound {launch : World → Prog Op Reply Empty ℕ → World → Prop} {moves : List Move}
    {c : Config World Op Reply ℕ} (h : drive u moves w p = some c) :
    Reach (setting u) launch ⟨w, some p⟩ c := by
  fun_induction drive u moves w p with
  | case1 w p =>
    cases h
    exact .refl
  | case2 x moves w o k r w' hact ih => exact (ih h).head (.performed ⟨x, hact⟩)
  | case3 => cases h
  | case4 moves w p hinstaller ih => exact (ih h).head (.others (rely_finish hinstaller))
  | case5 => cases h
  | case6 => cases h

end SbEasy.WinUpdate

import SbEasy.WinUpdateInv

/-!
What the functions of the update helper are called under, and what they leave.
-/

namespace SbEasy.WinUpdate

open Prog

variable {u : Update} {w w' : World}

/-! ### Single operations -/

lemma Choice.run_cases {α : Type} {x : Choice} {done : Except String α × World}
    {r : Except String α} (h : x.run w done = some (r, w')) :
    (∃ e, r = .error e ∧ w' = w) ∨ done = (r, w') := by
  unfold Choice.run at h
  split at h
  · cases h
    exact .inl ⟨_, rfl, rfl⟩
  · exact .inr (Option.some.inj h)

section

variable {P E : World → Prop} (hk : Keeps u P) (hE : ∀ w, P w → E w)

include hk

lemma triple_try {α : Type} (o : Op) (f : Reply o → Except String α) {Q : α → World → Prop}
    (hguard : ∀ w, P w → Guard u w o)
    (hact : ∀ w x r w', P w → act u x w o = some (r, w') →
      (∃ e, f r = .error e ∧ E w') ∨ ∃ a, f r = .ok a ∧ Q a w') :
    Triple (setting u) P (perform o >>= fun r => ofExcept (f r)) Q fun _ => E := by
  refine Triple.bind (Q := fun r w => (∃ e, f r = .error e ∧ E w) ∨ ∃ a, f r = .ok a ∧ Q a w)
    (triple_perform hk.stable (fun w hw => ⟨hk.inv w hw, hguard w hw⟩) fun w r w' hw => ?_) fun r w hw => ?_
  · rintro ⟨x, hx⟩
    exact hact w x r w' hw hx
  · rcases hw with ⟨e, he, hw⟩ | ⟨a, ha, hw⟩
    · rw [he]
      exact hw
    · rw [ha]
      exact hw

lemma triple_run {α : Type} (o : Op) (f : Reply o → Except String α) {Q : α → World → Prop}
    {failed next : Choice → World → World} {answer : Choice → World → α}
    (hrun : ∀ x w r w', act u x w o = some (r, w') →
      x.run (failed x w) (.ok (answer x w), next x w) = some (f r, w'))
    (hguard : ∀ w, P w → Guard u w o) (hfailed : ∀ x w, P w → E (failed x w))
    (hnext : ∀ x w, P w → Q (answer x w) (next x w)) :
    Triple (setting u) P (perform o >>= fun r => ofExcept (f r)) Q fun _ => E := by
  refine triple_try hk o f hguard fun w x r w' hw hx => ?_
  rcases Choice.run_cases (hrun x w r w' hx) with ⟨e, he, rfl⟩ | hdone
  · exact .inl ⟨e, he, hfailed x w hw⟩
  · obtain ⟨hr, rfl⟩ := Prod.mk.inj hdone
    exact .inr ⟨_, hr.symm, hnext x w hw⟩

include hE

lemma triple_probe (p : Probe) : Triple (setting u) P (probe p) (fun _ => P) fun _ => E :=
  triple_run hk (.probe p) id (fun _ _ _ _ h => h) (fun _ _ => trivial) (fun _ => hE)
    fun _ _ => id

lemma triple_registeredVersion :
    Triple (setting u) P registeredVersion (fun v w => P w ∧ w.registered = v) fun _ => E :=
  triple_run hk .registeredVersion id (fun _ _ _ _ h => h) (fun _ _ => trivial) (fun _ => hE)
    fun _ _ hw => ⟨hw, rfl⟩

lemma triple_readJournal :
    Triple (setting u) P readJournal (fun j w => P w ∧ w.journal = j) fun _ => E :=
  triple_run hk .readJournal id (fun _ _ _ _ h => h) (fun _ _ => trivial) (fun _ => hE)
    fun _ _ hw => ⟨hw, rfl⟩

lemma triple_readHealth :
    Triple (setting u) P readHealth (fun h w => P w ∧ w.health = some h) fun _ => E := by
  refine triple_try hk .readHealth id (fun _ _ => trivial) fun w x r w' hw hx => ?_
  rcases Choice.run_cases hx with ⟨e, rfl, rfl⟩ | hdone
  · exact .inl ⟨e, rfl, hE _ hw⟩
  · cases hhealth : w.health with
    | none =>
      rw [hhealth] at hdone
      cases hdone
      exact .inl ⟨_, rfl, hE _ hw⟩
    | some h =>
      rw [hhealth] at hdone
      cases hdone
      exact .inr ⟨h, rfl, hw, hhealth⟩

lemma triple_start (hP : ∀ w, P w → P { w with stopped := none }) :
    Triple (setting u) P (serviceState true) (fun _ => P) fun _ => E :=
  triple_run hk (.serviceState true) id (fun _ _ _ _ h => h) (fun _ _ => trivial)
    (fun _ w hw => hE _ (hP w hw)) fun _ => hP

variable {Q : World → Prop}

lemma triple_stop (hQ : ∀ w, P w →
      Q { w with asked := false, halted := true, stopped := some w.deviceState }) :
    Triple (setting u) P (serviceState false) (fun _ => Q) fun _ => E :=
  triple_run hk (.serviceState false) id (fun _ _ _ _ h => h) (fun _ _ => trivial) (fun _ => hE)
    fun _ => hQ

lemma triple_remove {file : File} (hQ : ∀ w, P w → Q (w.remove file)) :
    Triple (setting u) P (remove file) (fun _ => Q) fun _ => E :=
  triple_run hk (.remove file) id (fun _ _ _ _ h => h) (fun _ _ => trivial) (fun _ => hE)
    fun _ => hQ

variable {existed rollback : Bool} {code : ℕ}

lemma triple_writeJournal {phase : Phase}
    (hQ : ∀ w, P w → Q (w.writeJournal ⟨u.release.id, phase, existed, code⟩)) :
    Triple (setting u) P (writeJournal u phase existed code) (fun _ => Q) fun _ => E :=
  triple_run hk (.writeJournal _) id (fun _ _ _ _ h => h) (fun _ _ => trivial) (fun _ => hE)
    fun _ => hQ

lemma triple_askHealth (hP : ∀ w recorded, P w → P (w.askHealth u rollback recorded)) :
    Triple (setting u) P (askHealth rollback) (fun _ => P) fun _ => E :=
  triple_run hk (.health rollback) id (fun _ _ _ _ h => h) (fun _ _ => trivial)
    (fun _ w hw => hE _ (hP w _ hw)) fun _ w => hP w _

lemma triple_hello : Triple (setting u) P hello (fun _ => P) fun _ => E :=
  triple_run hk .hello id (fun _ _ _ _ h => h) (fun _ _ => trivial) (fun _ => hE) fun _ _ => id

omit hE in
lemma triple_now {ε : Type} {D : ε → World → Prop} :
    Triple (setting u) P (perform .now) (fun _ => P) D := by
  refine triple_perform hk.stable (fun w hw => ⟨hk.inv w hw, trivial⟩) fun w r w' hw => ?_
  rintro ⟨x, hx⟩
  cases hx
  exact hw

lemma triple_healthRpc {expected : Bytes}
    (hP : ∀ w recorded, P w → P (w.askHealth u rollback recorded)) :
    Triple (setting u) P (healthRpc u expected rollback) (fun _ => P) fun _ => E := by
  refine (Triple.result (R := fun _ => P) (triple_hello hk fun _ => id)).bind fun v => ?_
  refine Triple.ite (fun _ => triple_throw _ hE) fun _ => ?_
  refine (Triple.result (R := fun _ => P) (triple_probe hk (fun _ => id) _)).bind fun job => ?_
  refine Triple.ite (fun _ => triple_throw _ hE) fun _ => ?_
  refine (triple_askHealth hk hE hP).bind fun answer => ?_
  exact Triple.ite (fun _ => triple_throw _ hE) fun _ => triple_pure _ fun _ => id

lemma triple_writeResult {id version : Bytes} {phase : Outcome} {restored : Bool}
    {failure : String} (hallowed : ∀ w, P w → Allowed u w phase)
    (hQ : ∀ w r, P w → Inv u { w with current := some r } → Q { w with current := some r }) :
    Triple (setting u) P (writeResult id version phase code restored failure)
      (fun _ => Q) fun _ => E := by
  refine (triple_now hk).bind fun now => ?_
  exact triple_run hk (.writeResult _) (fun r => r) (fun _ _ _ _ h => h) hallowed (fun _ => hE)
    fun _ w hw => hQ w _ hw ((hk.inv w hw).writeResult (hallowed w hw))

lemma triple_putBack (hP : ∀ w, P w → w.registered = u.job.previousVersion ∧ w.Backed existed)
    (hQ : ∀ w content, P w → Inv u { w with deviceState := content, restored := true, stopped := none } →
      Q { w with deviceState := content, restored := true, stopped := none }) :
    Triple (setting u) P (putBack existed) (fun _ => Q) fun _ => E := by
  have hput : ∀ w content, P w →
      Inv u { w with deviceState := content, restored := true, stopped := none } := by
    intro w content hw
    obtain ⟨-, d, hsaved, -⟩ := hP w hw
    exact (hk.inv w hw).putBack (by rw [hsaved]; simp) content
  unfold putBack
  cases existed with
  | true =>
    refine triple_try hk .restoreState id (fun w hw => ?_) fun w x r w' hw hx => ?_
    · obtain ⟨hversion, d, hsaved, hbackup, hd⟩ := hP w hw
      obtain ⟨c, rfl⟩ := Option.isSome_iff_exists.mp hd.symm
      exact ⟨hversion, c, hsaved, hbackup⟩
    · rcases Choice.run_cases hx with ⟨e, rfl, rfl⟩ | hdone
      · exact .inl ⟨e, rfl, hE _ hw⟩
      · unfold World.restoreState at hdone
        split at hdone
        · cases hdone
          exact .inl ⟨_, rfl, hE _ hw⟩
        · split at hdone
          · cases hdone
            exact .inl ⟨_, rfl, hE _ hw⟩
          · cases hdone
            exact .inr ⟨(), rfl, hQ w _ hw (hput w _ hw)⟩
  | false =>
    refine triple_run hk .removeState id (fun _ _ _ _ h => h) (fun w hw => ?_) (fun _ => hE)
      fun _ w hw => hQ w _ hw (hput w _ hw)
    obtain ⟨hversion, d, hsaved, -, hd⟩ := hP w hw
    cases d with
    | none => exact ⟨hversion, hsaved⟩
    | some c => cases hd

end

end SbEasy.WinUpdate

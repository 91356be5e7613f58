import SbEasy.SupervisorEngine

/-!
Configuration changes of the embedded engine are transactions.
-/

namespace SbEasy.Supervisor

open Prog (Triple triple_pure triple_throw triple_alone alone)

variable {readConfig : Bytes → Option Bytes}

/-- What a supervisor may see. -/
def seen (readConfig : Bytes → Option Bytes) (o : Op) (w : World) (r : Reply o) (w' : World) : Prop :=
  ∃ x, act readConfig x w o = some (r, w')

/-- What a program of the supervisor does. -/
abbrev Spec {ε α : Type} (readConfig : Bytes → Option Bytes) (P : World → Prop) (p : Fn ε α) :
    (α → World → Prop) → (ε → World → Prop) → Prop :=
  Triple (alone (seen readConfig)) P p

/-- The file, the fields of the supervisor, and what the engine was built from. -/
structure Exact (file : Option Bytes) (f : Fields) (built : Option Bytes) (w : World) : Prop where
  file : w.file = file
  fields : w.fields = f
  engine : At none built w.engine

/-- The supervisor knows of a running engine. -/
def Aware (f : Fields) (built : Option Bytes) : Prop := built ≠ none → f.running = true

/-- What holds between two calls. -/
def Holds (file built : Option Bytes) (w : World) : Prop :=
  ∃ f, Aware f built ∧ Exact file f built w

variable {file built : Option Bytes} {f : Fields} {w w' : World} {ε : Type} {E : ε → World → Prop}

lemma aware_none (f : Fields) : Aware f none := fun h => absurd rfl h

lemma Exact.holds (h : Exact file f built w) (haware : Aware f built) : Holds file built w :=
  ⟨f, haware, h⟩

lemma triple_seen {op : Op} {P : World → Prop} {Q : Reply op → World → Prop}
    (h : ∀ x w r w', P w → act readConfig x w op = some (r, w') → Q r w') :
    Spec readConfig P (Prog.perform op) Q E := by
  refine triple_alone ?_
  rintro w r w' hw ⟨x, hx⟩
  exact h x w r w' hw hx

lemma triple_getExact : Spec readConfig (Exact file f built) getFields
    (fun g w => g = f ∧ Exact file f built w) E := by
  refine triple_seen fun x w g w' hw hx => ?_
  cases hx
  exact ⟨hw.fields, hw⟩

lemma triple_getFields : Spec readConfig (Holds file built) getFields
    (fun f w => Aware f built ∧ Exact file f built w) E := by
  refine Triple.exists fun f => Triple.assume fun haware => triple_getExact.post fun g w hw => ?_
  rw [hw.1]
  exact ⟨haware, hw.2⟩

lemma triple_setFields {f' : Fields} : Spec readConfig (Exact file f built)
    (setFields f') (fun _ => Exact file f' built) E := by
  refine triple_seen fun x w r w' hw hx => ?_
  cases hx
  exact ⟨hw.file, rfl, hw.engine⟩

lemma triple_monotonicMs : Spec readConfig (Exact file f built) monotonicMs
    (fun _ => Exact file f built) E := by
  refine triple_seen fun x w r w' hw hx => ?_
  cases hx
  exact hw

lemma triple_isRegularFile {P : World → Prop} (hP : ∀ w, P w → w.file = file) :
    Spec readConfig P isRegularFile (fun r w => r = file.isSome ∧ P w) E := by
  refine triple_seen fun x w r w' hw hx => ?_
  cases hx
  exact ⟨by rw [hP w hw], hw⟩

lemma triple_call {α δ : Type} {p : Bridge.Fn δ α} {Q : α → Bridge.State → Prop}
    {D : δ → Bridge.State → Prop}
    (hp : Engine (file.bind readConfig) (At none built) p Q D) :
    Spec readConfig (Exact file f built) (call p)
      (fun a w => w.file = file ∧ w.fields = f ∧ Q a w.engine)
      fun e w => w.file = file ∧ w.fields = f ∧ D e w.engine := by
  rintro w ⟨rfl, rfl, hengine⟩
  have hwp : Prog.wp (alone (seen readConfig)) (call p)
      (fun a w' => ∃ s, w' = { w with engine := s } ∧ Q a s)
      (fun e w' => ∃ s, w' = { w with engine := s } ∧ D e s) { w with engine := w.engine } := by
    refine Prog.wp_inject (f := Op.bridge) (g := fun _ r => r) ?_ (hp _ hengine)
    rintro o s r w' ⟨x, hx⟩
    simp only [act] at hx
    split at hx
    · cases hx
    · rename_i hblocked
      split at hx
      · rename_i r' s' hstep
        cases hx
        exact ⟨s', rfl, x, by simpa using hblocked, hstep⟩
      · cases hx
  refine Prog.wp_mono hwp ?_ ?_
  · rintro a _ ⟨s, rfl, hs⟩
    exact ⟨rfl, rfl, hs⟩
  · rintro e _ ⟨s, rfl, hs⟩
    exact ⟨rfl, rfl, hs⟩

lemma triple_engineRunning : Spec readConfig (Exact file f built) engineRunning
    (fun r w => r = built.isSome ∧ Exact file f built w) E := by
  have hp : Engine (file.bind readConfig) (At none built)
      (do
        Prog.perform Bridge.Op.lock
        let r ← Bridge.load
        Prog.perform Bridge.Op.unlock
        pure r.box.isSome : Bridge.Fn ε Bool)
      (fun r s => r = built.isSome ∧ At none built s) fun _ _ => False := by
    refine Triple.bind (Q := fun _ => At (some 0) built) (triple_alone ?_) fun _ => ?_
    · rintro s r s' hs ⟨x, -, hx⟩
      simp only [Bridge.act] at hx
      split at hx <;> cases hx
      exact lockless_at built none (some 0) s _ rfl rfl hs
    refine triple_load.bind fun r => Triple.assume fun hr => ?_
    refine Triple.bind (Q := fun _ => At none built) (triple_alone ?_) fun _ =>
      triple_pure _ fun s hs => ⟨by rw [← hr.1, Option.isSome_map], hs⟩
    rintro s r s' hs ⟨x, -, hx⟩
    cases hx
    exact lockless_at built (some 0) none s _ rfl rfl hs
  refine Triple.mono (triple_call hp) (fun _ => id) ?_ ?_
  · rintro r w ⟨hfile, hfields, hr, hengine⟩
    exact ⟨hr, hfile, hfields, hengine⟩
  · rintro e w ⟨-, -, hfalse⟩
    exact hfalse.elim

/-! ### The functions -/

variable (o : Options)

lemma triple_reap : Spec readConfig (Holds file built) (reap o)
    (fun _ w => ∃ f, f.running = built.isSome ∧ Exact file f built w) E := by
  refine triple_getFields.bind fun f => Triple.assume fun haware => ?_
  refine Triple.ite (fun hrunning => ?_) fun hrunning => triple_pure _ fun w hw => ⟨f, ?_, hw⟩
  · refine triple_engineRunning.bind fun r => Triple.assume fun hr => ?_
    subst hr
    refine Triple.ite (fun hlive => triple_pure _ fun w hw => ⟨f, hrunning.trans hlive.symm, hw⟩)
      fun hdead => ?_
    refine triple_monotonicMs.bind fun now => Triple.post triple_setFields
      (fun _ w hw => ⟨_, ?_, hw⟩)
    exact (Bool.not_eq_true _ ▸ hdead).symm
  · cases built with
    | none => simpa using hrunning
    | some c => exact absurd (haware (by simp)) hrunning

lemma aware_of_eq (h : f.running = built.isSome) : Aware f built := by
  intro hb
  rw [h, Option.isSome_iff_ne_none]
  exact hb

lemma triple_running : Spec readConfig (Holds file built) (running o)
    (fun r w => r = built.isSome ∧ Holds file built w) E := by
  refine (triple_reap o).bind fun _ => Triple.exists fun f => Triple.assume fun hf => ?_
  refine triple_getExact.bind fun g => Triple.assume fun hg => triple_pure _ fun w hw => ?_
  exact ⟨by rw [hg, hf], hw.holds (aware_of_eq hf)⟩

/-- The engine was built from the file. -/
def Fresh (readConfig : Bytes → Option Bytes) (file : Option Bytes) (w : World) : Prop :=
  ∃ c, file.bind readConfig = some c ∧ Holds file (some c) w

lemma triple_startEngine : Spec readConfig (Exact file f none) (startEngine o f)
    (fun _ => Fresh readConfig file) fun _ => Holds file none := by
  refine triple_setFields.bind fun _ => ?_
  refine (Triple.result (R := fun r w => w.file = file ∧
      w.fields = { f with hasStarted := true } ∧
      if r.isOk then FromFile none (file.bind readConfig) w.engine else At none none w.engine)
    (triple_call triple_startRuntime)).bind fun r => ?_
  cases r with
  | error e =>
    refine Triple.pre (P := Exact file { f with hasStarted := true } none) ?_
      (fun w hw => ⟨hw.1, hw.2.1, hw.2.2⟩)
    refine triple_monotonicMs.bind fun now => ?_
    exact triple_setFields.bind fun _ => triple_throw _ fun w hw => hw.holds (aware_none _)
  | ok a =>
    rintro w ⟨hfile, hfields, c, hc, hengine⟩
    refine triple_setFields.post (P := Exact file { f with hasStarted := true } (some c))
      (fun _ w hw => ⟨c, hc, hw.holds fun _ => rfl⟩) w ⟨hfile, hfields, hengine⟩

/-- A start leaves an engine of the file, unless there is an engine, no file, or a time to wait. -/
lemma triple_start (ignoreBackoff : Bool) : Spec readConfig (Holds file built)
    (start o ignoreBackoff)
    (fun _ w => Fresh readConfig file w ∨
      Holds file built w ∧ (built ≠ none ∨ ignoreBackoff = false ∨ file = none))
    fun _ => Holds file built := by
  refine (triple_reap o).bind fun _ => Triple.exists fun f => Triple.assume fun hf => ?_
  refine triple_getExact.bind fun g => Triple.assume fun hg => ?_
  subst hg
  refine Triple.ite (fun hrunning => triple_pure _ fun w hw =>
    .inr ⟨hw.holds (aware_of_eq hf), .inl ?_⟩) fun hrunning => ?_
  · rw [hf, Option.isSome_iff_ne_none] at hrunning
    exact hrunning
  have hnone : built = none := by
    rw [hf] at hrunning
    simpa using hrunning
  subst hnone
  refine Triple.bind (Q := fun early w => (early = true → ignoreBackoff = false) ∧ Exact file g none w)
    ?_ fun early => Triple.assume fun hearly => ?_
  · refine Triple.ite (fun _ => triple_pure _ fun w hw => ⟨fun he => (nomatch he), hw⟩) fun hno => ?_
    exact triple_monotonicMs.bind fun now => triple_pure _ fun w hw =>
      ⟨fun _ => by simpa using hno, hw⟩
  refine Triple.ite (fun he => triple_pure _ fun w hw =>
    .inr ⟨hw.holds (aware_none g), .inr (.inl (hearly he))⟩) fun _ => ?_
  refine (triple_isRegularFile fun w hw => hw.file).bind fun regular => Triple.assume
    fun hregular => ?_
  refine Triple.ite (fun _ => ?_) fun hmissing => triple_pure _ fun w hw =>
    .inr ⟨hw.holds (aware_none g), .inr (.inr ?_)⟩
  · exact Triple.post (triple_startEngine o) (fun _ _ => .inl)
  · rw [hregular] at hmissing
    simpa using hmissing

/-- The engine is what it was, or there is none. -/
def Undone (file built : Option Bytes) (w : World) : Prop := Holds file built w ∨ Holds file none w

lemma triple_reloadRunning : Spec readConfig (Holds file built) reloadRunning
    (fun _ => Fresh readConfig file) fun _ => Undone file built := by
  rintro w ⟨f, haware, hw⟩
  refine Triple.bind (P := Exact file f built) (Triple.handle (triple_call triple_reloadRuntime)
    fun e => triple_throw _ ?_) (fun _ => ?_) w hw
  · rintro w ⟨hfile, hfields, hengine⟩
    rcases hengine with hengine | hengine
    · exact .inl (Exact.holds ⟨hfile, hfields, hengine⟩ haware)
    · exact .inr (Exact.holds ⟨hfile, hfields, hengine⟩ (aware_none f))
  · rintro w ⟨hfile, hfields, c, hc, hengine⟩
    refine Triple.bind (P := Exact file f (some c)) triple_getExact
      (fun g => Triple.assume fun _ => ?_) w ⟨hfile, hfields, hengine⟩
    exact triple_setFields.post fun _ w hw => ⟨c, hc, hw.holds fun _ => rfl⟩

lemma triple_reload : Spec readConfig (Holds file built) (reload o)
    (fun _ w => Fresh readConfig file w ∨ Holds file built w ∧ file = none)
    fun _ => Undone file built := by
  refine (triple_running o).bind fun live => Triple.assume fun hlive => ?_
  refine Triple.ite (fun _ => ?_) fun hdead => ?_
  · exact Triple.post triple_reloadRunning (fun _ _ => .inl)
  · refine Triple.mono (triple_start o true) (fun _ => id) ?_ fun _ _ => .inl
    rintro _ w (hfresh | ⟨hw, hreason⟩)
    · exact .inl hfresh
    · refine .inr ⟨hw, ?_⟩
      rcases hreason with hbuilt | hno | hfile
      · rw [hlive] at hdead
        exact absurd (Option.isSome_iff_ne_none.mpr hbuilt) hdead
      · cases hno
      · exact hfile

/-! ### A change -/

lemma triple_rename {contents : Bytes} : Spec readConfig (Holds file built)
    (Prog.perform (.rename contents) >>= fun _ => pure ()) (fun _ => Holds (some contents) built) E := by
  refine Triple.bind (triple_seen ?_) fun _ => triple_pure _ fun _ => id
  rintro x w r w' ⟨f, haware, hw⟩ hx
  cases hx
  exact ⟨f, haware, rfl, hw.fields, hw.engine⟩

lemma triple_prepare (restoring : Bool) : Spec readConfig (Holds file built)
    (Prog.perform (.prepare restoring) >>= Prog.ofExcept : Fn String Unit) (fun _ => Holds file built)
    fun _ w => restoring = false ∧ Holds file built w := by
  refine Triple.bind (Q := fun r w => (∀ e, r = .error e → restoring = false) ∧ Holds file built w)
    (triple_alone ?_) fun r => ?_
  · rintro w r w' hw ⟨x, hx⟩
    cases hx
    refine ⟨fun e he => ?_, hw⟩
    cases restoring with
    | false => rfl
    | true => cases he
  · cases r with
    | error e => exact triple_throw _ fun w hw => ⟨hw.1 e rfl, hw.2⟩
    | ok a => exact triple_pure _ fun w hw => hw.2

lemma triple_validate : Spec readConfig (Holds file built) (validate o)
    (fun _ => Holds file built) fun _ => Holds file built := by
  refine Triple.ite (fun _ => ?_) fun _ => triple_pure _ fun _ => id
  refine Triple.handle (Triple.bind (Q := fun _ => Holds file built) (triple_alone ?_) fun r =>
    triple_ofExcept (P := fun _ => Holds file built)) fun e => triple_throw _ fun _ => id
  rintro w r w' hw ⟨x, hx⟩
  cases hx
  exact hw

lemma triple_restoreFile (previous : Option Bytes) : Spec readConfig (Holds file built)
    (restoreFile previous) (fun _ => Holds previous built) fun _ _ => False := by
  cases previous with
  | none =>
    refine triple_seen ?_
    rintro x w r w' ⟨f, haware, hw⟩ hx
    cases hx
    exact ⟨f, haware, rfl, hw.fields, hw.engine⟩
  | some contents =>
    refine (Triple.fail (triple_prepare true) ?_).bind fun _ => ?_
    · rintro e w ⟨hno, -⟩
      cases hno
    · exact (triple_pure _ fun _ => id).bind fun _ => triple_rename

lemma triple_giveUp (previous : Option Bytes) (e : String) {Q : Unit → World → Prop} :
    Spec readConfig (Holds file built) (giveUp previous e) Q
      fun _ => Holds previous built := by
  refine (Triple.result (R := fun _ => Holds previous built)
    (Triple.fail (triple_restoreFile previous) fun _ _ hfalse => hfalse.elim)).bind fun r => ?_
  rintro w ⟨f, haware, hw⟩
  refine triple_engineRunning.bind (fun live => Triple.assume fun hlive => ?_) w hw
  refine (Triple.pre triple_getFields (fun w hw => hw.holds haware)).bind fun g => Triple.assume fun _ => ?_
  refine triple_setFields.bind fun _ => triple_throw _ fun w hw => hw.holds ?_
  exact aware_of_eq hlive

lemma triple_priorFile : Spec readConfig (Holds file built) priorFile
    (fun previous w => previous = file ∧ Holds file built w) fun _ => Holds file built := by
  have hfile : ∀ w, Holds file built w → w.file = file := by
    rintro w ⟨f, -, hw⟩
    exact hw.file
  refine (triple_isRegularFile hfile).bind fun regular => Triple.assume fun hregular => ?_
  refine Triple.ite (fun _ => ?_) fun hmissing => triple_pure _ fun w hw => ⟨?_, hw⟩
  · refine Triple.bind (Q := fun contents w => some contents = file ∧ Holds file built w)
      (Triple.handle (Q := fun contents w => some contents = file ∧ Holds file built w)
        (E := fun _ => Holds file built) (Triple.bind
          (Q := fun r w => (∀ c, r = .ok c → some c = file) ∧ Holds file built w) (triple_alone ?_) fun r => ?_)
        fun e => triple_throw _ fun _ => id) fun contents => triple_pure _ fun _ => id
    · rintro w r w' hw ⟨x, hx⟩
      cases hx
      refine ⟨fun c hc => ?_, hw⟩
      rw [hfile w hw] at hc
      cases file with
      | none => cases hc
      | some bytes =>
        simp only [Option.elim_some, Prog.answer] at hc
        split at hc <;> cases hc
        rfl
    · cases r with
      | error e => exact triple_throw _ fun w hw => hw.2
      | ok c => exact triple_pure _ fun w hw => ⟨hw.1 c rfl, hw.2⟩
  · rw [hregular] at hmissing
    symm
    simpa using hmissing

/-- **A change is made or undone.** -/
lemma triple_applyConfig (contents : Bytes) : Spec readConfig (Holds file built)
    (applyConfig o contents) (fun _ => Fresh readConfig (some contents)) fun _ => Undone file built := by
  refine (Triple.fail triple_priorFile fun _ _ => .inl).bind fun previous => Triple.assume
    fun hprevious => ?_
  subst hprevious
  refine Triple.bind (Q := fun _ => Holds (some contents) built) ?_ fun _ => ?_
  · refine (Triple.fail (triple_prepare false) fun _ w hw => .inl hw.2).bind fun _ => ?_
    exact (Triple.fail (triple_validate o) fun _ _ => .inl).bind fun _ => triple_rename
  refine (Triple.result (R := fun r w => if r.isOk then
      Fresh readConfig (some contents) w ∨ Holds (some contents) built w ∧ some contents = none
    else Undone (some contents) built w) (triple_reload o)).bind fun r => ?_
  cases r with
  | ok a =>
    refine triple_pure _ ?_
    rintro w (hfresh | ⟨-, hno⟩)
    · exact hfresh
    · cases hno
  | error e =>
    rintro w (hw | hw)
    · exact Triple.fail (triple_giveUp previous e) (fun _ _ => .inl) w hw
    · exact Triple.fail (triple_giveUp previous e) (fun _ _ => .inr) w hw

end SbEasy.Supervisor

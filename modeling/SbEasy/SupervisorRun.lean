import SbEasy.SupervisorApply

/-!
Between the calls of a supervisor, a running engine was always built from the file.
-/

namespace SbEasy.Supervisor

open Prog (Triple triple_pure triple_throw triple_alone alone)

variable {readConfig : Bytes → Option Bytes} {file built : Option Bytes} {w w' : World}
  {ε : Type} {E : ε → World → Prop} (o : Options)

lemma triple_stop : Spec readConfig (Holds file built) stop
    (fun _ => Holds file none) E := by
  refine triple_getFields.bind fun f => Triple.assume fun haware => ?_
  refine Triple.bind (Q := fun live w => (live = false → built = none) ∧ Exact file f built w) ?_
    fun live => Triple.assume fun hlive => ?_
  · refine Triple.ite (fun _ => triple_pure _ fun w hw => ⟨fun hno => (nomatch hno), hw⟩) fun _ => ?_
    refine Triple.post triple_engineRunning (fun r w hw => ⟨fun hno => ?_, hw.2⟩)
    rw [hw.1] at hno
    simpa using hno
  refine Triple.ite (fun _ => ?_) fun hdead => triple_pure _ fun w hw => ?_
  · refine (Triple.result (R := fun _ => Exact file f none)
      (Triple.mono (triple_call triple_stopRuntime) (fun _ => id) (fun _ w hw => ⟨hw.1, hw.2.1, hw.2.2⟩)
        fun _ w hw => ⟨hw.1, hw.2.1, hw.2.2⟩)).bind fun r => ?_
    exact Triple.post triple_setFields (fun _ w hw => hw.holds (aware_none _))
  · have hnone := hlive (by simpa using hdead)
    subst hnone
    exact hw.holds haware

/-- The engine is one of the file, or what it was. -/
def Started (readConfig : Bytes → Option Bytes) (file built : Option Bytes) (w : World) : Prop :=
  Fresh readConfig file w ∨ Holds file built w

lemma triple_ensureAlive : Spec readConfig (Holds file built) (ensureAlive o)
    (fun _ => Started readConfig file built) E := by
  refine (triple_reap o).bind fun _ => Triple.exists fun f => Triple.assume fun hf => ?_
  refine (Triple.pre triple_getFields (fun w hw => hw.holds (aware_of_eq hf))).bind fun g =>
    Triple.assume fun hg => ?_
  refine Triple.ite (fun _ => ?_) fun _ => triple_pure _ fun w hw => .inr (hw.holds hg)
  refine (Triple.result (R := fun r w => if r.isOk then Started readConfig file built w
      else Holds file built w)
    (Triple.mono (triple_start o false) (fun w hw => hw.holds hg)
      (fun _ w hw => hw.imp id And.left) fun _ _ => id)).bind fun r => ?_
  cases r with
  | ok a => exact triple_pure _ fun _ => id
  | error e =>
    refine triple_getFields.bind fun f => Triple.assume fun haware => ?_
    exact Triple.post triple_setFields (fun _ w hw => .inr (hw.holds haware))

lemma triple_restart : Spec readConfig (Holds file built) (restart o)
    (fun _ => Started readConfig file none) fun _ => Holds file none := by
  refine triple_stop.bind fun _ => ?_
  refine triple_getFields.bind fun f => Triple.assume fun _ => ?_
  refine triple_setFields.bind fun _ => ?_
  exact Triple.mono (triple_start o true) (fun w hw => hw.holds (aware_none _))
    (fun _ w hw => hw.imp id And.left) fun _ _ => id

/-! ### Runs -/

inductive Call
  | applyConfig (contents : Bytes)
  | reload
  | restart
  | stop
  | ensureAlive

def Call.program : Call → Fn String Unit
  | .applyConfig contents => Supervisor.applyConfig o contents
  | .reload => Supervisor.reload o
  | .restart => Supervisor.restart o
  | .stop => Supervisor.stop
  | .ensureAlive => Supervisor.ensureAlive o

/-- One call after the other, each with any failures on the way. -/
inductive Reachable (readConfig : Bytes → Option Bytes) (o : Options) : World → Prop
  | init (file : Option Bytes) : Reachable readConfig o { file }
  | call {w w' : World} {c : Call} {out : Except String Unit} (h : Reachable readConfig o w)
    (hrun : Prog.Runs (seen readConfig) (c.program o) w out w') : Reachable readConfig o w'

/-- The engine was built from the file. -/
def Consistent (readConfig : Bytes → Option Bytes) (w : World) : Prop :=
  ∃ file built, Holds file built w ∧ ∀ c, built = some c → file.bind readConfig = some c

lemma Fresh.consistent (h : Fresh readConfig file w) : Consistent readConfig w := by
  obtain ⟨c, hc, hw⟩ := h
  exact ⟨file, some c, hw, fun c' hc' => hc' ▸ hc⟩

lemma Holds.consistent_none (h : Holds file none w) : Consistent readConfig w :=
  ⟨file, none, h, fun _ hc => nomatch hc⟩

lemma Started.consistent (h : Started readConfig file built w)
    (hbuilt : ∀ c, built = some c → file.bind readConfig = some c) : Consistent readConfig w := by
  rcases h with hfresh | hw
  · exact hfresh.consistent
  · exact ⟨file, built, hw, hbuilt⟩

lemma Undone.consistent (h : Undone file built w)
    (hbuilt : ∀ c, built = some c → file.bind readConfig = some c) : Consistent readConfig w := by
  rcases h with hw | hw
  · exact ⟨file, built, hw, hbuilt⟩
  · exact hw.consistent_none

lemma triple_program (c : Call) (hbuilt : ∀ c, built = some c → file.bind readConfig = some c) :
    Spec readConfig (Holds file built) (c.program o)
      (fun _ => Consistent readConfig) fun _ => Consistent readConfig := by
  cases c with
  | applyConfig contents =>
    exact Triple.mono (triple_applyConfig o contents) (fun _ => id) (fun _ w hw => hw.consistent)
      fun _ w hw => hw.consistent hbuilt
  | reload =>
    exact Triple.mono (triple_reload o) (fun _ => id)
      (fun _ w hw => Started.consistent (hw.imp id And.left) hbuilt) fun _ w hw => hw.consistent hbuilt
  | restart =>
    exact Triple.mono (triple_restart o) (fun _ => id)
      (fun _ w hw => hw.consistent fun _ hc => nomatch hc) fun _ w hw => hw.consistent_none
  | stop =>
    exact Triple.post triple_stop (fun _ w hw => hw.consistent_none)
  | ensureAlive =>
    exact Triple.post (triple_ensureAlive o) (fun _ w hw => hw.consistent hbuilt)

lemma Reachable.consistent {o : Options} (h : Reachable readConfig o w) : Consistent readConfig w := by
  induction h with
  | init file => exact ⟨file, none, ⟨{}, aware_none _, rfl, rfl, rfl, rfl, rfl⟩, fun _ hc => nomatch hc⟩
  | call _ hrun ih =>
    rename_i w w' c out _
    obtain ⟨file, built, hw, hbuilt⟩ := ih
    obtain ⟨hok, herror⟩ := Prog.runs_of_wp (triple_program o c hbuilt w hw) hrun
    cases out with
    | error e => exact herror e rfl
    | ok a => exact hok a rfl

/-- What is promised between two calls, and of a change. -/
structure Transaction (readConfig : Bytes → Option Bytes) (o : Options) (w : World) : Prop where
  /-- A running engine was built from the file. -/
  current : ∀ b, w.engine.runtime.box = some b →
    ∃ contents, w.file = some contents ∧ readConfig contents = some b.config
  /-- A change that is made: the file is the new one, and an engine runs that was built from it. -/
  made : ∀ contents w', Prog.Runs (seen readConfig) (applyConfig o contents) w (.ok ()) w' →
    w'.file = some contents ∧
      ∃ b, w'.engine.runtime.box = some b ∧ readConfig contents = some b.config
  /-- A change that fails: the file is the old one, and an engine that runs was built as before. -/
  undone : ∀ contents e w', Prog.Runs (seen readConfig) (applyConfig o contents) w (.error e) w' →
    w'.file = w.file ∧ ∀ b', w'.engine.runtime.box = some b' →
      ∃ b, w.engine.runtime.box = some b ∧ b.config = b'.config

lemma At.exists_box {h : Option ℕ} {c : Bytes} {s : Bridge.State} (hs : At h (some c) s) :
    ∃ b, s.runtime.box = some b ∧ b.config = c :=
  Option.map_eq_some_iff.mp hs.box

/-- **Configuration changes are transactions**, after any calls with any failures. -/
theorem config_transaction (readConfig : Bytes → Option Bytes) (o : Options) (w : World)
    (h : Reachable readConfig o w) : Transaction readConfig o w := by
  obtain ⟨file, built, hw, hbuilt⟩ := h.consistent
  obtain ⟨f, haware, hfile, -, hengine⟩ := id hw
  refine ⟨fun b hb => ?_, fun contents w' hrun => ?_, fun contents e w' hrun => ?_⟩
  · have hconfig := hbuilt b.config (hengine.box.symm.trans (congrArg _ hb))
    obtain ⟨contents, hcontents, hread⟩ := Option.bind_eq_some_iff.mp hconfig
    exact ⟨contents, hfile.trans hcontents, hread⟩
  · obtain ⟨c, hc, f', -, hfile', -, hengine'⟩ :=
      (Prog.runs_of_wp (triple_applyConfig o contents w hw) hrun).1 () rfl
    obtain ⟨b, hb, rfl⟩ := hengine'.exists_box
    exact ⟨hfile', b, hb, hc⟩
  · have hundone := (Prog.runs_of_wp (triple_applyConfig o contents w hw) hrun).2 e rfl
    obtain ⟨built', hbuilt', f', -, hfile', -, hengine'⟩ :
        ∃ built', (built' = built ∨ built' = none) ∧ Holds file built' w' := by
      rcases hundone with h | h
      · exact ⟨_, .inl rfl, h⟩
      · exact ⟨_, .inr rfl, h⟩
    refine ⟨hfile'.trans hfile.symm, fun b' hb' => ?_⟩
    have hsome : built' = some b'.config := hengine'.box.symm.trans (congrArg _ hb')
    rcases hbuilt' with rfl | rfl
    · subst hsome
      exact hengine.exists_box
    · cases hsome

/-- The replacement does not start. -/
def secondStartFails : List Choice :=
  List.replicate 19 ({} : Choice) ++ { fault := some "start" } :: List.replicate 20 ({} : Choice)

/-- A change to a new file, and one that is undone. -/
theorem config_transaction_changes : ∃ w : World, Reachable some {} w ∧ w.file = some [0x7B, 0x7D] ∧
    w.engine.runtime.box.isSome = true ∧ Transaction some {} w := by
  have hplay : ((Prog.play (act some) (List.replicate 40 {}) (applyConfig {} [0x7B, 0x7D])
      {}).bind fun r => (Prog.play (act some) secondStartFails (applyConfig {} [0x7B]) r.2).map
      fun r' => (r'.1.isOk, r'.2.file, r'.2.engine.runtime.box.isSome)) =
      some (false, some [0x7B, 0x7D], true) := by
    decide +kernel
  obtain ⟨⟨out, w⟩, hfirst, hrest⟩ := Option.bind_eq_some_iff.mp hplay
  obtain ⟨⟨out', w'⟩, hsecond, hfacts⟩ := Option.map_eq_some_iff.mp hrest
  simp only [Prod.mk.injEq] at hfacts
  have hreach : Reachable some {} w' :=
    .call (c := .applyConfig [0x7B]) (.call (c := .applyConfig [0x7B, 0x7D]) (.init none)
      (Prog.play_sound hfirst)) (Prog.play_sound hsecond)
  exact ⟨w', hreach, hfacts.2.1, hfacts.2.2, config_transaction some {} w' hreach⟩

end SbEasy.Supervisor

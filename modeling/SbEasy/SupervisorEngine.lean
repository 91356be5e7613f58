import SbEasy.Supervisor

/-!
The calls of the bridge, made by one supervisor: which configuration the engine was built from.
-/

namespace SbEasy.Supervisor

open Bridge (Box State)
open Prog (Triple triple_pure triple_throw triple_alone alone)

/-- What the operations of the bridge do for a supervisor; `ready` is the file, made ready. -/
def engineAct (ready : Option Bytes) (o : Bridge.Op) (s : State) (r : Bridge.Reply o) (s' : State) :
    Prop :=
  ∃ x : Choice, blocked x ready o = false ∧ Bridge.act 0 (x.bridge ready) s o = some (r, s')

/-- What a program of the bridge does for a supervisor. -/
abbrev Engine {ε α : Type} (ready : Option Bytes) (P : State → Prop) (p : Bridge.Fn ε α) :
    (α → State → Prop) → (ε → State → Prop) → Prop :=
  Triple (alone (engineAct ready)) P p

/-- The engine was built from `built`. -/
structure At (holder : Option ℕ) (built : Option Bytes) (s : State) : Prop where
  holder : s.holder = holder
  box : s.runtime.box.map Box.config = built
  config : s.runtime.config = built.getD []

variable {ready : Option Bytes} {holder built : Option Bytes} {h : Option ℕ} {s s' : State}

/-- The operations that leave the lock and `runtimeState` alone. -/
def calm : Bridge.Op → Bool
  | .lock | .unlock | .store _ => false
  | _ => true

/-- The same lock and `runtimeState`. -/
def Same (s s' : State) : Prop := s'.holder = s.holder ∧ s'.runtime = s.runtime

lemma act_same {x : Bridge.Choice} {o : Bridge.Op} {r : Bridge.Reply o}
    (hact : Bridge.act 0 x s o = some (r, s')) (hcalm : calm o = true) : Same s s' := by
  cases o with
  | lock | unlock | store runtime => cases hcalm
  | begin generation =>
    simp only [Bridge.act] at hact
    split at hact <;> cases hact <;> exact ⟨rfl, rfl⟩
  | create ctx content =>
    simp only [Bridge.act] at hact
    split at hact <;> cases hact <;> exact ⟨rfl, rfl⟩
  | generation | cancelStartup | cancel | err | read | start | close | load | finish =>
    cases hact
    exact ⟨rfl, rfl⟩

lemma At.keep (hs : At h built s) (hsame : Same s s') : At h built s' :=
  ⟨hsame.1.trans hs.holder, by rw [hsame.2]; exact hs.box, by rw [hsame.2]; exact hs.config⟩

section

variable {ε : Type} {E : ε → State → Prop}

lemma triple_calm {P : State → Prop} {o : Bridge.Op} (hP : ∀ s s', Same s s' → P s → P s')
    (hcalm : calm o = true := by rfl) :
    Engine ready P (Prog.perform o : Bridge.Fn ε _) (fun _ => P) E := by
  refine triple_alone ?_
  rintro s r s' hs ⟨x, -, hx⟩
  exact hP s s' (act_same hx hcalm) hs

lemma triple_keep {o : Bridge.Op} (hcalm : calm o = true := by rfl) :
    Engine ready (At h built) (Prog.perform o : Bridge.Fn ε _)
      (fun _ => At h built) E :=
  triple_calm (fun _ _ hsame hs => hs.keep hsame) hcalm

lemma triple_load : Engine ready (At h built) Bridge.load
    (fun r s => (r.box.map Box.config = built ∧ r.config = built.getD []) ∧ At h built s) E := by
  refine triple_alone ?_
  rintro s r s' hs ⟨x, -, hx⟩
  cases hx
  exact ⟨⟨hs.box, hs.config⟩, hs⟩

lemma triple_store {r : Bridge.Runtime} (hr : r.config = (r.box.map Box.config).getD []) :
    Engine ready (At h built) (Prog.perform (.store r) : Bridge.Fn ε _)
      (fun _ => At h (r.box.map Box.config)) E := by
  refine triple_alone ?_
  rintro s _ s' hs ⟨x, -, hx⟩
  cases hx
  have hruntime : (s.store 0 r).runtime = r := by
    unfold State.store
    split <;> rfl
  have hholder : (s.store 0 r).holder = s.holder := by
    unfold State.store State.takeOut
    split <;> split <;> rfl
  exact ⟨hholder.trans hs.holder, by rw [hruntime], by rw [hruntime]; exact hr⟩

lemma triple_ofExcept {S Op α : Type} {Reply : Op → Type} {m : Prog.Setting S Op Reply}
    {P : Except String α → S → Prop} {r : Except String α} :
    Triple m (P r) (Prog.ofExcept r : Prog Op Reply String α) (fun a => P (.ok a))
      fun e => P (.error e) := by
  cases r with
  | error e => exact triple_throw _ fun _ => id
  | ok a => exact triple_pure _ fun _ => id

lemma triple_readRuntimeConfig : Engine ready (At h built)
    Bridge.readRuntimeConfig (fun c s => ready = some c ∧ At h built s) fun _ => At h built := by
  refine Triple.bind (Q := fun r s => (∀ c, r = .ok c → ready = some c) ∧ At h built s)
    (triple_alone ?_) fun r => ?_
  · rintro s r s' hs ⟨x, hblocked, hx⟩
    cases hx
    refine ⟨fun c hc => ?_, hs⟩
    unfold Prog.answer at hc
    split at hc
    · cases hc
    · rename_i hfault
      cases hc
      have hx : x.fault = none := hfault
      cases hready : ready with
      | none => simp [blocked, hx, hready] at hblocked
      | some c => rfl
  · exact Triple.mono (triple_ofExcept (P := fun r s => (∀ c, r = .ok c → ready = some c) ∧ At h built s))
      (fun _ => id) (fun c s hs => ⟨hs.1 c rfl, hs.2⟩) fun e s hs => hs.2

lemma triple_createInstance (ctx : ℕ) (content : Bytes) : Engine ready (At h built)
    (Bridge.createInstanceInContext ctx content) (fun b s => b.config = content ∧ At h built s)
    fun _ => At h built := by
  refine Triple.bind (Q := fun r s => (∀ b, r = .ok b → b.config = content) ∧ At h built s)
    (triple_alone ?_) fun r => ?_
  · rintro s r s' hs ⟨x, -, hx⟩
    refine ⟨?_, hs.keep (act_same hx rfl)⟩
    simp only [Bridge.act] at hx
    split at hx <;> cases hx
    · exact fun b hb => nomatch hb
    · exact fun b hb => nomatch hb
    · intro b hb
      cases hb
      rfl
  · exact Triple.mono (triple_ofExcept (P := fun r s => (∀ b, r = .ok b → b.config = content) ∧
      At h built s)) (fun _ => id) (fun b s hs => ⟨hs.1 b rfl, hs.2⟩) fun e s hs => hs.2

lemma triple_startInstance (ctx : ℕ) (b : Box) : Engine ready (At h built)
    (Bridge.startInstance ctx b) (fun _ => At h built) fun _ => At h built := by
  refine Triple.bind (Q := fun _ => At h built) ?_ fun _ => ?_
  · exact Triple.bind triple_keep fun r => triple_ofExcept (P := fun _ => At h built)
  · refine Triple.bind (Q := fun _ => At h built) triple_keep
      fun e => ?_
    cases e with
    | none => exact triple_pure _ fun _ => id
    | some e => exact triple_throw _ fun _ => id

lemma triple_closeInstance (b : Option Box) (cancel : Option ℕ) :
    Engine ready (At h built) (Bridge.closeInstance b cancel)
      (fun _ => At h built) fun _ => At h built := by
  refine Triple.bind (Q := fun _ => At h built) ?_ fun _ => ?_
  · cases cancel with
    | none => exact triple_pure _ fun _ => id
    | some ctx => exact triple_keep
  · cases b with
    | none => exact triple_pure _ fun _ => id
    | some b =>
      exact Triple.bind triple_keep fun r => triple_ofExcept (P := fun _ => At h built)

end

/-! ### Start, reload and stop -/

/-- The engine was built from the file. -/
def FromFile (h : Option ℕ) (ready : Option Bytes) (s : State) : Prop :=
  ∃ c, ready = some c ∧ At h (some c) s

lemma triple_orLeave {α : Type} {p : Bridge.Fn String α} {text : String → String}
    {P E : State → Prop} {Q : α → State → Prop}
    (hp : Engine ready P p Q fun _ => E) :
    Engine ready P (Bridge.orLeave p text) Q fun _ => E :=
  Triple.handle hp fun _ => triple_throw _ fun _ => id

lemma triple_startLocked (ctx : ℕ) :
    Engine ready (At h none) (Bridge.startLocked ctx)
      (fun _ => FromFile h ready) fun _ => At h none := by
  refine (triple_orLeave triple_readRuntimeConfig).bind fun content => ?_
  refine Triple.assume fun hready => ?_
  refine (triple_orLeave (triple_createInstance ctx content)).bind fun b => ?_
  refine Triple.assume fun hb => ?_
  refine (Triple.result (R := fun _ => At h none) (triple_startInstance ctx b)).bind fun r => ?_
  cases r with
  | error e =>
    exact (Triple.result (R := fun _ => At h none) (triple_closeInstance _ _)).bind fun _ =>
      triple_throw _ fun _ => id
  | ok a =>
    refine Triple.post (triple_store hb.symm) (fun _ s hs => ⟨content, hready, ?_⟩)
    simpa [hb] using hs

/-- Either the engine is what it was, or there is none. -/
def Kept (h : Option ℕ) (built : Option Bytes) (s : State) : Prop := At h built s ∨ At h none s

lemma triple_restorePrevious {ε : Type} {E : ε → State → Prop} (ctx : ℕ) {content : Bytes}
    (why : String) (hcontent : content = built.getD []) :
    Engine ready (At h none) (Bridge.restorePrevious ctx content why)
      (fun _ => Kept h built) E := by
  refine Triple.bind (Q := fun _ => At h none) triple_keep fun e => ?_
  cases e with
  | some e => exact triple_pure _ fun _ => .inr
  | none =>
    refine Triple.ite (fun _ => triple_pure _ fun _ => .inr) fun hne => ?_
    refine (Triple.result (R := fun r s => (∀ b, r = .ok b → b.config = content) ∧
      At h none s) (Triple.mono (triple_createInstance ctx content) (fun _ => id) ?_ ?_)).bind fun r => ?_
    · rintro b s ⟨hb, hs⟩
      refine ⟨fun b' hb' => ?_, hs⟩
      cases hb'
      exact hb
    · exact fun e s hs => ⟨fun b hb => (nomatch hb), hs⟩
    cases r with
    | error e => exact triple_pure _ fun s hs => .inr hs.2
    | ok b =>
      refine Triple.assume fun hb => ?_
      refine (Triple.result (R := fun _ => At h none) (triple_startInstance ctx b)).bind fun r => ?_
      cases r with
      | error e =>
        exact (Triple.result (R := fun _ => At h none) (triple_closeInstance _ _)).bind fun _ =>
          triple_pure _ fun _ => .inr
      | ok a =>
        refine (triple_store (hb b rfl).symm).bind fun _ => triple_pure _ fun s hs => .inl ?_
        cases built with
        | none => simp [hcontent] at hne
        | some c => simpa [hb b rfl, hcontent] using hs

lemma triple_undo (ctx : ℕ) (replacement : Box) {content : Bytes} (why : String)
    (hcontent : content = built.getD []) {Q : Unit → State → Prop} :
    Engine ready (At h none) (Bridge.undo ctx replacement content why) Q
      fun _ => Kept h built := by
  refine (Triple.result (R := fun _ => At h none) (triple_closeInstance _ _)).bind fun _ => ?_
  refine (triple_restorePrevious ctx why hcontent).bind fun e => ?_
  refine Triple.bind (Q := fun _ => Kept h built) (triple_alone ?_) fun r => triple_throw _ fun _ => id
  rintro s r s' hs ⟨x, -, hx⟩
  cases hx
  exact hs

lemma triple_reloadLocked (ctx : ℕ) :
    Engine ready (At h built) (Bridge.reloadLocked ctx)
      (fun _ => FromFile h ready) fun _ => Kept h built := by
  refine (Triple.handle triple_readRuntimeConfig fun e =>
    triple_throw _ fun _ => .inl).bind fun content => ?_
  refine Triple.assume fun hready => ?_
  refine (Triple.handle (triple_createInstance ctx content) fun e =>
    triple_throw _ fun _ => .inl).bind fun replacement => ?_
  refine Triple.assume fun hb => ?_
  refine triple_load.bind fun previous => ?_
  refine Triple.assume fun hconfig => ?_
  refine (triple_store rfl).bind fun _ => ?_
  refine (Triple.result (R := fun _ => At h none) (triple_closeInstance _ _)).bind fun r => ?_
  cases r with
  | error e => exact triple_undo ctx replacement _ hconfig.2
  | ok a =>
    refine (Triple.result (R := fun _ => At h none)
      (triple_startInstance ctx replacement)).bind fun r => ?_
    cases r with
    | error e => exact triple_undo ctx replacement _ hconfig.2
    | ok a =>
      refine Triple.post (triple_store hb.symm) (fun _ s hs => ⟨content, hready, ?_⟩)
      simpa [hb] using hs

lemma triple_startup {generation : UInt64} {p : ℕ → Bridge.Fn (Bool × String) Unit}
    {P Q E : State → Prop} (hPE : ∀ s, P s → E s)
    (hP : ∀ s s', Same s s' → P s → P s') (hQ : ∀ s s', Same s s' → Q s → Q s')
    (hE : ∀ s s', Same s s' → E s → E s')
    (hp : ∀ ctx, Engine ready P (p ctx) (fun _ => Q) fun _ => E) :
    Engine ready P (Bridge.startup generation p) (fun _ => Q) fun _ => E := by
  refine (triple_calm hP).bind fun r => ?_
  cases r with
  | none => exact triple_throw _ hPE
  | some ctx =>
    refine (Triple.result (R := fun r => if r.isOk then Q else E) (hp ctx)).bind fun r => ?_
    rcases r with ⟨keep, e⟩ | a
    · refine (triple_calm hE).bind fun _ => ?_
      cases keep with
      | true => exact triple_throw _ fun _ => id
      | false =>
        exact (triple_calm hE).bind fun _ => triple_throw _ fun _ => id
    · exact (triple_calm hQ).bind fun _ => triple_pure _ fun _ => id

/-- Assertions that only look at `runtimeState`, under any holder of the lock. -/
def Lockless (P : Option ℕ → State → Prop) : Prop :=
  ∀ h h' s s', s'.holder = h' → s'.runtime = s.runtime → P h s → P h' s'

lemma lockless_at (built : Option Bytes) : Lockless fun h => At h built :=
  fun _ _ _ _ hholder hruntime hs => ⟨hholder, by rw [hruntime]; exact hs.box,
    by rw [hruntime]; exact hs.config⟩

lemma lockless_kept (built : Option Bytes) : Lockless fun h => Kept h built := by
  intro h h' s s' hholder hruntime hs
  exact hs.imp (lockless_at built h h' s s' hholder hruntime) (lockless_at none h h' s s' hholder hruntime)

lemma lockless_fromFile (ready : Option Bytes) : Lockless fun h => FromFile h ready := by
  rintro h h' s s' hholder hruntime ⟨c, hc, hs⟩
  exact ⟨c, hc, lockless_at (some c) h h' s s' hholder hruntime hs⟩

lemma triple_locked {p : Bridge.Fn String Unit} {P Q E : Option ℕ → State → Prop}
    (hP : Lockless P) (hQ : Lockless Q) (hE : Lockless E)
    (hp : Engine ready (P (some 0)) p (fun _ => Q (some 0)) fun _ => E (some 0)) :
    Engine ready (P none) (Bridge.locked p) (fun _ => Q none) fun _ => E none := by
  refine Triple.bind (Q := fun _ => P (some 0)) (triple_alone ?_) fun _ => ?_
  · rintro s r s' hs ⟨x, -, hx⟩
    simp only [Bridge.act] at hx
    split at hx <;> cases hx
    exact hP _ _ s _ rfl rfl hs
  have hunlock : ∀ {R : Option ℕ → State → Prop} {ε : Type} {D : ε → State → Prop}, Lockless R →
      Engine ready (R (some 0)) (Prog.perform .unlock : Bridge.Fn ε _)
        (fun _ => R none) D := by
    intro R ε D hR
    refine triple_alone ?_
    rintro s r s' hs ⟨x, -, hx⟩
    cases hx
    exact hR _ _ s _ rfl rfl hs
  refine (Triple.result (R := fun r => if r.isOk then Q (some 0) else E (some 0)) hp).bind fun r => ?_
  cases r with
  | error e => exact (hunlock hE).bind fun _ => triple_throw _ fun _ => id
  | ok a => exact (hunlock hQ).bind fun _ => triple_pure _ fun _ => id

lemma Lockless.same {P : Option ℕ → State → Prop} (hP : Lockless P)
    (hholder : ∀ s, P h s → s.holder = h) (s s' : State)
    (hsame : Same s s') (hs : P h s) : P h s' :=
  hP h h s s' (hsame.1.trans (hholder s hs)) hsame.2 hs

lemma holder_kept (s : State) (hs : Kept h built s) : s.holder = h := by
  rcases hs with hs | hs
  · exact hs.holder
  · exact hs.holder

lemma holder_fromFile (s : State) (hs : FromFile h ready s) : s.holder = h := by
  obtain ⟨c, -, hs⟩ := hs
  exact hs.holder

/-- `startRuntime` leaves an engine of the file, or what there was. -/
lemma triple_startRuntime : Engine ready (At none built) Bridge.startRuntime
    (fun _ => FromFile none ready) fun _ => At none built := by
  refine Triple.bind (Q := fun _ => At none built) triple_keep
    fun g => ?_
  refine triple_locked (P := fun h => At h built) (Q := fun h => FromFile h ready)
    (E := fun h => At h built) (lockless_at _) (lockless_fromFile _) (lockless_at _) ?_
  refine triple_load.bind fun r => ?_
  refine Triple.assume fun hr => ?_
  refine Triple.ite (fun _ => triple_throw _ fun _ => id) fun hnone => ?_
  have hbuilt : built = none := by
    rw [← hr.1]
    simpa using hnone
  subst hbuilt
  exact triple_startup (fun _ => id) ((lockless_at _).same fun _ => At.holder)
    ((lockless_fromFile _).same holder_fromFile) ((lockless_at _).same fun _ => At.holder)
    triple_startLocked

/-- `reloadRuntime` leaves an engine of the file, the one there was or one built like it, or none. -/
lemma triple_reloadRuntime : Engine ready (At none built) Bridge.reloadRuntime
    (fun _ => FromFile none ready) fun _ => Kept none built := by
  refine Triple.bind (Q := fun _ => At none built) triple_keep
    fun g => ?_
  refine triple_locked (P := fun h => At h built) (Q := fun h => FromFile h ready)
    (E := fun h => Kept h built) (lockless_at _) (lockless_fromFile _) (lockless_kept _) ?_
  exact triple_startup (fun _ => .inl) ((lockless_at _).same fun _ => At.holder)
    ((lockless_fromFile _).same holder_fromFile) ((lockless_kept _).same holder_kept)
    triple_reloadLocked

lemma triple_stopRuntime : Engine ready (At none built) Bridge.stopRuntime
    (fun _ => At none none) fun _ => At none none := by
  refine Triple.bind (Q := fun _ => At none built) triple_keep
    fun _ => ?_
  refine triple_locked (P := fun h => At h built) (Q := fun h => At h none)
    (E := fun h => At h none) (lockless_at _) (lockless_at _) (lockless_at _) ?_
  refine triple_load.bind fun r => ?_
  refine Triple.assume fun _ => ?_
  exact (triple_store rfl).bind fun _ => triple_closeInstance _ _

end SbEasy.Supervisor

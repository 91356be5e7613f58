import SbEasy.BridgeInv

/-!
Calls of the bridge that run at the same time: what each operation is asked for under, and what it
leaves to the call that asks for it.
-/

namespace SbEasy.Bridge

open Prog (Triple triple_pure triple_throw triple_perform)

variable {t t' : ℕ} {s s' : State}

/-! ### What one call does, the others rely on -/

lemma store_frame (s : State) (t : ℕ) (r : Runtime) : (s.store t r).holder = s.holder ∧
    (s.store t r).calls = s.calls ∧ (s.store t r).readers = s.readers ∧
    (s.store t r).readAt = s.readAt ∧ (s.store t r).marks = s.marks := by
  unfold State.store State.takeOut
  split <;> split <;> exact ⟨rfl, rfl, rfl, rfl, rfl⟩

lemma rely_locked (hne : t ≠ t') (hholder : s.holder = some t') (hinv : Inv s → Inv s')
    (hfree : s'.holder = some t' ∨ s'.holder = none) (hcalls : s.calls ≤ s'.calls)
    (hreader : t ∈ s'.readers ↔ t ∈ s.readers) (hreadAt : s'.readAt t = s.readAt t)
    (hmarks : s'.marks t = s.marks t) : Rely t s s' := by
  have hother : ¬ s.holder = some t := fun h => hne (Option.some.inj (h.symm.trans hholder))
  have hother' : ¬ s'.holder = some t := by
    rcases hfree with h | h
    · exact fun heq => hne (Option.some.inj (heq.symm.trans h))
    · exact fun heq => nomatch heq.symm.trans h
  exact ⟨hinv, iff_of_false hother' hother, fun h => absurd h hother, fun h => absurd h hother,
    fun h => absurd h hother, hcalls, hreader, hreadAt, hmarks⟩

lemma act_rely {x : Choice} {o : Op} {r : Reply o} (hne : t ≠ t') (h : Inv s) (hguard : Guard t' s o)
    (hact : act t' x s o = some (r, s')) : Rely t s s' := by
  have hinv : Inv s → Inv s' := fun _ => act_inv h hguard hact
  cases o with
  | generation =>
    cases hact
    exact ⟨hinv, .rfl, fun _ => rfl, fun _ => rfl, fun _ => rfl, le_refl _,
      ⟨fun hr => (List.mem_cons.mp hr).resolve_left hne, List.mem_cons_of_mem _⟩,
      Function.update_of_ne hne _ _, rfl⟩
  | lock =>
    simp only [act] at hact
    split at hact
    · cases hact
    · rename_i hfree
      cases hact
      have hnone : s.holder = none := by simpa using hfree
      refine ⟨hinv, iff_of_false ?_ ?_, fun _ => rfl, fun _ => rfl, fun _ => rfl, le_refl _, .rfl, rfl,
        rfl⟩
      · exact fun heq => hne (Option.some.inj heq).symm
      · exact fun heq => by simp [hnone] at heq
  | unlock =>
    cases hact
    exact rely_locked hne hguard.1 hinv (.inr rfl) (le_refl _) .rfl rfl rfl
  | cancelStartup =>
    cases hact
    exact ⟨hinv, .rfl, fun _ => rfl, fun _ => rfl, fun _ => rfl, le_refl _, .rfl, rfl,
      Function.update_of_ne hne _ _⟩
  | create ctx content =>
    simp only [act] at hact
    split at hact <;> cases hact
    · exact Rely.refl t _
    · exact Rely.refl t _
    · exact rely_locked hne hguard hinv (.inl hguard) (le_refl _) .rfl rfl rfl
  | close b =>
    cases hact
    exact rely_locked hne hguard.1 hinv (.inl hguard.1) (le_refl _) .rfl rfl rfl
  | store r =>
    cases hact
    obtain ⟨hholder, hcalls, hreaders, hreadAt, hmarks⟩ := store_frame s t' r
    exact rely_locked hne hguard.1 hinv (.inl (hholder.trans hguard.1)) hcalls.ge (by rw [hreaders])
      (by rw [hreadAt]) (by rw [hmarks])
  | begin generation =>
    simp only [act] at hact
    split at hact <;> cases hact
    · exact Rely.refl t _
    · exact ⟨hinv, .rfl, fun _ => rfl, fun _ => rfl, fun _ => rfl, le_refl _, .rfl, rfl, rfl⟩
  | finish | cancel =>
    cases hact
    exact ⟨hinv, .rfl, fun _ => rfl, fun _ => rfl, fun _ => rfl, le_refl _, .rfl, rfl, rfl⟩
  | err | read | start | load =>
    cases hact
    exact Rely.refl t _

/-- Since a call has read its generation, it has been raised less often than it has values. -/
def timely (t : ℕ) (s : State) : Op → Bool
  | .begin _ => decide (s.cancels - s.readAt t < 2 ^ 64)
  | _ => true

/-- An operation at a time when the generation tells what it is meant to tell. -/
def timelyAct (t : ℕ) (x : Choice) (s : State) (o : Op) : Option (Reply o × State) :=
  if timely t s o then act t x s o else none

lemma act_of_timelyAct {x : Choice} {o : Op} {r : Reply o}
    (h : timelyAct t x s o = some (r, s')) : timely t s o = true ∧ act t x s o = some (r, s') := by
  unfold timelyAct at h
  split at h
  · exact ⟨‹_›, h⟩
  · cases h

/-- All calls, with what each relies on. -/
def team : Prog.Team State Op Reply where
  act t o s r s' := ∃ x, timelyAct t x s o = some (r, s')
  rely := Rely
  inv := Inv
  guard t o s := Guard t s o
  rely_refl := Rely.refl
  rely_trans _ _ _ _ := Rely.trans
  inv_rely _ _ _ hi hr := hr.inv hi
  kept := by
    rintro i j o s r s' hne hi hguard ⟨x, hx⟩
    exact act_rely hne hi hguard (act_of_timelyAct hx).2

/-! ### Under the lock -/

/-- What a call knows while it holds the lock. -/
structure Local where
  hand : List ℕ := []
  /-- There is no box in `runtimeState`. -/
  empty : Bool := false
  /-- The generation has been compared. -/
  begun : Bool := false
  stopping : Bool := false

structure Inside (t : ℕ) (l : Local) (s : State) : Prop where
  inv : Inv s
  holder : s.holder = some t
  hand : s.hand = l.hand
  empty : l.empty = true → s.runtime.box = none
  begun : l.begun = true → t ∉ s.barred
  marks : l.stopping = false → s.marks t = []

variable {l : Local}

lemma Inside.rely (h : Inside t l s) (hr : Rely t s s') : Inside t l s' where
  inv := hr.inv h.inv
  holder := hr.holder.mpr h.holder
  hand := (hr.hand h.holder).trans h.hand
  empty he := by
    rw [hr.runtime h.holder]
    exact h.empty he
  begun hb := by
    rw [hr.barred h.holder]
    exact h.begun hb
  marks hs := hr.marks.trans (h.marks hs)

lemma stable_inside : (team.setting t).Stable (Inside t l) := fun _ _ => Inside.rely

/-- The operations that change nothing a call knows under the lock. -/
def calm : Op → Bool
  | .finish | .cancel _ | .err _ | .read | .start _ => true
  | _ => false

lemma guard_of_calm {o : Op} (h : calm o = true) : Guard t s o := by
  cases o with
  | finish | cancel | err | read | start => trivial
  | generation | lock | unlock | cancelStartup | create | close | store | begin | load => cases h

lemma Inside.calm {o : Op} {x : Choice} {r : Reply o} (hs : Inside t l s) (h : calm o = true)
    (hact : act t x s o = some (r, s')) : Inside t l s' := by
  have hinv := act_inv hs.inv (guard_of_calm h) hact
  cases o with
  | finish | cancel | err | read | start =>
    cases hact
    exact ⟨hinv, hs.holder, hs.hand, hs.empty, hs.begun, hs.marks⟩
  | generation | lock | unlock | cancelStartup | create | close | store | begin | load => cases h

section

variable {ε : Type} {E : ε → State → Prop}

lemma triple_calm {o : Op} (h : calm o = true := by rfl) :
    Triple (team.setting t) (Inside t l) (Prog.perform o) (fun _ => Inside t l) E := by
  refine triple_perform stable_inside (fun s hs => ⟨hs.inv, guard_of_calm h⟩) ?_
  rintro s r s' hs ⟨x, hx⟩
  exact hs.calm h (act_of_timelyAct hx).2

variable {P : State → Prop} {b : Box} {rest : List ℕ} {r : Runtime} {generation : UInt64}

lemma triple_loadKeep (hP : (team.setting t).Stable P) (hi : ∀ s, P s → Inv s) :
    Triple (team.setting t) P load (fun r s => P s ∧ s.runtime = r) E := by
  refine triple_perform hP (fun s hs => ⟨hi s hs, trivial⟩) ?_
  rintro s r s' hs ⟨x, hx⟩
  cases (act_of_timelyAct hx).2
  exact ⟨hs, rfl⟩

lemma triple_load : Triple (team.setting t) (Inside t l) load
    (fun r s => Inside t l s ∧ s.runtime = r) E :=
  triple_loadKeep stable_inside fun _ hs => hs.inv

lemma triple_ofExcept {α : Type} {Q : α → State → Prop}
    {D : String → State → Prop} {r : Except String α} (hok : ∀ a, r = .ok a → ∀ s, P s → Q a s)
    (herror : ∀ e, r = .error e → ∀ s, P s → D e s) :
    Triple (team.setting t) P (Prog.ofExcept r : Fn String α) Q D := by
  cases r with
  | error e => exact triple_throw _ (herror e rfl)
  | ok a => exact triple_pure _ (hok a rfl)

lemma triple_readRuntimeConfig : Triple (team.setting t) (Inside t l) readRuntimeConfig
    (fun _ => Inside t l) fun _ => Inside t l :=
  Triple.bind triple_calm fun r => triple_ofExcept (fun _ _ _ => id) fun _ _ _ => id

lemma triple_startInstance (ctx : ℕ) (b : Box) : Triple (team.setting t) (Inside t l)
    (startInstance ctx b) (fun _ => Inside t l) fun _ => Inside t l := by
  refine (Triple.bind triple_calm fun r => triple_ofExcept (fun _ _ _ => id) fun _ _ _ => id).bind fun _ =>
    ?_
  refine Triple.bind triple_calm fun e => ?_
  cases e with
  | none => exact triple_pure _ fun _ => id
  | some e => exact triple_throw _ fun _ => id

lemma triple_cancelWith (cancel : Option ℕ) : Triple (team.setting t) (Inside t l)
    (cancelWith cancel) (fun _ => Inside t l) E := by
  cases cancel with
  | none => exact triple_pure _ fun _ => id
  | some ctx => exact triple_calm

lemma triple_createInstance (ctx : ℕ) (content : Bytes) : Triple (team.setting t) (Inside t l)
    (createInstanceInContext ctx content)
    (fun b => Inside t { l with hand := b.id :: l.hand }) fun _ => Inside t l := by
  refine Triple.bind (Q := fun r s => (∃ e, r = .error e ∧ Inside t l s) ∨
      ∃ b, r = .ok b ∧ Inside t { l with hand := b.id :: l.hand } s)
    (triple_perform stable_inside (fun s hs => ⟨hs.inv, hs.holder⟩) ?_) fun r s hs => ?_
  · rintro s r s' hs ⟨x, hx⟩
    obtain ⟨-, hstep⟩ := act_of_timelyAct hx
    have hinv := act_inv (o := .create ctx content) hs.inv hs.holder hstep
    simp only [act] at hstep
    split at hstep <;> cases hstep
    · exact .inl ⟨_, rfl, hs⟩
    · exact .inl ⟨_, rfl, hs⟩
    · exact .inr ⟨_, rfl, hinv, hs.holder, congrArg _ hs.hand, hs.empty, hs.begun, hs.marks⟩
  · rcases hs with ⟨e, rfl, hs⟩ | ⟨b, rfl, hs⟩
    · exact hs
    · exact hs

/-- A box that is closed leaves the hands of the call, whatever comes back. -/
lemma triple_close (hhand : l.hand = b.id :: rest) :
    Triple (team.setting t) (Inside t l) (Prog.perform (.close b) >>= Prog.ofExcept : Fn String Unit)
      (fun _ => Inside t { l with hand := rest }) fun _ => Inside t { l with hand := rest } := by
  have hguard : ∀ s, Inside t l s → Guard t s (.close b) := fun s hs =>
    ⟨hs.holder, by rw [hs.hand, hhand]; simp⟩
  refine Triple.bind (Q := fun _ => Inside t { l with hand := rest })
    (triple_perform stable_inside (fun s hs => ⟨hs.inv, hguard s hs⟩) ?_)
    fun r => triple_ofExcept (fun _ _ _ => id) fun _ _ _ => id
  rintro s r s' hs ⟨x, hx⟩
  obtain ⟨-, hstep⟩ := act_of_timelyAct hx
  have hinv := act_inv hs.inv (hguard s hs) hstep
  cases hstep
  refine ⟨hinv, hs.holder, ?_, hs.empty, hs.begun, hs.marks⟩
  show s.hand.erase b.id = rest
  rw [hs.hand, hhand, List.erase_cons_head]

lemma triple_closeInstance (hhand : l.hand = b.id :: rest) (cancel : Option ℕ) :
    Triple (team.setting t) (Inside t l) (closeInstance (some b) cancel)
      (fun _ => Inside t { l with hand := rest }) fun _ => Inside t { l with hand := rest } :=
  (triple_cancelWith cancel).bind fun _ => triple_close hhand

/-- What there was in `runtimeState` is in the hands of the call. -/
lemma triple_drop : Triple (team.setting t)
    (fun s => Inside t l s ∧ s.runtime = r) (Prog.perform (.store {}))
    (fun _ => Inside t { l with hand := r.box.toList.map Box.id ++ l.hand, empty := true }) E := by
  have hguard : ∀ s, Inside t l s ∧ s.runtime = r → Guard t s (.store {}) := fun s hs =>
    ⟨hs.1.holder, fun b hb => nomatch hb⟩
  refine triple_perform ?_ (fun s hs => ⟨hs.1.inv, hguard s hs⟩) ?_
  · exact fun s s' hs hr => ⟨hs.1.rely hr, (hr.runtime hs.1.holder).trans hs.2⟩
  · rintro s _ s' hs ⟨x, hx⟩
    obtain ⟨-, hstep⟩ := act_of_timelyAct hx
    have hinv := act_inv hs.1.inv (hguard s hs) hstep
    cases hstep
    obtain ⟨hs, rfl⟩ := hs
    refine ⟨hinv, (store_frame s t {}).1.trans hs.holder, ?_, fun _ => rfl, fun hb => ?_, fun hst => ?_⟩
    · unfold State.store State.takeOut
      cases s.runtime.box with
      | none => exact hs.hand
      | some b => exact congrArg _ hs.hand
    · have hbarred : (s.store t {}).barred = s.barred := by
        unfold State.store State.takeOut
        split <;> split <;> rfl
      rw [hbarred]
      exact hs.begun hb
    · rw [(store_frame s t {}).2.2.2.2]
      exact hs.marks hst

/-- A box out of the hands of the call is the one of `runtimeState`. -/
lemma triple_publish (hr : r.box = some b)
    (hhand : l.hand = b.id :: rest) (hempty : l.empty = true) (hbegun : l.begun = true) :
    Triple (team.setting t) (Inside t l) (Prog.perform (.store r))
      (fun _ => Inside t { l with hand := rest, empty := false }) E := by
  have hguard : ∀ s, Inside t l s → Guard t s (.store r) := by
    intro s hs
    refine ⟨hs.holder, fun b' hb' => ?_⟩
    cases hr.symm.trans hb'
    exact ⟨hs.empty hempty, by rw [hs.hand, hhand]; simp, hs.begun hbegun⟩
  refine triple_perform stable_inside (fun s hs => ⟨hs.inv, hguard s hs⟩) ?_
  rintro s _ s' hs ⟨x, hx⟩
  obtain ⟨-, hstep⟩ := act_of_timelyAct hx
  have hinv := act_inv hs.inv (hguard s hs) hstep
  cases hstep
  have hstore : s.store t r = { s with
      runtime := r, publisher := some t, hand := s.hand.erase b.id } := by
    unfold State.store
    rw [hr, takeOut_of_none (hs.empty hempty)]
  rw [hstore] at hinv ⊢
  refine ⟨hinv, hs.holder, ?_, fun he => (nomatch he), hs.begun, hs.marks⟩
  show s.hand.erase b.id = rest
  rw [hs.hand, hhand, List.erase_cons_head]

/-- What a call knows about its generation. -/
def Read (t : ℕ) (generation : UInt64) (s : State) : Prop :=
  t ∈ s.readers ∧ generation = UInt64.ofNat (s.readAt t)

lemma Read.rely (h : Read t generation s) (hr : Rely t s s') : Read t generation s' :=
  ⟨hr.reader.mpr h.1, by rw [hr.readAt]; exact h.2⟩

lemma Inv.readAt_eq (h : Inv s) (hread : Read t s.generation s)
    (htimely : s.cancels - s.readAt t < 2 ^ 64) : s.readAt t = s.cancels := by
  have hle := (h.readers t hread.1).2
  have hmod : s.cancels % 2 ^ 64 = s.readAt t % 2 ^ 64 := by
    have := congrArg UInt64.toNat (h.generation.symm.trans hread.2)
    simpa only [UInt64.toNat_ofNat'] using this
  omega

/-- The generation of a call that goes on has not been raised, so no stop has come after it. -/
lemma triple_beginStartup : Triple (team.setting t)
    (fun s => Inside t l s ∧ Read t generation s) (beginStartup generation)
    (fun r => Inside t { l with begun := l.begun || r.isSome }) E := by
  refine triple_perform (fun s s' hs hr => ⟨hs.1.rely hr, hs.2.rely hr⟩)
    (fun s hs => ⟨hs.1.inv, trivial⟩) ?_
  rintro s r s' ⟨hs, hread⟩ ⟨x, hx⟩
  obtain ⟨htimely, hstep⟩ := act_of_timelyAct hx
  have hinv := act_inv (o := .begin generation) hs.inv trivial hstep
  simp only [act] at hstep
  split at hstep
  · cases hstep
    exact ⟨hs.inv, hs.holder, hs.hand, hs.empty, fun hb => hs.begun (by simpa using hb), hs.marks⟩
  · rename_i heq
    rw [not_not] at heq
    subst heq
    cases hstep
    refine ⟨hinv, hs.holder, hs.hand, hs.empty, fun _ hbarred => ?_, hs.marks⟩
    have heq := hs.inv.readAt_eq hread (of_decide_eq_true htimely)
    have hlt := (hs.inv.barred t hbarred).2
    omega

end

end SbEasy.Bridge

import SbEasy.BridgeRules

/-!
A stop wins over the starts before it, and no box is left running, however the calls of the bridge
are interleaved.
-/

namespace SbEasy.Bridge

open Prog (Triple triple_pure triple_throw triple_perform)

variable {t : ℕ} {s s' : State}

/-! ### The functions under the lock -/

/-- Holding the lock, with nothing in hand. -/
def Idle (t : ℕ) (l : Local) : State → Prop := Inside t { l with hand := [], empty := false }

lemma Inside.idle {l : Local} (h : Inside t l s) (hhand : l.hand = []) : Idle t l s :=
  ⟨h.inv, h.holder, h.hand.trans hhand, fun he => (nomatch he), h.begun, h.marks⟩

lemma triple_startLocked (ctx : ℕ) :
    Triple (team.setting t) (Inside t { empty := true, begun := true }) (startLocked ctx)
      (fun _ => Idle t { begun := true }) fun _ => Idle t { begun := true } := by
  refine Triple.bind (Triple.handle triple_readRuntimeConfig fun e =>
    triple_throw _ fun s hs => hs.idle rfl) fun content => ?_
  refine Triple.bind (Triple.handle (triple_createInstance ctx content) fun e =>
    triple_throw _ fun s hs => hs.idle rfl) fun b => ?_
  refine (Triple.result (R := fun _ => Inside t { hand := [b.id], empty := true, begun := true })
    (triple_startInstance ctx b)).bind fun r => ?_
  cases r with
  | error e =>
    refine (Triple.result (R := fun _ => Inside t { empty := true, begun := true })
      (triple_closeInstance rfl none)).bind fun _ => ?_
    exact triple_throw _ fun s hs => hs.idle rfl
  | ok a => exact triple_publish rfl rfl rfl rfl

variable {ε : Type} {l : Local} {stopping : Bool}

variable {E : ε → State → Prop}

lemma triple_restorePrevious (ctx : ℕ) (content : Bytes) (why : String) :
    Triple (team.setting t) (Inside t { empty := true, begun := true })
      (restorePrevious ctx content why) (fun _ => Idle t { begun := true }) E := by
  refine Triple.bind triple_calm fun e => ?_
  cases e with
  | some e => exact triple_pure _ fun s hs => hs.idle rfl
  | none =>
    refine Triple.ite (fun _ => triple_pure _ fun s hs => hs.idle rfl) fun _ => ?_
    refine (Triple.result (R := fun r => Inside t
        { hand := (r.toOption.map Box.id).toList, empty := true, begun := true })
      (triple_createInstance ctx content)).bind fun r => ?_
    cases r with
    | error e => exact triple_pure _ fun s hs => hs.idle rfl
    | ok b =>
      refine (Triple.result (R := fun _ => Inside t
        { hand := [b.id], empty := true, begun := true }) (triple_startInstance ctx b)).bind fun r => ?_
      cases r with
      | error e =>
        refine (Triple.result (R := fun _ => Inside t { empty := true, begun := true })
          (triple_closeInstance rfl none)).bind fun _ => ?_
        exact triple_pure _ fun s hs => hs.idle rfl
      | ok a => exact (triple_publish rfl rfl rfl rfl).bind fun _ => triple_pure _ fun _ => id

lemma triple_undo (ctx : ℕ) (replacement : Box) (content : Bytes) (why : String) :
    Triple (team.setting t) (Inside t { hand := [replacement.id], empty := true, begun := true })
      (undo ctx replacement content why) (fun _ => Idle t { begun := true })
      fun _ => Idle t { begun := true } := by
  refine (Triple.result (R := fun _ => Inside t { empty := true, begun := true })
    (triple_closeInstance rfl none)).bind fun _ => ?_
  refine (triple_restorePrevious ctx content why).bind fun e => ?_
  exact triple_load.bind fun r => triple_throw _ fun s hs => hs.1

lemma triple_closePrevious {previous : Option Box} {rest : List ℕ} (cancel : Option ℕ)
    (hhand : l.hand = previous.toList.map Box.id ++ rest) :
    Triple (team.setting t) (Inside t l) (closeInstance previous cancel)
      (fun _ => Inside t { l with hand := rest }) fun _ => Inside t { l with hand := rest } := by
  cases previous with
  | some b => exact triple_closeInstance hhand cancel
  | none =>
    refine (triple_cancelWith cancel).bind fun _ => triple_pure _ fun s hs => ?_
    exact ⟨hs.inv, hs.holder, hs.hand.trans hhand, hs.empty, hs.begun, hs.marks⟩

lemma triple_reloadLocked (ctx : ℕ) :
    Triple (team.setting t) (Inside t { begun := true }) (reloadLocked ctx)
      (fun _ => Idle t { begun := true }) fun _ => Idle t { begun := true } := by
  refine Triple.bind (Triple.handle triple_readRuntimeConfig fun e =>
    triple_throw _ fun s hs => hs.idle rfl) fun content => ?_
  refine Triple.bind (Triple.handle (triple_createInstance ctx content) fun e =>
    triple_throw _ fun s hs => hs.idle rfl) fun replacement => ?_
  refine triple_load.bind fun previous => ?_
  refine triple_drop.bind fun _ => ?_
  refine (Triple.result (R := fun _ => Inside t
      { hand := [replacement.id], empty := true, begun := true })
    (triple_closePrevious previous.cancel rfl)).bind fun r => ?_
  cases r with
  | error e => exact triple_undo ctx replacement _ _
  | ok a =>
    refine (Triple.result (R := fun _ => Inside t
        { hand := [replacement.id], empty := true, begun := true })
      (triple_startInstance ctx replacement)).bind fun r => ?_
    cases r with
    | error e => exact triple_undo ctx replacement _ _
    | ok a => exact triple_publish rfl rfl rfl rfl

lemma triple_startup {generation : UInt64} {empty : Bool} {p : ℕ → Fn (Bool × String) Unit}
    (hp : ∀ ctx, Triple (team.setting t) (Inside t { empty, begun := true }) (p ctx)
      (fun _ => Idle t { begun := true }) fun _ => Idle t { begun := true }) :
    Triple (team.setting t) (fun s => Inside t { empty } s ∧ Read t generation s)
      (startup generation p) (fun _ => Idle t {}) fun _ => Idle t {} := by
  have hforget : ∀ s, Idle t { begun := true } s → Idle t {} s := fun s hs =>
    ⟨hs.inv, hs.holder, hs.hand, fun he => (nomatch he), fun hb => (nomatch hb), hs.marks⟩
  refine triple_beginStartup.bind fun r => ?_
  cases r with
  | none => exact triple_throw _ fun s hs => hs.idle rfl
  | some ctx =>
    refine (Triple.result (R := fun _ => Idle t { begun := true }) (hp ctx)).bind fun r => ?_
    refine Triple.bind triple_calm fun _ => ?_
    rcases r with ⟨keep, e⟩ | a
    · cases keep with
      | true => exact triple_throw _ hforget
      | false => exact Triple.bind triple_calm fun _ => triple_throw _ hforget
    · exact triple_pure _ hforget

/-! ### The calls -/

/-- What a call knows while it does not hold the lock. -/
structure Waiting (t : ℕ) (stopping : Bool) (s : State) : Prop where
  inv : Inv s
  marks : stopping = false → s.marks t = []

lemma Waiting.rely (h : Waiting t stopping s) (hr : Rely t s s') : Waiting t stopping s' :=
  ⟨hr.inv h.inv, fun hs => hr.marks.trans (h.marks hs)⟩

lemma Inv.hand_eq_nil (h : Inv s) (hfree : s.holder = none) : s.hand = [] := by
  refine List.eq_nil_iff_forall_not_mem.mpr fun i hi => ?_
  obtain ⟨t, ht, -⟩ := h.hands i hi
  rw [hfree] at ht
  cases ht

lemma triple_locked {R : State → Prop} {p : Fn String Unit}
    (hR : (team.setting t).Stable R) (hlock : ∀ s, R s → R { s with holder := some t })
    (hhand : l.hand = []) (hempty : l.stopping = true → l.empty = true)
    (hp : Triple (team.setting t) (fun s => Inside t { stopping } s ∧ R s) p
      (fun _ => Inside t l) fun _ => Inside t l) :
    Triple (team.setting t) (fun s => Waiting t stopping s ∧ R s) (locked p)
      (fun _ => Inv) fun _ => Inv := by
  refine Triple.bind (Q := fun _ s => Inside t { stopping } s ∧ R s) (triple_perform
    (fun s s' hs hr => ⟨hs.1.rely hr, hR s s' hs.2 hr⟩) (fun s hs => ⟨hs.1.inv, trivial⟩) ?_) fun _ => ?_
  · rintro s r s' ⟨hs, hr⟩ ⟨x, hx⟩
    have hstep := (act_of_timelyAct hx).2
    have hinv := act_inv (o := .lock) hs.inv trivial hstep
    simp only [act] at hstep
    split at hstep
    · cases hstep
    · rename_i hfree
      cases hstep
      exact ⟨⟨hinv, rfl, hs.inv.hand_eq_nil (by simpa using hfree), fun he => (by cases he),
        fun hb => (by cases hb), hs.marks⟩, hlock s hr⟩
  · have hguard : ∀ s, Inside t l s → Guard t s .unlock := by
      refine fun s hs => ⟨hs.holder, hs.hand.trans hhand, ?_⟩
      cases hst : l.stopping with
      | false => exact .inl (hs.marks hst)
      | true => exact .inr (hs.empty (hempty hst))
    refine (Triple.result (R := fun _ => Inside t l) hp).bind fun r => ?_
    refine Triple.bind (Q := fun _ => Inv) (triple_perform stable_inside
      (fun s hs => ⟨hs.inv, hguard s hs⟩) ?_) fun _ => triple_ofExcept (fun _ _ _ => id) fun _ _ _ => id
    rintro s r s' hs ⟨x, hx⟩
    exact act_inv (o := .unlock) hs.inv (hguard s hs) (act_of_timelyAct hx).2

/-- A call that has just been made. -/
structure New (t : ℕ) (s : State) : Prop where
  inv : Inv s
  called : t < s.calls
  unread : t ∉ s.readers
  marks : s.marks t = []

lemma New.rely (h : New t s) (hr : Rely t s s') : New t s' :=
  ⟨hr.inv h.inv, h.called.trans_le hr.calls, fun hread => h.unread (hr.reader.mp hread),
    hr.marks.trans h.marks⟩

lemma triple_startupGeneration : Triple (team.setting t) (New t)
    startupGeneration (fun g s => Waiting t false s ∧ Read t g s) E := by
  have hguard : ∀ s, New t s → Guard t s .generation := fun s hs => ⟨hs.called, hs.unread⟩
  refine triple_perform (fun _ _ => New.rely) (fun s hs => ⟨hs.inv, hguard s hs⟩) ?_
  rintro s g s' hs ⟨x, hx⟩
  have hstep := (act_of_timelyAct hx).2
  have hinv := act_inv (o := .generation) hs.inv (hguard s hs) hstep
  cases hstep
  refine ⟨⟨hinv, fun _ => hs.marks⟩, List.mem_cons_self, ?_⟩
  show s.generation = UInt64.ofNat (Function.update s.readAt t s.cancels t)
  rw [Function.update_self, hs.inv.generation]

lemma triple_startRuntime :
    Triple (team.setting t) (New t) startRuntime (fun _ => Inv) fun _ => Inv := by
  refine triple_startupGeneration.bind fun g => ?_
  refine triple_locked (l := {}) (fun _ _ => Read.rely) (fun s hs => hs) rfl (fun hs => nomatch hs) ?_
  refine (triple_loadKeep (fun s s' hs hr => ⟨hs.1.rely hr, hs.2.rely hr⟩)
    fun s hs => hs.1.inv).bind fun r => ?_
  refine Triple.ite (fun _ => triple_throw _ fun s hs => hs.1.1) fun hnone => ?_
  refine Triple.pre (triple_startup triple_startLocked) ?_
  rintro s ⟨⟨hs, hread⟩, rfl⟩
  exact ⟨⟨hs.inv, hs.holder, hs.hand, fun _ => by simpa using hnone, hs.begun, hs.marks⟩, hread⟩

lemma triple_reloadRuntime :
    Triple (team.setting t) (New t) reloadRuntime (fun _ => Inv) fun _ => Inv := by
  refine triple_startupGeneration.bind fun g => ?_
  exact triple_locked (l := {}) (fun _ _ => Read.rely) (fun s hs => hs) rfl (fun hs => nomatch hs)
    (triple_startup triple_reloadLocked)

lemma triple_cancelStartup : Triple (team.setting t) (New t)
    (Prog.perform .cancelStartup) (fun _ s => Waiting t true s ∧ True) E := by
  refine triple_perform (fun _ _ => New.rely) (fun s hs => ⟨hs.inv, hs.called⟩) ?_
  rintro s r s' hs ⟨x, hx⟩
  exact ⟨⟨act_inv (o := .cancelStartup) hs.inv hs.called (act_of_timelyAct hx).2,
    fun hst => (nomatch hst)⟩, trivial⟩

lemma triple_stopRuntime :
    Triple (team.setting t) (New t) stopRuntime (fun _ => Inv) fun _ => Inv := by
  refine triple_cancelStartup.bind fun _ => ?_
  refine triple_locked (l := { empty := true, stopping := true }) (fun _ _ h _ => h) (fun _ => id) rfl
    (fun _ => rfl) ?_
  refine Triple.pre (P := Inside t { stopping := true }) ?_ (fun _ hs => hs.1)
  refine triple_load.bind fun r => ?_
  refine triple_drop.bind fun _ => ?_
  exact triple_closePrevious r.cancel rfl

lemma triple_cancelStart :
    Triple (team.setting t) (New t) cancelStart (fun _ => Inv) fun _ => Inv :=
  Triple.post triple_cancelStartup (fun _ _ hs => hs.1.inv)

/-! ### Runs -/

inductive Call
  | start | reload | stop | cancel

def Call.program : Call → Fn String Unit
  | .start => startRuntime
  | .reload => reloadRuntime
  | .stop => stopRuntime
  | .cancel => cancelStart

/-- A call is made; calls are numbered. -/
inductive Launch : State → ℕ → Prog Op Reply Empty (Except String Unit) → State → Prop
  | call {s : State} (c : Call) :
    Launch s s.calls c.program.result { s with calls := s.calls + 1 }

lemma Call.safe (c : Call) :
    Triple (team.setting t) (New t) c.program (fun _ => Inv) fun _ => Inv := by
  cases c with
  | start => exact triple_startRuntime
  | reload => exact triple_reloadRuntime
  | stop => exact triple_stopRuntime
  | cancel => exact triple_cancelStart

lemma Inv.call (h : Inv s) : Inv { s with calls := s.calls + 1 } :=
  ⟨h.generation, fun t ht => ⟨(h.readers t ht).1.trans (Nat.lt_succ_self _), (h.readers t ht).2⟩,
    fun t ht => h.fresh t (Nat.le_of_succ_le ht), h.marks, h.barred, h.published, h.places, h.hands,
    h.closed⟩

lemma Inv.new (h : Inv s) : New s.calls { s with calls := s.calls + 1 } :=
  ⟨h.call, Nat.lt_succ_self _, fun ht => lt_irrefl _ (h.readers _ ht).1, h.fresh _ (le_refl _)⟩

lemma Launch.safe {p : Prog Op Reply Empty (Except String Unit)} (hl : Launch s t p s') (h : Inv s) :
    (∀ j, j ≠ t → Rely j s s') ∧
      Prog.wp (team.setting t) p (fun _ => Inv) (fun _ _ => True) s' := by
  cases hl with
  | call c =>
    refine ⟨fun j _ => ⟨fun _ => h.call, .rfl, fun _ => rfl, fun _ => rfl, fun _ => rfl,
      Nat.le_succ _, .rfl, rfl, rfl⟩, ?_⟩
    exact Triple.result (R := fun _ => Inv) c.safe _ h.new

lemma inv_init : Inv {} :=
  ⟨rfl, fun _ ht => (nomatch ht), fun _ _ => rfl, fun _ _ ht => (nomatch ht),
    fun _ ht => (nomatch ht), fun hp => absurd rfl hp, .nil, fun _ hi => (nomatch hi),
    fun _ _ hi => (nomatch hi)⟩

lemma filter_eq_singleton {log : List (ℕ × ℕ)} {i : ℕ} (hnodup : (log.map Prod.fst).Nodup)
    (hmem : (i, t) ∈ log) : log.filter (fun c => c.1 = i) = [(i, t)] := by
  induction log with
  | nil => cases hmem
  | cons c log ih =>
    rw [List.map_cons, List.nodup_cons] at hnodup
    rcases List.mem_cons.mp hmem with rfl | hold
    · have hrest : log.filter (fun c => c.1 = i) = [] := by
        refine List.filter_eq_nil_iff.mpr fun c hc => ?_
        simp only [decide_eq_true_eq]
        rintro rfl
        exact hnodup.1 (List.mem_map.mpr ⟨c, hc, rfl⟩)
      simp [hrest]
    · have hne : c.1 ≠ i := by
        rintro rfl
        exact hnodup.1 (List.mem_map.mpr ⟨_, hold, rfl⟩)
      simp [hne, ih hnodup.2 hold]

/-- The box of `runtimeState` is of a call that no stop has come after, and every other box is in
the hands of the call that holds the lock, or was closed once by the call that had it. -/
structure Safe (s : State) : Prop where
  stopped : s.runtime.box ≠ none → ∃ t, s.publisher = some t ∧ t ∉ s.barred
  boxes : ∀ i < s.boxes,
    (s.runtime.box.map Box.id = some i ∧ s.closes.filter (fun c => c.1 = i) = []) ∨
    ∃ t, s.owner i = some t ∧
      ((s.holder = some t ∧ s.closes.filter (fun c => c.1 = i) = []) ∨
        s.closes.filter (fun c => c.1 = i) = [(i, t)])

lemma Inv.safe (h : Inv s) : Safe s := by
  refine ⟨h.published, fun i hi => ?_⟩
  have hnodup : (s.present ++ s.hand ++ s.closes.map Prod.fst).Nodup :=
    h.places.nodup_iff.mpr List.nodup_range
  have hopen : i ∈ s.present ++ s.hand → s.closes.filter (fun c => c.1 = i) = [] := by
    intro hmem
    refine List.filter_eq_nil_iff.mpr fun c hc => ?_
    simp only [decide_eq_true_eq]
    rintro rfl
    exact (List.nodup_append.mp hnodup).2.2 _ hmem _ (List.mem_map_of_mem hc) rfl
  have hplace := h.places.mem_iff.mpr (List.mem_range.mpr hi)
  rcases List.mem_append.mp hplace with hleft | hclosed
  · rcases List.mem_append.mp hleft with hpresent | hhand
    · refine .inl ⟨?_, hopen hleft⟩
      simpa [State.present] using hpresent
    · obtain ⟨t, ht, howner⟩ := h.hands i hhand
      exact .inr ⟨t, howner, .inl ⟨ht, hopen hleft⟩⟩
  · obtain ⟨⟨i', t⟩, hc, rfl⟩ := List.mem_map.mp hclosed
    exact .inr ⟨t, h.closed i' t hc,
      .inr (filter_eq_singleton (List.nodup_append.mp hnodup).2.1 hc)⟩

/-- **A stop wins**: in every interleaving of calls in which the generation does not come round while
a call waits, no call that a stop has come after leaves a box, and no box is lost. -/
theorem stop_wins {c : Prog.Pool State Op Reply (Except String Unit)}
    (h : Prog.Pool.Reach (fun t o s r s' => ∃ x, timelyAct t x s o = some (r, s')) Launch
      ⟨{}, fun _ => none⟩ c) : Safe c.state :=
  (Prog.Pool.safe_reach (m := team) inv_init (fun _ _ _ _ hl hi => hl.safe hi) h).1.safe

/-- Calls are made one after the other, and each goes on for a number of operations. -/
def play (exec : ℕ → Choice → State → (o : Op) → Option (Reply o × State)) :
    List (Call × ℕ) → Prog.Pool State Op Reply (Except String Unit) →
    Option (Prog.Pool State Op Reply (Except String Unit))
  | [], c => some c
  | (call, n) :: rest, ⟨s, ps⟩ =>
    match ps s.calls with
    | some _ => none
    | none =>
      (Prog.Pool.drive exec (List.replicate n (s.calls, {}))
        ⟨{ s with calls := s.calls + 1 },
          Function.update ps s.calls (some call.program.result)⟩).bind (play exec rest)

lemma play_sound {exec : ℕ → Choice → State → (o : Op) → Option (Reply o × State)}
    {script : List (Call × ℕ)} {c c' : Prog.Pool State Op Reply (Except String Unit)}
    (h : play exec script c = some c') :
    Prog.Pool.Reach (fun t o s r s' => ∃ x, exec t x s o = some (r, s')) Launch c c' := by
  induction script generalizing c with
  | nil =>
    cases h
    exact .refl
  | cons entry rest ih =>
    obtain ⟨s, ps⟩ := c
    simp only [play] at h
    split at h
    · cases h
    · rename_i hnew
      obtain ⟨c₁, hdrive, hrest⟩ := Option.bind_eq_some_iff.mp h
      exact ((Prog.Pool.drive_sound hdrive).head (.launched hnew (.call entry.1))).trans (ih hrest)

/-- A start, a stop and another start. -/
theorem stop_wins_restart : ∃ c : Prog.Pool State Op Reply (Except String Unit),
    c.state.runtime.box.isSome = true ∧ c.state.publisher = some 2 ∧ c.state.barred = [0] ∧
      Safe c.state := by
  have hplay : (play timelyAct [(.start, 11), (.stop, 7), (.start, 11)] ⟨{}, fun _ => none⟩).map
      (fun c => (c.state.runtime.box.isSome, c.state.publisher, c.state.barred)) =
      some (true, some 2, [0]) := by
    decide +kernel
  obtain ⟨c, hc, hfacts⟩ := Option.map_eq_some_iff.mp hplay
  simp only [Prod.mk.injEq] at hfacts
  exact ⟨c, hfacts.1, hfacts.2.1, hfacts.2.2, stop_wins (play_sound hc)⟩

/-! ### The generation comes round -/

/-- Any operation at any time. -/
abbrev AnyReach : Prog.Pool State Op Reply (Except String Unit) →
    Prog.Pool State Op Reply (Except String Unit) → Prop :=
  Prog.Pool.Reach (fun t o s r s' => ∃ x, act t x s o = some (r, s')) Launch

lemma reach_cancels (n : ℕ) (s : State) (ps : ℕ → Option (Prog Op Reply Empty (Except String Unit)))
    (hpending : s.pending = none) (hnew : ∀ i, s.calls ≤ i → ps i = none) :
    ∃ s' ps', AnyReach ⟨s, ps⟩ ⟨s', ps'⟩ ∧ s'.generation = s.generation + UInt64.ofNat n ∧
      s'.runtime = s.runtime ∧ s'.holder = s.holder ∧ s'.cancelled = s.cancelled ∧
      s'.barred = s.barred ∧ ∀ i < s.calls, ps' i = ps i := by
  induction n generalizing s ps with
  | zero => exact ⟨s, ps, .refl, by simp, rfl, rfl, rfl, rfl, fun _ _ => rfl⟩
  | succ n ih =>
    let ps₁ := Function.update ps s.calls (some cancelStart.result)
    let s₁ := ({ s with calls := s.calls + 1 } : State).cancelStartup s.calls
    let ps₂ := Function.update ps₁ s.calls (some (.pure (.ok ())))
    have hstep : AnyReach ⟨s, ps⟩ ⟨s₁, ps₂⟩ := by
      refine .head (.launched (hnew _ (le_refl _)) (.call .cancel)) (.single ?_)
      exact .performed (Function.update_self _ _ _) ⟨{}, rfl⟩
    obtain ⟨s', ps', hreach, hgen, hruntime, hholder, hcancelled, hbarred, hps⟩ := ih s₁ ps₂ hpending (by
      intro i hi
      have hne : i ≠ s.calls := fun heq => absurd hi (by subst heq; simp [s₁, State.cancelStartup])
      simp only [ps₂, ps₁, Function.update_of_ne hne]
      exact hnew i (Nat.le_of_succ_le hi))
    refine ⟨s', ps', hstep.trans hreach, ?_, hruntime, hholder, ?_, hbarred, fun i hi => ?_⟩
    · rw [hgen, Nat.add_comm n 1, UInt64.ofNat_add]
      exact UInt64.add_assoc _ _ _
    · rw [hcancelled]
      simp [s₁, State.cancelStartup, hpending]
    · rw [hps i (hi.trans (Nat.lt_succ_self _))]
      simp only [ps₂, ps₁, Function.update_of_ne hi.ne]

/-- A start has read its generation, and a stop has come and gone. -/
def overtaken : Prog.Pool State Op Reply (Except String Unit) :=
  (play act [(.start, 1), (.stop, 5)] ⟨{}, fun _ => none⟩).getD ⟨{}, fun _ => none⟩

lemma reach_overtaken : AnyReach ⟨{}, fun _ => none⟩ overtaken := by
  have h : play act [(.start, 1), (.stop, 5)] ⟨{}, fun _ => none⟩ = some overtaken := rfl
  exact play_sound h

lemma overtaken_new (i : ℕ) (hi : overtaken.state.calls ≤ i) : overtaken.programs i = none := by
  match i, hi with
  | i + 2, _ => rfl

/-- What a start does from the lock on. -/
def resume : Prog Op Reply Empty (Except String Unit) :=
  (locked do
    let r ← load
    if r.box.isSome then .throw "sing-box is already running" else startup 0 startLocked).result

lemma reach_resume (s : State) (ps : ℕ → Option (Prog Op Reply Empty (Except String Unit)))
    (hps : ps 0 = some resume) (hgeneration : s.generation = 0) (hruntime : s.runtime = {})
    (hholder : s.holder = none) (hcancelled : s.cancelled = []) :
    ∃ c, AnyReach ⟨s, ps⟩ c ∧ c.state.runtime.box ≠ none ∧ c.state.publisher = some 0 ∧
      c.state.barred = s.barred := by
  obtain ⟨_, _, _, pending, contexts, _, calls, cancels, readers, readAt, marks, barred, publisher, boxes,
    hand, owner, closes⟩ := s
  simp only at hgeneration hruntime hholder hcancelled
  subst hgeneration hruntime hholder hcancelled
  let s : State := ⟨{}, none, 0, pending, contexts, [], calls, cancels, readers, readAt, marks, barred,
    publisher, boxes, hand, owner, closes⟩
  let c : Prog.Pool State Op Reply (Except String Unit) := ⟨s, Function.update ps 0 (some resume)⟩
  let c' := (Prog.Pool.drive act (List.replicate 9 (0, {})) c).getD c
  have hc : c = ⟨s, ps⟩ := by
    simp only [c, ← hps, Function.update_eq_self]
  have hrun : Prog.Pool.drive act (List.replicate 9 (0, {})) c = some c' := rfl
  refine ⟨c', ?_, fun h => (nomatch h), rfl, rfl⟩
  rw [← hc]
  exact Prog.Pool.drive_sound hrun

/-- Without a bound on how often the generation is raised, a start can outlive a stop that came
after it. -/
theorem stop_overtaken : ∃ c : Prog.Pool State Op Reply (Except String Unit),
    AnyReach ⟨{}, fun _ => none⟩ c ∧ ¬ Safe c.state := by
  obtain ⟨s, ps, hcancels, hgeneration, hruntime, hholder, hcancelled, hbarred, hps⟩ :=
    reach_cancels (2 ^ 64 - 1) overtaken.state overtaken.programs rfl overtaken_new
  obtain ⟨c, hresume, hbox, hpublisher, hbarred'⟩ := reach_resume s ps
    (hps 0 (by decide)) (hgeneration.trans (by decide)) hruntime hholder hcancelled
  refine ⟨c, (reach_overtaken.trans hcancels).trans hresume, fun hsafe => ?_⟩
  obtain ⟨t, ht, hnot⟩ := hsafe.stopped hbox
  rw [hpublisher] at ht
  cases ht
  rw [hbarred', hbarred] at hnot
  exact hnot (by decide)

end SbEasy.Bridge

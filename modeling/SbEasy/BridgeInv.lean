import SbEasy.Bridge

/-!
What calls of the bridge keep between them: boxes are not lost, and a call that a stop has come after
does not leave one.
-/

namespace SbEasy.Bridge

/-- The box in `runtimeState`. -/
def State.present (s : State) : List ℕ := s.runtime.box.toList.map Box.id

structure Inv (s : State) : Prop where
  generation : s.generation = UInt64.ofNat s.cancels
  readers : ∀ t ∈ s.readers, t < s.calls ∧ s.readAt t ≤ s.cancels
  fresh : ∀ t, s.calls ≤ t → s.marks t = []
  marks : ∀ t, ∀ t' ∈ s.marks t, t' ∈ s.readers ∧ s.readAt t' < s.cancels
  barred : ∀ t ∈ s.barred, t ∈ s.readers ∧ s.readAt t < s.cancels
  published : s.runtime.box ≠ none → ∃ t, s.publisher = some t ∧ t ∉ s.barred
  /-- Every box is in exactly one place. -/
  places : (s.present ++ s.hand ++ s.closes.map Prod.fst).Perm (List.range s.boxes)
  hands : ∀ i ∈ s.hand, ∃ t, s.holder = some t ∧ s.owner i = some t
  closed : ∀ i t, (i, t) ∈ s.closes → s.owner i = some t

/-- What has to hold when a call asks for an operation. -/
def Guard (t : ℕ) (s : State) : Op → Prop
  | .generation => t < s.calls ∧ t ∉ s.readers
  | .cancelStartup => t < s.calls
  | .unlock => s.holder = some t ∧ s.hand = [] ∧ (s.marks t = [] ∨ s.runtime.box = none)
  | .create _ _ => s.holder = some t
  | .close b => s.holder = some t ∧ b.id ∈ s.hand
  | .store r => s.holder = some t ∧
      ∀ b, r.box = some b → s.runtime.box = none ∧ b.id ∈ s.hand ∧ t ∉ s.barred
  | _ => True

/-- What a call relies on: nobody else changes `runtimeState` under its lock, or what is
remembered of it. -/
structure Rely (t : ℕ) (s s' : State) : Prop where
  inv : Inv s → Inv s'
  holder : s'.holder = some t ↔ s.holder = some t
  runtime : s.holder = some t → s'.runtime = s.runtime
  hand : s.holder = some t → s'.hand = s.hand
  barred : s.holder = some t → s'.barred = s.barred
  calls : s.calls ≤ s'.calls
  reader : t ∈ s'.readers ↔ t ∈ s.readers
  readAt : s'.readAt t = s.readAt t
  marks : s'.marks t = s.marks t

variable {t t' : ℕ} {s s' s'' : State}

lemma Rely.refl (t : ℕ) (s : State) : Rely t s s :=
  ⟨id, .rfl, fun _ => rfl, fun _ => rfl, fun _ => rfl, le_refl _, .rfl, rfl, rfl⟩

lemma Rely.trans (h : Rely t s s') (h' : Rely t s' s'') : Rely t s s'' where
  inv hi := h'.inv (h.inv hi)
  holder := h'.holder.trans h.holder
  runtime hh := (h'.runtime (h.holder.mpr hh)).trans (h.runtime hh)
  hand hh := (h'.hand (h.holder.mpr hh)).trans (h.hand hh)
  barred hh := (h'.barred (h.holder.mpr hh)).trans (h.barred hh)
  calls := h.calls.trans h'.calls
  reader := h'.reader.trans h.reader
  readAt := h'.readAt.trans h.readAt
  marks := h'.marks.trans h.marks

/-! ### What an operation keeps -/

lemma Inv.readGeneration (h : Inv s) (ht : t < s.calls) (hnew : t ∉ s.readers) :
    Inv (s.readGeneration t) := by
  have hkeep : ∀ t' ∈ s.readers, Function.update s.readAt t s.cancels t' = s.readAt t' := by
    intro t' ht'
    have hne : t' ≠ t := by
      rintro rfl
      exact hnew ht'
    exact Function.update_of_ne hne _ _
  refine ⟨h.generation, ?_, h.fresh, ?_, ?_, h.published, h.places, h.hands, h.closed⟩
  · intro t' ht'
    rcases List.mem_cons.mp ht' with rfl | hold
    · exact ⟨ht, (Function.update_self t' s.cancels s.readAt).le⟩
    · exact ⟨(h.readers t' hold).1, (hkeep t' hold).le.trans (h.readers t' hold).2⟩
  · intro t₁ t' ht'
    obtain ⟨hread, hlt⟩ := h.marks t₁ t' ht'
    exact ⟨List.mem_cons_of_mem _ hread, (hkeep t' hread).le.trans_lt hlt⟩
  · intro t' ht'
    obtain ⟨hread, hlt⟩ := h.barred t' ht'
    exact ⟨List.mem_cons_of_mem _ hread, (hkeep t' hread).le.trans_lt hlt⟩

lemma Inv.cancelStartup (h : Inv s) (ht : t < s.calls) : Inv (s.cancelStartup t) := by
  refine ⟨?_, ?_, ?_, ?_, ?_, h.published, h.places, h.hands, h.closed⟩
  · show s.generation + 1 = UInt64.ofNat (s.cancels + 1)
    rw [h.generation, UInt64.ofNat_add]
    rfl
  · exact fun t' ht' => ⟨(h.readers t' ht').1, (h.readers t' ht').2.trans (Nat.le_succ _)⟩
  · intro t' ht'
    show Function.update s.marks t s.readers t' = []
    rw [Function.update_of_ne (fun heq => by simp only [State.cancelStartup] at ht'; omega)]
    exact h.fresh t' ht'
  · intro t₁ t' ht'
    by_cases heq : t₁ = t
    · subst heq
      have hread : t' ∈ s.readers := by simpa [State.cancelStartup] using ht'
      exact ⟨hread, Nat.lt_succ_of_le (h.readers t' hread).2⟩
    · have hold : t' ∈ s.marks t₁ := by simpa [State.cancelStartup, heq] using ht'
      exact ⟨(h.marks t₁ t' hold).1, (h.marks t₁ t' hold).2.trans (Nat.lt_succ_self _)⟩
  · exact fun t' ht' => ⟨(h.barred t' ht').1, (h.barred t' ht').2.trans (Nat.lt_succ_self _)⟩

lemma Inv.lock (h : Inv s) (hfree : s.holder = none) : Inv { s with holder := some t } := by
  refine ⟨h.generation, h.readers, h.fresh, h.marks, h.barred, h.published, h.places, ?_, h.closed⟩
  intro i hi
  obtain ⟨t', ht', -⟩ := h.hands i hi
  rw [hfree] at ht'
  cases ht'

lemma Inv.unlock (h : Inv s) (hhand : s.hand = []) (hbox : s.marks t = [] ∨ s.runtime.box = none) :
    Inv (s.unlock t) where
  generation := h.generation
  readers := h.readers
  fresh := h.fresh
  marks := h.marks
  barred t' ht' := by
    rcases List.mem_append.mp ht' with hold | hnew
    · exact h.barred t' hold
    · exact h.marks t t' hnew
  published hp := by
    rcases hbox with hmarks | hnone
    · obtain ⟨t', ht', hb⟩ := h.published hp
      exact ⟨t', ht', by simpa [State.unlock, hmarks] using hb⟩
    · exact absurd hnone hp
  places := h.places
  hands i hi := by
    have hmem : i ∈ s.hand := hi
    rw [hhand] at hmem
    cases hmem
  closed := h.closed

lemma Inv.create (h : Inv s) (hholder : s.holder = some t) : Inv (s.create t) := by
  have hlt : ∀ i, i ∈ s.present ++ s.hand ++ s.closes.map Prod.fst → i ≠ s.boxes := by
    intro i hi heq
    have := List.mem_range.mp (h.places.mem_iff.mp hi)
    omega
  refine ⟨h.generation, h.readers, h.fresh, h.marks, h.barred, h.published, ?_, ?_, ?_⟩
  · show (s.present ++ (s.boxes :: s.hand) ++ s.closes.map Prod.fst).Perm (List.range (s.boxes + 1))
    rw [List.range_succ]
    refine List.Perm.trans ?_ (List.perm_append_singleton _ _).symm
    refine List.Perm.trans ?_ (h.places.cons s.boxes)
    rw [List.append_assoc, List.append_assoc]
    exact List.perm_middle
  · intro i hi
    refine ⟨t, hholder, ?_⟩
    rcases List.mem_cons.mp hi with rfl | hold
    · exact Function.update_self _ _ _
    · obtain ⟨t', ht', howner⟩ := h.hands i hold
      rw [hholder] at ht'
      cases ht'
      exact (Function.update_of_ne (hlt i (by simp [hold])) _ _).trans howner
  · intro i t' hi
    refine (Function.update_of_ne (hlt i ?_) _ _).trans (h.closed i t' hi)
    exact List.mem_append_right _ (List.mem_map_of_mem hi)

lemma Inv.close (h : Inv s) (hholder : s.holder = some t) {b : Box} (hb : b.id ∈ s.hand) :
    Inv (s.close t b) := by
  refine ⟨h.generation, h.readers, h.fresh, h.marks, h.barred, h.published, ?_, ?_, ?_⟩
  · refine List.Perm.trans ?_ h.places
    show (s.present ++ s.hand.erase b.id ++ b.id :: s.closes.map Prod.fst).Perm _
    rw [List.append_assoc, List.append_assoc]
    refine List.Perm.append_left _ ?_
    refine List.perm_middle.trans ?_
    exact (List.perm_cons_erase hb).symm.append_right _
  · exact fun i hi => h.hands i (List.mem_of_mem_erase hi)
  · intro i t' hi
    rcases List.mem_cons.mp hi with heq | hold
    · cases heq
      obtain ⟨t'', ht'', howner⟩ := h.hands _ hb
      rw [hholder] at ht''
      cases ht''
      exact howner
    · exact h.closed i t' hold

lemma takeOut_box (s : State) (t : ℕ) : (s.takeOut t).runtime.box = none := by
  unfold State.takeOut
  split <;> rfl

lemma Inv.takeOut (h : Inv s) (hholder : s.holder = some t) : Inv (s.takeOut t) := by
  unfold State.takeOut
  split
  · rename_i hnone
    refine ⟨h.generation, h.readers, h.fresh, h.marks, h.barred, fun hp => absurd rfl hp, ?_, h.hands,
      h.closed⟩
    simpa [State.present, hnone] using h.places
  · rename_i b hsome
    have hpresent : s.present = [b.id] := by simp [State.present, hsome]
    have hplaces : (b.id :: (s.hand ++ s.closes.map Prod.fst)).Perm (List.range s.boxes) := by
      simpa [hpresent] using h.places
    refine ⟨h.generation, h.readers, h.fresh, h.marks, h.barred, fun hp => absurd rfl hp, hplaces,
      ?_, ?_⟩
    · intro i hi
      refine ⟨t, hholder, ?_⟩
      by_cases heq : i = b.id
      · rw [heq]
        exact Function.update_self _ _ _
      · obtain ⟨t', ht', howner⟩ := h.hands i ((List.mem_cons.mp hi).resolve_left heq)
        rw [hholder] at ht'
        cases ht'
        exact (Function.update_of_ne heq _ _).trans howner
    · intro i t' hi
      have hnodup : (b.id :: (s.hand ++ s.closes.map Prod.fst)).Nodup :=
        hplaces.nodup_iff.mpr List.nodup_range
      have hne : i ≠ b.id := by
        rintro rfl
        exact (List.nodup_cons.mp hnodup).1 (List.mem_append_right _ (List.mem_map_of_mem hi))
      exact (Function.update_of_ne hne _ _).trans (h.closed i t' hi)

lemma Inv.publish (h : Inv s) (hnone : s.runtime.box = none) {r : Runtime} {b : Box}
    (hr : r.box = some b) (hb : b.id ∈ s.hand) (hbarred : t ∉ s.barred) :
    Inv { s with runtime := r, publisher := some t, hand := s.hand.erase b.id } := by
  refine ⟨h.generation, h.readers, h.fresh, h.marks, h.barred, fun _ => ⟨t, rfl, hbarred⟩, ?_,
    fun i hi => h.hands i (List.mem_of_mem_erase hi), h.closed⟩
  refine List.Perm.trans ?_ h.places
  simp only [State.present, hr, hnone, Option.toList_some, Option.toList_none, List.map_cons,
    List.map_nil, List.nil_append, List.cons_append]
  exact (List.perm_cons_erase hb).symm.append_right _

lemma Inv.drop (h : Inv s) (hholder : s.holder = some t) {r : Runtime} (hr : r.box = none) :
    Inv { s.takeOut t with runtime := r } := by
  have hi := h.takeOut hholder
  refine ⟨hi.generation, hi.readers, hi.fresh, hi.marks, hi.barred, fun hp => absurd hr hp, ?_,
    hi.hands, hi.closed⟩
  simpa [State.present, hr, takeOut_box] using hi.places

lemma takeOut_of_none (hnone : s.runtime.box = none) :
    s.takeOut t = { s with runtime := {}, publisher := none } := by
  unfold State.takeOut
  rw [hnone]

lemma Inv.store (h : Inv s) {r : Runtime} (hguard : Guard t s (.store r)) : Inv (s.store t r) := by
  obtain ⟨hholder, hput⟩ := hguard
  unfold State.store
  cases hr : r.box with
  | none => exact h.drop hholder hr
  | some b =>
    obtain ⟨hnone, hb, hbarred⟩ := hput b hr
    have hi := h.takeOut hholder
    refine hi.publish (takeOut_box s t) hr ?_ ?_
    · rwa [takeOut_of_none hnone]
    · rwa [takeOut_of_none hnone]

/-- **One operation** under its guard keeps the invariant. -/
lemma act_inv {x : Choice} {o : Op} {r : Reply o} (h : Inv s) (hguard : Guard t s o)
    (hact : act t x s o = some (r, s')) : Inv s' := by
  cases o with
  | generation =>
    cases hact
    exact h.readGeneration hguard.1 hguard.2
  | lock =>
    simp only [act] at hact
    split at hact
    · cases hact
    · rename_i hfree
      cases hact
      exact h.lock (by simpa using hfree)
  | unlock =>
    cases hact
    exact h.unlock hguard.2.1 hguard.2.2
  | begin generation =>
    simp only [act] at hact
    split at hact <;> cases hact
    · exact h
    · exact ⟨h.generation, h.readers, h.fresh, h.marks, h.barred, h.published, h.places, h.hands,
        h.closed⟩
  | cancelStartup =>
    cases hact
    exact h.cancelStartup hguard
  | create ctx content =>
    simp only [act] at hact
    split at hact <;> cases hact
    · exact h
    · exact h
    · exact h.create hguard
  | close b =>
    cases hact
    exact h.close hguard.1 hguard.2
  | store r =>
    cases hact
    exact h.store hguard
  | finish | cancel =>
    cases hact
    exact ⟨h.generation, h.readers, h.fresh, h.marks, h.barred, h.published, h.places, h.hands,
      h.closed⟩
  | err | read | start | load =>
    cases hact
    exact h

end SbEasy.Bridge

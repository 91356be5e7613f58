import SbEasy.Preferences

/-!
What a call on a preference slot does to the rows if it succeeds, and what it keeps up.
-/

namespace SbEasy.Preferences

open JsonParse

variable [Platform] {codec : BlockCodec}

section

variable {userId slot : Bytes} {t t' : List Row} {s : Slot}

lemma get_ok (h : Tx.Ok (get userId slot) t s t') : readLocked userId slot t = .ok s ∧ t' = t := by
  simp only [get, Tx.ok_bind, Tx.ok_ofExcept, Tx.ok_get] at h
  obtain ⟨⟨⟩, _, ⟨-, rfl⟩, _, _, ⟨rfl, rfl⟩, hread, rfl⟩ := h
  exact ⟨hread, rfl⟩

/-- The text of an envelope in its row. -/
def encoded (envelope : Sbj) : Bytes := Sbj.cstr (dump envelope (-1))

/-- A write that succeeds. -/
structure Put (now : ℤ) (userId slot : Bytes) (expected : ℤ) (envelope : Sbj) (t : List Row)
    (s : Slot) (t' : List Row) : Prop where
  revision : revisionOf userId slot t = expected
  bounds : 0 ≤ expected ∧ expected < int64Max
  room : room userId slot (encoded envelope).length t = true
  written : t' = Table.upsert (at? userId slot)
      (fun _ => ⟨userId, slot, expected + 1, now, some (encoded envelope)⟩)
      ⟨userId, slot, expected + 1, now, some (encoded envelope)⟩ t
  reads : readLocked userId slot t' = .ok s

lemma put_ok {now expected : ℤ} {envelope : Sbj}
    (h : Tx.Ok (put codec now userId slot expected envelope) t s t') :
    Put now userId slot expected envelope t s t' := by
  simp only [put, Tx.ok_bind, Tx.ok_ofExcept, Tx.ok_get, Tx.ok_require, Tx.ok_transaction,
    Tx.ok_modify, Bool.and_eq_true, decide_eq_true_eq, beq_iff_eq] at h
  obtain ⟨⟨⟩, _, ⟨-, rfl⟩, ⟨⟩, _, ⟨-, rfl⟩, ⟨⟩, _, ⟨hbounds, rfl⟩, _, _, ⟨rfl, rfl⟩, ⟨⟩, _,
    ⟨hrevision, rfl⟩, ⟨⟩, _, ⟨hroom, rfl⟩, ⟨⟩, _, rfl, _, _, ⟨rfl, rfl⟩, hread, rfl⟩ := h
  exact ⟨hrevision, hbounds, hroom, rfl, hread⟩

def hit (userId slot : Bytes) (expected : ℤ) (r : Row) : Bool :=
  at? userId slot r && r.revision == expected

def deleted (now : ℤ) (r : Row) : Row :=
  { r with revision := r.revision + 1, updatedAt := now, envelope := none }

omit [Platform] in
lemma delete_ok {now expected : ℤ} (h : Tx.Ok (delete now userId slot expected) t () t') :
    0 < expected ∧ t.any (hit userId slot expected) = true ∧
      t' = Table.update (hit userId slot expected) (deleted now) t := by
  simp only [delete, Tx.ok_bind, Tx.ok_ofExcept, Tx.ok_get, Tx.ok_require, Tx.ok_modify,
    Bool.and_eq_true, decide_eq_true_eq] at h
  obtain ⟨⟨⟩, _, ⟨-, rfl⟩, ⟨⟩, _, ⟨hbounds, rfl⟩, _, _, ⟨rfl, rfl⟩, ⟨⟩, _, ⟨hany, rfl⟩, rfl⟩ := h
  exact ⟨hbounds.1, hany, rfl⟩

end

lemma exec_error {e : Event} {t : List Row} {err : Err} (h : (exec codec e t).1 = .error err) :
    (exec codec e t).2 = t := by
  have hsafe : Tx.Safe id (answer codec e) := by
    unfold answer
    split
    · exact ((Tx.quiet_ofExcept.bind fun _ => Tx.quiet_get.bind fun _ =>
        Tx.quiet_ofExcept).bind fun _ => Tx.quiet_pure).safe
    · refine Tx.Safe.bind_pure ?_
      exact Tx.quiet_ofExcept.bind_safe fun _ => Tx.quiet_ofExcept.bind_safe fun _ =>
        Tx.quiet_require.bind_safe fun _ => Tx.safe_transaction fun _ _ => rfl
    · refine Tx.Safe.bind_pure (Tx.quiet_ofExcept.bind_safe fun _ => ?_)
      exact Tx.quiet_require.bind_safe fun _ => Tx.quiet_get.bind_safe fun _ =>
        Tx.quiet_require.bind_safe fun _ => Tx.safe_modify
  unfold exec at h ⊢
  split
  · rfl
  · rename_i hfault
    rw [hfault] at h
    exact hsafe t err _ (Prod.ext h rfl)

/-- The table of the preferences. -/
structure Inv (t : List Row) : Prop where
  keys : (t.map fun r => (r.userId, r.slot)).Nodup
  positive : ∀ r ∈ t, 0 < r.revision
  reads : ∀ r ∈ t, ∀ text ∈ r.envelope, ∃ v, sbjParse text = .ok v
  slots : ∀ u, t.countP (ofUser u) ≤ userSlotsLimit
  bytes : ∀ u, Table.sum (ofUser u) size t ≤ userBytesLimit

section

variable {userId slot u v : Bytes} {t t' : List Row} {r : Row}

omit [Platform] in
lemma at?_iff : at? userId slot r = true ↔ r.userId = userId ∧ r.slot = slot := by
  simp [at?]

lemma Inv.unique (ht : Inv t) {a b : Row} (ha : a ∈ t) (hb : b ∈ t)
    (ha' : at? userId slot a = true) (hb' : at? userId slot b = true) : a = b := by
  rw [at?_iff] at ha' hb'
  refine List.inj_on_of_nodup_map ht.keys ha hb ?_
  rw [ha'.1, ha'.2, hb'.1, hb'.2]

omit [Platform] in
lemma size_nonneg (r : Row) : 0 ≤ size r := Int.natCast_nonneg _

/-- A slot has no revision exactly if it has no row. -/
lemma Inv.revision_eq_zero (ht : Inv t) :
    revisionOf userId slot t = 0 ↔ t.find? (at? userId slot) = none := by
  unfold revisionOf
  cases h : t.find? (at? userId slot) with
  | none => simp
  | some r =>
    have := ht.positive r (List.mem_of_find?_eq_some h)
    simp only [Option.map_some, Option.getD_some, reduceCtorEq, iff_false]
    omega

lemma Inv.find?_eq (ht : Inv t) (hr : r ∈ t) (hat : at? userId slot r = true) :
    t.find? (at? userId slot) = some r := by
  cases hf : t.find? (at? userId slot) with
  | none => exact absurd hat (List.find?_eq_none.mp hf r hr)
  | some x => rw [ht.unique (List.mem_of_find?_eq_some hf) hr (List.find?_some hf) hat]

/-! ### Writes -/

section

variable {now expected : ℤ} {envelope : Sbj} {s : Slot}

lemma Put.found (h : Put now userId slot expected envelope t s t') :
    t'.find? (at? userId slot) =
      some ⟨userId, slot, expected + 1, now, some (encoded envelope)⟩ := by
  rw [h.written]
  exact Table.find?_upsert_self (by simp [at?])

lemma Put.parsed (h : Put now userId slot expected envelope t s t') :
    ∃ v, sbjParse (encoded envelope) = .ok v ∧ s = ⟨expected + 1, now, some v⟩ := by
  have hreads := h.reads
  rw [readLocked, h.found] at hreads
  simp only at hreads
  split at hreads
  · rename_i v hv
    cases hreads
    exact ⟨v, hv, rfl⟩
  · cases hreads

lemma Put.keeps_slots (h : Put now userId slot expected envelope t s t') (ht : Inv t) (w : Bytes) :
    t'.countP (ofUser w) ≤ userSlotsLimit := by
  have hroom := h.room
  simp only [Preferences.room, Bool.and_eq_true, Bool.or_eq_true, bne_iff_ne,
    decide_eq_true_eq] at hroom
  rw [h.written]
  unfold Table.upsert
  split_ifs with hany
  · refine (Table.countP_update_le fun r _ hr hw => ?_).trans (ht.slots w)
    simp only [ofUser, beq_iff_eq] at hw ⊢
    rw [(at?_iff.mp hr).1, hw]
  · have hnone : t.find? (at? userId slot) = none := by simpa using hany
    have hfree := hroom.1.resolve_left fun hne => hne (ht.revision_eq_zero.mpr hnone)
    have hw := ht.slots w
    rw [List.countP_append, List.countP_singleton]
    split_ifs with hu
    · simp only [ofUser, beq_iff_eq] at hu
      subst hu
      omega
    · omega

/-- The bytes of a user after a write: those of the row it replaces no longer count. -/
lemma Put.keeps_bytes (h : Put now userId slot expected envelope t s t') (ht : Inv t) (w : Bytes) :
    Table.sum (ofUser w) size t' ≤ userBytesLimit := by
  have hroom := h.room
  simp only [Preferences.room, Bool.and_eq_true, Bool.or_eq_true, bne_iff_ne,
    decide_eq_true_eq] at hroom
  have hw := ht.bytes w
  have hsize : size ⟨userId, slot, expected + 1, now, some (encoded envelope)⟩ =
    (encoded envelope).length := rfl
  rw [h.written]
  unfold Table.upsert
  split_ifs with hany
  · obtain ⟨r, hr, hat⟩ := List.any_eq_true.mp hany
    have huser : ofUser w ⟨userId, slot, expected + 1, now, some (encoded envelope)⟩ =
        ofUser w r := by
      simp [ofUser, (at?_iff.mp hat).1]
    rw [Table.sum_update_one hr (fun x hx hx' => ht.unique hx hr hx' hat) hat ht.keys.of_map huser]
    split_ifs with hu
    · have hrw : w = userId := by
        simp only [ofUser, beq_iff_eq] at hu
        rw [← hu, (at?_iff.mp hat).1]
      subst hrw
      rw [ht.find?_eq hr hat, Option.map_some, Option.getD_some] at hroom
      rw [hsize]
      omega
    · omega
  · have hnone : t.find? (at? userId slot) = none := by simpa using hany
    rw [Table.sum_snoc, hsize]
    split_ifs with hu
    · simp only [ofUser, beq_iff_eq] at hu
      subst hu
      rw [hnone, Option.map_none, Option.getD_none] at hroom
      omega
    · omega

lemma Put.inv (h : Put now userId slot expected envelope t s t') (ht : Inv t) : Inv t' := by
  obtain ⟨v, hv, -⟩ := h.parsed
  have hpos : 0 < expected + 1 := by have := h.bounds.1; omega
  refine ⟨?_, ?_, ?_, h.keeps_slots ht, h.keeps_bytes ht⟩
  · rw [h.written]
    exact Table.nodup_upsert (k := fun r : Row => (r.userId, r.slot)) ht.keys
      ⟨userId, slot, expected + 1, now, some (encoded envelope)⟩ fun r _ he => he.symm
  · rw [h.written]
    exact Table.forall_upsert ht.positive (fun _ _ => hpos) hpos
  · have hreads : ∀ text ∈ some (encoded envelope), ∃ v, sbjParse text = .ok v := by
      simpa using ⟨v, hv⟩
    rw [h.written]
    exact Table.forall_upsert ht.reads (fun _ _ => hreads) hreads

lemma Put.frame (h : Put now userId slot expected envelope t s t') (hne : ¬ (u = userId ∧ v = slot)) :
    t'.find? (at? u v) = t.find? (at? u v) := by
  have hother : ∀ r, at? userId slot r = true → at? u v r = false := by
    intro r hr
    rw [Bool.eq_false_iff]
    intro hr'
    rw [at?_iff] at hr hr'
    exact hne ⟨hr'.1.symm.trans hr.1, hr'.2.symm.trans hr.2⟩
  have hnew : at? userId slot ⟨userId, slot, expected + 1, now, some (encoded envelope)⟩ = true := by
    simp [at?]
  rw [h.written]
  exact Table.find?_upsert_of_disjoint (hother _ hnew) fun r _ hr => ⟨hother r hr, hother _ hnew⟩

end

/-- A deletion that succeeds. -/
structure Delete (now : ℤ) (userId slot : Bytes) (expected : ℤ) (t t' : List Row) : Prop where
  positive : 0 < expected
  row : ∃ r ∈ t, at? userId slot r = true ∧ r.revision = expected
  written : t' = Table.update (hit userId slot expected) (deleted now) t

section

variable {now expected : ℤ}

omit [Platform] in
lemma Delete.of_ok (h : Tx.Ok (delete now userId slot expected) t () t') :
    Delete now userId slot expected t t' := by
  obtain ⟨hpos, hany, hwritten⟩ := delete_ok h
  obtain ⟨r, hr, hhit⟩ := List.any_eq_true.mp hany
  simp only [hit, Bool.and_eq_true, beq_iff_eq] at hhit
  exact ⟨hpos, ⟨r, hr, hhit⟩, hwritten⟩

omit [Platform] in
lemma Delete.find? (h : Delete now userId slot expected t t') (u v : Bytes) :
    t'.find? (at? u v) =
      (t.find? (at? u v)).map fun r => if hit userId slot expected r then deleted now r else r := by
  rw [h.written]
  exact Table.find?_update fun _ => rfl

lemma Delete.found (h : Delete now userId slot expected t t') (ht : Inv t) :
    ∃ r, t.find? (at? userId slot) = some r ∧ r.revision = expected ∧
      t'.find? (at? userId slot) = some (deleted now r) := by
  obtain ⟨r, hr, hat, hrev⟩ := h.row
  refine ⟨r, ht.find?_eq hr hat, hrev, ?_⟩
  rw [h.find?, ht.find?_eq hr hat, Option.map_some, hit, hat, hrev]
  simp

lemma Delete.inv (h : Delete now userId slot expected t t') (ht : Inv t) : Inv t' := by
  obtain ⟨r, hr, hat, hrev⟩ := h.row
  have hhit : hit userId slot expected r = true := by simp [hit, hat, hrev]
  have hone : ∀ x ∈ t, hit userId slot expected x = true → x = r := by
    intro x hx hx'
    simp only [hit, Bool.and_eq_true] at hx'
    exact ht.unique hx hr hx'.1 hat
  rw [h.written]
  refine ⟨?_, ?_, ?_, fun w => ?_, fun w => ?_⟩
  · exact Table.nodup_update ht.keys fun _ _ _ => rfl
  · refine Table.forall_update ht.positive fun r hr _ => ?_
    rw [deleted]
    exact Int.lt_add_one_of_le hr.le
  · refine Table.forall_update ht.reads fun r _ _ => ?_
    simp [deleted]
  · have hle := Table.countP_update_le (p := hit userId slot expected) (f := deleted now) (t := t)
      (q := ofUser w) fun _ _ _ hw => hw
    exact hle.trans (ht.slots w)
  · rw [Table.sum_update_one hr hone hhit ht.keys.of_map rfl]
    have hw := ht.bytes w
    have hnonneg := size_nonneg r
    have hzero : size (deleted now r) = 0 := rfl
    split_ifs
    · omega
    · omega

omit [Platform] in
lemma Delete.frame (h : Delete now userId slot expected t t') (hne : ¬ (u = userId ∧ v = slot)) :
    t'.find? (at? u v) = t.find? (at? u v) := by
  rw [h.find?]
  cases hf : t.find? (at? u v) with
  | none => rfl
  | some r =>
    have hr := at?_iff.mp (List.find?_some hf)
    have hmiss : hit userId slot expected r = false := by
      rw [Bool.eq_false_iff]
      intro hhit
      simp only [hit, Bool.and_eq_true, at?_iff] at hhit
      exact hne ⟨hr.1.symm.trans hhit.1.1, hr.2.symm.trans hhit.1.2⟩
    simp [hmiss]

end

end

end SbEasy.Preferences

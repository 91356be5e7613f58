import SbEasy.CasRegister
import SbEasy.PreferencesRun

/-!
Preference slots are registers that change only by compare-and-swap, in every interleaving of
calls, and a user's slots stay within their limits.
-/

namespace SbEasy.Preferences

open JsonParse

variable [Platform] {codec : BlockCodec}

/-! ### Slots as registers -/

/-- A slot as a register: its revision, and what is read in it. -/
def register (userId slot : Bytes) (t : List Row) : Register Slot :=
  ⟨(revisionOf userId slot t).toNat, (readLocked userId slot t).toOption⟩

/-- What a call writes in a slot, if it succeeds. -/
def writeOf (codec : BlockCodec) (userId slot : Bytes) (e : Event) (t : List Row) :
    Option (Register.Write Slot) :=
  match (exec codec e t).1, e.call with
  | .ok _, .put u v expected envelope =>
    if u = userId ∧ v = slot then
      some ⟨expected, expected + 1, e.now, (sbjParse (encoded envelope)).toOption⟩
    else none
  | .ok _, .delete u v expected =>
    if u = userId ∧ v = slot then some ⟨expected, expected + 1, e.now, none⟩ else none
  | .ok _, .get _ _ => none
  | .error _, _ => none

/-- The successful writes of a slot, in their order. -/
def writesOf (codec : BlockCodec) (userId slot : Bytes) :
    List Row → List Event → List (Register.Write Slot)
  | _, [] => []
  | t, e :: events =>
    (writeOf codec userId slot e t).toList ++ writesOf codec userId slot (exec codec e t).2 events

section

variable {userId slot : Bytes} {t t' : List Row} {e : Event}

/-- What a call does: it fails or reads, it writes, or it deletes. -/
lemma exec_cases (codec : BlockCodec) (e : Event) (t : List Row) :
    ((exec codec e t).2 = t ∧ ∀ userId slot, writeOf codec userId slot e t = none) ∨
    (∃ u v expected envelope s, Put e.now u v expected envelope t s (exec codec e t).2 ∧
      ∀ userId slot, writeOf codec userId slot e t = if u = userId ∧ v = slot then
        some ⟨expected, expected + 1, e.now, (sbjParse (encoded envelope)).toOption⟩ else none) ∨
    (∃ u v expected, Delete e.now u v expected t (exec codec e t).2 ∧
      ∀ userId slot, writeOf codec userId slot e t = if u = userId ∧ v = slot then
        some ⟨expected, expected + 1, e.now, none⟩ else none) := by
  obtain ⟨call, now, fault⟩ := e
  rcases hres : (exec codec ⟨call, now, fault⟩ t).1 with err | s
  · exact .inl ⟨exec_error hres, fun _ _ => by simp [writeOf, hres]⟩
  · cases fault with
    | some err => cases hres
    | none =>
      have hok : Tx.Ok (answer codec ⟨call, now, none⟩) t s (exec codec ⟨call, now, none⟩ t).2 :=
        Prod.ext hres rfl
      cases call with
      | get u v =>
        simp only [answer, Tx.ok_bind, Tx.ok_pure] at hok
        obtain ⟨_, _, hget, -, heq⟩ := hok
        exact .inl ⟨heq.trans (get_ok hget).2, fun _ _ => by simp [writeOf, hres]⟩
      | put u v expected envelope =>
        simp only [answer, Tx.ok_bind, Tx.ok_pure] at hok
        obtain ⟨s, _, hput, -, heq⟩ := hok
        refine .inr (.inl ⟨u, v, expected, envelope, s, ?_, fun _ _ => by simp [writeOf, hres]⟩)
        rw [heq]
        exact put_ok hput
      | delete u v expected =>
        simp only [answer, Tx.ok_bind, Tx.ok_pure] at hok
        obtain ⟨⟨⟩, _, hdelete, -, heq⟩ := hok
        refine .inr (.inr ⟨u, v, expected, ?_, fun _ _ => by simp [writeOf, hres]⟩)
        rw [heq]
        exact Delete.of_ok hdelete

lemma exec_inv (ht : Inv t) : Inv (exec codec e t).2 := by
  obtain ⟨h, -⟩ | ⟨u, v, expected, envelope, s, h, -⟩ | ⟨u, v, expected, h, -⟩ :=
    exec_cases codec e t
  · rwa [h]
  · exact h.inv ht
  · exact h.inv ht

lemma register_congr (h : t'.find? (at? userId slot) = t.find? (at? userId slot)) :
    register userId slot t' = register userId slot t := by
  simp only [register, revisionOf, readLocked, h]

lemma register_exec (ht : Inv t) :
    (register userId slot t).writes (writeOf codec userId slot e t).toList =
      some (register userId slot (exec codec e t).2) := by
  obtain ⟨h, hw⟩ | ⟨u, v, expected, envelope, s, h, hw⟩ | ⟨u, v, expected, h, hw⟩ :=
    exec_cases codec e t
  · rw [hw, h]
    rfl
  · rw [hw]
    split_ifs with heq
    · obtain ⟨rfl, rfl⟩ := heq
      obtain ⟨x, hx, -⟩ := h.parsed
      have hbounds := h.bounds
      have hafter : register u v (exec codec e t).2 =
          ⟨(expected + 1).toNat, some ⟨expected + 1, e.now, some x⟩⟩ := by
        simp [register, revisionOf, readLocked, h.found, hx, Except.toOption]
      rw [hafter, hx]
      simp only [Option.toList_some, Register.writes, Register.write, register, h.revision]
      rw [if_pos (by omega), Option.bind_some, Int.toNat_add hbounds.1 (by decide)]
      rfl
    · rw [register_congr (h.frame fun hc => heq ⟨hc.1.symm, hc.2.symm⟩)]
      rfl
  · rw [hw]
    split_ifs with heq
    · obtain ⟨rfl, rfl⟩ := heq
      obtain ⟨r, hfind, hrev, hfind'⟩ := h.found ht
      have hpos := h.positive
      have hafter : register u v (exec codec e t).2 =
          ⟨(expected + 1).toNat, some ⟨expected + 1, e.now, none⟩⟩ := by
        simp [register, revisionOf, readLocked, hfind', deleted, hrev, Except.toOption]
      rw [hafter]
      simp only [Option.toList_some, Register.writes, Register.write, register, revisionOf, hfind,
        Option.map_some, Option.getD_some, hrev]
      rw [if_pos (by omega), Option.bind_some, Int.toNat_add hpos.le (by decide)]
      rfl
    · rw [register_congr (h.frame fun hc => heq ⟨hc.1.symm, hc.2.symm⟩)]
      rfl

/-! ### Runs -/

lemma run_inv {events : List Event} (ht : Inv t) : Inv (run codec t events) := by
  induction events generalizing t with
  | nil => exact ht
  | cons e events ih => exact ih (exec_inv ht)

lemma register_run {events : List Event} (ht : Inv t) :
    (register userId slot t).writes (writesOf codec userId slot t events) =
      some (register userId slot (run codec t events)) := by
  induction events generalizing t with
  | nil => rfl
  | cons e events ih =>
    rw [writesOf, Register.writes_append, register_exec ht]
    exact ih (exec_inv ht)

lemma writesOf_revision {events : List Event} :
    ∀ w ∈ writesOf codec userId slot t events, w.content.revision = w.expected + 1 := by
  induction events generalizing t with
  | nil => simp [writesOf]
  | cons e events ih =>
    intro w hw
    rw [writesOf, List.mem_append] at hw
    rcases hw with hw | hw
    · obtain ⟨-, hnone⟩ | ⟨u, v, expected, envelope, s, -, hput⟩ | ⟨u, v, expected, -, hdelete⟩ :=
        exec_cases codec e t
      · simp [hnone] at hw
      · rw [hput] at hw
        split_ifs at hw
        · simp only [Option.toList_some, List.mem_singleton] at hw
          rw [hw]
        · simp at hw
      · rw [hdelete] at hw
        split_ifs at hw
        · simp only [Option.toList_some, List.mem_singleton] at hw
          rw [hw]
        · simp at hw
    · exact ih w hw

lemma inv_nil : Inv [] := by
  refine ⟨List.nodup_nil, by simp, by simp, fun _ => ?_, fun _ => ?_⟩
  · simp
  · exact (by decide : (0 : ℤ) ≤ userBytesLimit)

end

/-- What holds of a slot after calls that began with no rows. -/
structure Linearized (codec : BlockCodec) (events : List Event) (userId slot : Bytes) : Prop where
  /-- The successful writes name the revisions 0, 1, 2, … in this order, -/
  order : (writesOf codec userId slot [] events).map (·.expected) =
    (List.range (writesOf codec userId slot [] events).length).map Int.ofNat
  /-- each leaves the next revision, -/
  next : ∀ w ∈ writesOf codec userId slot [] events, w.content.revision = w.expected + 1
  /-- and the slot has that of the last one. -/
  revision : revisionOf userId slot (run codec [] events) =
    (writesOf codec userId slot [] events).length
  /-- A call that reads the slot answers with the last write. -/
  reads : ∀ now, (exec codec ⟨.get userId slot, now, none⟩ (run codec [] events)).1 =
    match arguments userId slot, (writesOf codec userId slot [] events).getLast? with
    | .error err, _ => .error err
    | .ok _, none => .error ⟨.notFound, "Preference slot not found"⟩
    | .ok _, some w => .ok (some w.content)
  slots : (run codec [] events).countP (ofUser userId) ≤ 16
  bytes : Table.sum (ofUser userId) size (run codec [] events) ≤ 8 * 1024 * 1024
  /-- A call that fails leaves every row. -/
  fails : ∀ e err, (exec codec e (run codec [] events)).1 = .error err →
    (exec codec e (run codec [] events)).2 = run codec [] events

lemma Inv.readLocked_error {userId slot : Bytes} {t : List Row} {err : Err} (ht : Inv t)
    (h : readLocked userId slot t = .error err) :
    err = ⟨.notFound, "Preference slot not found"⟩ := by
  unfold readLocked at h
  split at h
  · cases h
    rfl
  · rename_i r hr
    split at h
    · cases h
    · rename_i text htext
      obtain ⟨v, hv⟩ := ht.reads r (List.mem_of_find?_eq_some hr) text htext
      rw [hv] at h
      cases h

lemma exec_get {userId slot : Bytes} {t : List Row} {now : ℤ} (ht : Inv t) :
    (exec codec ⟨.get userId slot, now, none⟩ t).1 =
      match arguments userId slot, (register userId slot t).content with
      | .error err, _ => .error err
      | .ok _, none => .error ⟨.notFound, "Preference slot not found"⟩
      | .ok _, some s => .ok (some s) := by
  have hexec : (exec codec ⟨.get userId slot, now, none⟩ t).1 =
      match arguments userId slot, readLocked userId slot t with
      | .error err, _ => .error err
      | .ok _, .error err => .error err
      | .ok _, .ok s => .ok (some s) := by
    simp only [exec, answer, Preferences.get, Tx.ofExcept]
    cases arguments userId slot with
    | error err => rfl
    | ok _ => cases hread : readLocked userId slot t <;> simp [Tx.exec_bind, hread]
  rw [hexec, register]
  cases arguments userId slot with
  | error err => rfl
  | ok _ =>
    cases hread : readLocked userId slot t with
    | error err => rw [ht.readLocked_error hread]; rfl
    | ok s => rfl

/-- **Preference slots are compare-and-swap registers.** For every sequence of calls, on any
slots of any users, with SQLite failing as it will. -/
theorem preferences_linearized (codec : BlockCodec) (events : List Event) (userId slot : Bytes) :
    Linearized codec events userId slot := by
  have hinv : Inv (run codec [] events) := run_inv inv_nil
  have hpos : 0 ≤ revisionOf userId slot (run codec [] events) := by
    unfold revisionOf
    cases hf : (run codec [] events).find? (at? userId slot) with
    | none => exact le_rfl
    | some r => exact (hinv.positive r (List.mem_of_find?_eq_some hf)).le
  have hrun : (register userId slot []).writes (writesOf codec userId slot [] events) =
    some (register userId slot (run codec [] events)) := register_run inv_nil
  obtain ⟨horder, hrevision, hcontent⟩ := Register.expected_of_writes hrun
  have hstart : register userId slot [] = ⟨0, none⟩ := rfl
  rw [hstart] at horder hrevision hcontent
  refine ⟨?_, writesOf_revision, ?_, fun now => ?_, hinv.slots userId, hinv.bytes userId,
    fun e err => exec_error⟩
  · rw [horder, List.range_eq_range']
  · have hnat : (revisionOf userId slot (run codec [] events)).toNat =
        0 + (writesOf codec userId slot [] events).length := hrevision
    omega
  · rw [exec_get hinv, hcontent]
    cases arguments userId slot with
    | error err => rfl
    | ok _ => cases (writesOf codec userId slot [] events).getLast? <;> rfl

end SbEasy.Preferences

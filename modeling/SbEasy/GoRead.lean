import SbEasy.GoJson

/-!
The engine reads every text that `sbj_parse_strict` accepts, as the same value.

The two parsers walk over the text side by side: they stop at the same place after every
string, number, member and item. A text of the grammar has no NUL byte, so that the engine
gets the whole of it as a C string.
-/

namespace SbEasy

open JsonParse

def NoNul (s : Bytes) : Prop := ∀ c ∈ s, c ≠ 0

namespace NoNul

@[simp] lemma nil : NoNul [] := by simp [NoNul]

@[simp] lemma cons_iff {c : UInt8} {s : Bytes} : NoNul (c :: s) ↔ c ≠ 0 ∧ NoNul s := by
  simp [NoNul]

@[simp] lemma append_iff {s t : Bytes} : NoNul (s ++ t) ↔ NoNul s ∧ NoNul t := by
  simp only [NoNul, List.mem_append]
  exact ⟨fun h => ⟨fun c hc => h c (Or.inl hc), fun c hc => h c (Or.inr hc)⟩,
    fun h c hc => hc.elim (h.1 c) (h.2 c)⟩

lemma ws {w : Bytes} (h : Rfc8259.Ws w) : NoNul w := by
  intro c hc
  rcases h c hc with rfl | rfl | rfl | rfl <;> decide

lemma digits {s : Bytes} (h : ∀ c ∈ s, Rfc8259.Digit c) : NoNul s := by
  rintro c hc rfl
  exact absurd (h 0 hc).1 (by decide)

lemma number {s : Bytes} (h : Rfc8259.Number s) : NoNul s := by
  obtain ⟨hm, hi, hf, he⟩ := h
  rw [append_iff, append_iff, append_iff]
  refine ⟨?_, ?_, ?_, ?_⟩
  · rcases hm with rfl | rfl <;> simp
  · cases hi with
    | zero => simp
    | positive h1 _ hs =>
      refine cons_iff.mpr ⟨?_, digits hs⟩
      rintro rfl
      exact absurd h1 (by decide)
  · cases hf with
    | none => exact nil
    | some hs => simpa using digits hs.2
  · cases he with
    | none => exact nil
    | some he hsign hs =>
      refine cons_iff.mpr ⟨?_, append_iff.mpr ⟨?_, digits hs.2⟩⟩
      · rcases he with rfl | rfl <;> decide
      · rcases hsign with rfl | rfl | rfl <;> simp

lemma hex4 {n : ℕ} {q : Bytes} (h : Rfc8259.Hex4 n q) : NoNul q := by
  have hne : ∀ {c : UInt8} {d : ℕ}, Rfc8259.hexDigit c = some d → c ≠ 0 := by
    rintro c d hc rfl
    cases hc
  obtain ⟨ha, hb, hc, hd⟩ := h
  simp [hne ha, hne hb, hne hc, hne hd]

lemma chars {d q : Bytes} (h : Rfc8259.Chars d q) : NoNul q := by
  induction h with
  | nil => exact nil
  | plain _ hc _ ih =>
    refine append_iff.mpr ⟨?_, ih⟩
    rintro x hx rfl
    exact absurd (hc 0 hx).1 (by decide)
  | escape he _ ih =>
    have hne : ∀ p ∈ Rfc8259.escapes, p.1 ≠ 0 := by simp [Rfc8259.escapes]
    simpa using ⟨hne _ he, ih⟩
  | unicode hq _ _ _ ih => simpa using ⟨hex4 hq, ih⟩
  | pair hq _ hl _ _ ih => simpa using ⟨hex4 hq, hex4 hl, ih⟩

mutual
lemma value {t : Rfc8259.Tree} {s : Bytes} (h : Rfc8259.Value t s) : NoNul s := by
  match h with
  | .null | .true | .false => simp [lit]
  | .number hq => exact number hq
  | .string hq => simpa using chars hq
  | .emptyArray hw => simpa using ws hw
  | .emptyObject hw => simpa using ws hw
  | .array hw hts hw' => simpa using ⟨ws hw, items hts, ws hw'⟩
  | .object hw hms hw' => simpa using ⟨ws hw, members hms, ws hw'⟩
lemma items {ts : List Rfc8259.Tree} {s : Bytes} (h : Rfc8259.Items ts s) : NoNul s := by
  match h with
  | .last hv => exact value hv
  | .more hv hw hw' hts => simpa using ⟨value hv, ws hw, ws hw', items hts⟩
lemma members {ms : List (Bytes × Rfc8259.Tree)} {s : Bytes} (h : Rfc8259.Members ms s) :
    NoNul s := by
  match h with
  | .last hm => exact member hm
  | .more hm hw hw' hms => simpa using ⟨member hm, ws hw, ws hw', members hms⟩
lemma member {k : Bytes} {t : Rfc8259.Tree} {s : Bytes} (h : Rfc8259.Member k t s) : NoNul s := by
  match h with
  | .mk hk hw hw' hv => simpa using ⟨chars hk, ws hw, ws hw', value hv⟩
end

end NoNul

variable {s r : Bytes}

lemma rune_of_unicode {cp : ℕ} (h : unicode s = .ok (cp, r)) :
    ∃ hi t, GoVal.getu4 s = some (hi, t) ∧ GoVal.rune hi t = (cp, r) := by
  unfold unicode at h
  cases h4 : hex4 s with
  | error left => rw [h4] at h; cases h
  | ok p =>
    obtain ⟨hi, t⟩ := p
    simp only [h4] at h
    have hgo : GoVal.getu4 s = some (hi, t) := by rw [GoVal.getu4, h4]; rfl
    by_cases hhi : 0xD800 ≤ hi ∧ hi ≤ 0xDBFF
    · rw [if_pos hhi] at h
      cases he : (eat 0x5C t).bind (eat 0x75) with
      | none => rw [he] at h; cases h
      | some t' =>
        simp only [he] at h
        cases h4' : hex4 t' with
        | error left => rw [h4'] at h; cases h
        | ok q =>
          obtain ⟨lo, t''⟩ := q
          simp only [h4'] at h
          split_ifs at h with hlo
          simp only [Except.ok.injEq, Prod.mk.injEq] at h
          obtain ⟨rfl, rfl⟩ := h
          refine ⟨hi, t, hgo, ?_⟩
          have hgo' : GoVal.getu4 t' = some (lo, t'') := by rw [GoVal.getu4, h4']; rfl
          rw [GoVal.rune, if_pos (by omega), he, Option.bind_some, hgo']
          simp only
          rw [if_pos (by omega)]
    · rw [if_neg hhi] at h
      split_ifs at h with hlo
      simp only [Except.ok.injEq, Prod.mk.injEq] at h
      obtain ⟨rfl, rfl⟩ := h
      exact ⟨hi, t, hgo, by rw [GoVal.rune, if_neg (by omega)]⟩

lemma stringLoop_go {fuel : ℕ} {b k : Bytes} (h : stringLoop fuel b s = .ok (k, r)) :
    GoVal.stringLoop fuel b s = some (k, r) := by
  induction fuel generalizing b s with
  | zero => simp [stringLoop] at h
  | succ fuel ih =>
    cases s with
    | nil => simp [stringLoop] at h
    | cons c s =>
      simp only [stringLoop] at h
      simp only [GoVal.stringLoop]
      split_ifs at h with h1 h2 h3 h4
      · simp only [Except.ok.injEq, Prod.mk.injEq] at h
        obtain ⟨rfl, rfl⟩ := h
        rw [if_pos h1]
      · rw [if_neg h1, if_neg h2, if_pos h3]
        cases s with
        | nil => simp at h
        | cons e s =>
          simp only at h ⊢
          cases he : unescape e with
          | some d =>
            simp only [he] at h ⊢
            exact ih h
          | none =>
            simp only [he] at h ⊢
            split_ifs at h with hu
            rw [if_pos hu]
            cases hcode : unicode s with
            | error err => rw [hcode] at h; cases h
            | ok p =>
              obtain ⟨cp, s'⟩ := p
              rw [hcode] at h
              obtain ⟨hi, t, hgetu4, hrune⟩ := rune_of_unicode hcode
              rw [hgetu4]
              simp only [hrune]
              exact ih h
      · rw [if_neg h1, if_neg h2, if_neg h3, if_neg h4]
        exact ih h

lemma readString_go {k : Bytes} (h : parseString s = .ok (k, r)) :
    GoVal.readString s = some (k, r) := stringLoop_go h

/-- The literal of an integer: digits, and a minus sign in front of them. -/
lemma literal_int {q : Bytes} (h : Rfc8259.Number q) (hf : Rfc8259.isFloat q = false) :
    ∃ d : Bytes, d ≠ [] ∧ d.all isDigit = true ∧ (q = 0x2D :: d ∨ q = d) := by
  obtain @⟨m, i, fr, ex, hm, hi, hfr, hex⟩ := h
  rw [isFloat_parts hm hi hfr hex, Bool.or_eq_false_iff] at hf
  obtain ⟨hfr, hex⟩ := hf
  simp only [Bool.not_eq_false', List.isEmpty_iff] at hfr hex
  rw [hfr, hex, List.append_nil, List.append_nil]
  refine ⟨i, ?_, List.all_eq_true.mpr ?_, by rcases hm with rfl | rfl <;> simp⟩
  · obtain ⟨c, t, rfl, -⟩ := int_head hi
    simp
  · cases hi with
    | zero => simp [isDigit]
    | positive h1 h2 hs =>
      have hle : (0x30 : UInt8) ≤ 0x31 := by decide
      intro c hc
      rcases List.mem_cons.mp hc with rfl | hc
      · exact isDigit_iff.mpr ⟨UInt8.le_trans hle h1, h2⟩
      · exact isDigit_iff.mpr (hs c hc)

lemma parseInt_of_numberValue [Platform] {text : Bytes} {d : Bytes} (hne : d ≠ [])
    (hall : d.all isDigit = true) (htext : text = 0x2D :: d ∨ text = d) {i : ℤ}
    (h : numberValue text false = .int i) : GoVal.parseInt text = some i := by
  unfold numberValue at h
  simp only [Bool.false_eq_true, if_false] at h
  rcases htext with rfl | rfl
  · simp only [eat_cons_self] at h
    simp only [GoVal.parseInt, eat_cons_self]
    split_ifs at h with hmin
    rw [if_pos ⟨hne, hall, hmin⟩]
    cases h
    rfl
  · have hminus : eat 0x2D text = none := by
      cases text with
      | nil => exact absurd rfl hne
      | cons c t =>
        rw [List.all_cons, Bool.and_eq_true] at hall
        exact eat_cons_ne (digit_ne_minus hall.1) t
    simp only [hminus] at h
    simp only [GoVal.parseInt, hminus]
    split_ifs at h with hmax
    unfold Sbj.ofUint at h
    split_ifs at h with hint
    rw [if_pos ⟨hne, hall, hint⟩]
    cases h
    rfl

/-! ### Values -/

mutual
/-- The engine's value is the value of the C side. An object holds the same members, in the
order of the text on one side and by key on the other, no key twice. -/
def GoVal.Means : GoVal → Sbj → Prop
  | .null, v => v = .null
  | .bool b, v => v = .bool b
  | .num text, v => (∃ u, v = .uint u) ∨ (∃ f, v = .float f) ∨ ∃ i, v = .int i ∧ GoVal.parseInt text = some i
  | .str s, v => v = .str s
  | .arr l, v => ∃ vs, v = .arr vs ∧ GoVal.MeansItems l vs
  | .obj m, v => ∃ o, v = .obj o ∧ SortedAssoc.Sorted o ∧ (m.map Prod.fst).Nodup ∧
      m.length = o.length ∧ GoVal.MeansMembers m o
def GoVal.MeansItems : List GoVal → List Sbj → Prop
  | [], vs => vs = []
  | g :: l, vs => ∃ v rest, vs = v :: rest ∧ GoVal.Means g v ∧ GoVal.MeansItems l rest
def GoVal.MeansMembers : List (Bytes × GoVal) → List (Bytes × Sbj) → Prop
  | [], _ => True
  | (k, g) :: m, o => (∃ v, SortedAssoc.get o k = some v ∧ GoVal.Means g v) ∧ GoVal.MeansMembers m o
end

namespace GoVal

lemma meansItems_iff {l : List GoVal} {vs : List Sbj} :
    MeansItems l vs ↔ List.Forall₂ Means l vs := by
  induction l generalizing vs with
  | nil => simp [MeansItems]
  | cons g l ih =>
    simp only [MeansItems, ih, List.forall₂_cons_left_iff]
    exact ⟨fun ⟨v, rest, h, hv, hrest⟩ => ⟨v, rest, hv, hrest, h⟩,
      fun ⟨v, rest, hv, hrest, h⟩ => ⟨v, rest, h, hv, hrest⟩⟩

variable {m : List (Bytes × GoVal)} {o : List (Bytes × Sbj)} {g : GoVal}

lemma meansMembers_iff :
    MeansMembers m o ↔ ∀ p ∈ m, ∃ v, SortedAssoc.get o p.1 = some v ∧ Means p.2 v := by
  induction m with
  | nil => simp [MeansMembers]
  | cons p m ih => simp [MeansMembers, ih]

/-- What has been read of an object, on both sides. -/
structure MembersRead (m : List (Bytes × GoVal)) (o : List (Bytes × Sbj)) : Prop where
  sorted : SortedAssoc.Sorted o
  keys : (m.map Prod.fst).Nodup
  length : m.length = o.length
  means : ∀ p ∈ m, ∃ v, SortedAssoc.get o p.1 = some v ∧ Means p.2 v

lemma MembersRead.nil : MembersRead [] [] := ⟨.nil, .nil, rfl, by simp⟩

lemma MembersRead.obj (h : MembersRead m o) : Means (.obj m) (.obj o) :=
  ⟨o, rfl, h.sorted, h.keys, h.length, meansMembers_iff.mpr h.means⟩

lemma MembersRead.snoc (h : MembersRead m o)
    {key : Bytes} (hnew : SortedAssoc.get o key = none) {v : Sbj} (hv : Means g v) :
    MembersRead (m ++ [(key, g)]) (SortedAssoc.set o key v) := by
  have hkey : ∀ p ∈ m, p.1 ≠ key := by
    rintro p hp rfl
    obtain ⟨w, hw, -⟩ := h.means p hp
    rw [hnew] at hw
    cases hw
  refine ⟨SortedAssoc.sorted_set h.sorted v, ?_, ?_, fun p hp => ?_⟩
  · rw [List.map_append, List.nodup_append]
    refine ⟨h.keys, by simp, fun a ha b hb => ?_⟩
    obtain ⟨p, hp, rfl⟩ := List.mem_map.mp ha
    simp only [List.map_cons, List.map_nil, List.mem_singleton] at hb
    rw [hb]
    exact hkey p hp
  · rw [SortedAssoc.length_set h.sorted v hnew, List.length_append, h.length]
    rfl
  · rcases List.mem_append.mp hp with hp | hp
    · rw [SortedAssoc.get_set_of_ne h.sorted v (hkey p hp)]
      exact h.means p hp
    · rw [List.mem_singleton.mp hp]
      exact ⟨v, SortedAssoc.get_set_self h.sorted v, hv⟩

lemma means_int {i : ℤ} (h : g.Means (.int i)) : g.int = some i := by
  cases g with
  | num text =>
    simp only [Means, reduceCtorEq, exists_false, Sbj.int.injEq, false_or] at h
    obtain ⟨j, rfl, hj⟩ := h
    exact hj
  | _ => simp [Means] at h

lemma means_str {s : Bytes} (h : g.Means (.str s)) : g = .str s := by
  cases g <;> simp_all [Means]

lemma means_null (h : g.Means .null) : g = .null := by
  cases g <;> simp_all [Means]

lemma means_arr {vs : List Sbj} (h : g.Means (.arr vs)) :
    ∃ l, g = .arr l ∧ List.Forall₂ Means l vs := by
  cases g with
  | arr l =>
    simp only [Means, Sbj.arr.injEq] at h
    obtain ⟨_, rfl, hl⟩ := h
    exact ⟨l, rfl, meansItems_iff.mp hl⟩
  | _ => simp [Means] at h

lemma means_obj (h : g.Means (.obj o)) : ∃ m, g = .obj m ∧ MembersRead m o := by
  cases g with
  | obj m =>
    simp only [Means, Sbj.obj.injEq] at h
    obtain ⟨_, rfl, hs, hk, hl, hm⟩ := h
    exact ⟨m, rfl, hs, hk, hl, meansMembers_iff.mp hm⟩
  | _ => simp [Means] at h

lemma MembersRead.perm (h : MembersRead m o) : (m.map Prod.fst).Perm (o.map Prod.fst) := by
  have hsub : m.map Prod.fst ⊆ o.map Prod.fst := by
    intro k hk
    obtain ⟨p, hp, rfl⟩ := List.mem_map.mp hk
    obtain ⟨v, hv, -⟩ := h.means p hp
    exact List.mem_map.mpr ⟨_, (SortedAssoc.get_eq_some_iff h.sorted).mp hv, rfl⟩
  refine (List.Nodup.subperm h.keys hsub).perm_of_length_le ?_
  simp [h.length]

lemma MembersRead.lookup (h : MembersRead m o)
    {k : Bytes} {v : Sbj} (hv : SortedAssoc.get o k = some v) :
    ∃ g, m.lookup k = some g ∧ g.Means v := by
  have hmem : k ∈ m.map Prod.fst :=
    h.perm.mem_iff.mpr (List.mem_map.mpr ⟨_, (SortedAssoc.get_eq_some_iff h.sorted).mp hv, rfl⟩)
  obtain ⟨p, hp, rfl⟩ := List.mem_map.mp hmem
  obtain ⟨w, hw, hmeans⟩ := h.means p hp
  rw [hv] at hw
  cases hw
  refine ⟨p.2, ?_, hmeans⟩
  obtain ⟨l, r, rfl⟩ := List.append_of_mem hp
  refine List.lookup_eq_some_iff.mpr ⟨l, r, rfl, fun q hq => ?_⟩
  have hdis := List.disjoint_of_nodup_append (List.map_append ▸ h.keys)
  rw [bne_iff_ne]
  intro he
  exact hdis (List.mem_map_of_mem hq) (he ▸ by simp)

/-! ### Duplicate keys and depth -/

mutual
lemma walk_of_means (g : GoVal) (v : Sbj) (d : ℕ) (h : g.Means v) (hd : d + v.nesting ≤ 12) :
    g.walk d = true := by
  match g with
  | .null | .bool _ | .num _ | .str _ => simp [walk]; omega
  | .arr l =>
    simp only [Means] at h
    obtain ⟨vs, rfl, hl⟩ := h
    rw [Sbj.nesting] at hd
    have hitems := Sbj.nestingItems_le.mp (Nat.le_refl (Sbj.nestingItems vs))
    simp only [walk, Bool.and_eq_true, decide_eq_true_eq]
    refine ⟨by omega, walkItems_of_means l vs (d + 1) hl fun v hv => ?_⟩
    have := hitems v hv
    omega
  | .obj m =>
    simp only [Means] at h
    obtain ⟨o, rfl, hs, hk, -, hm⟩ := h
    rw [Sbj.nesting] at hd
    have hmembers := Sbj.nestingMembers_le.mp (Nat.le_refl (Sbj.nestingMembers o))
    simp only [walk, Bool.and_eq_true, decide_eq_true_eq]
    refine ⟨⟨by omega, hk⟩, walkMembers_of_means m o (d + 1) hs hm fun p hp => ?_⟩
    have := hmembers p hp
    omega
lemma walkItems_of_means (l : List GoVal) (vs : List Sbj) (d : ℕ) (h : MeansItems l vs)
    (hd : ∀ v ∈ vs, d + v.nesting ≤ 12) : walkItems d l = true := by
  match l with
  | [] => rfl
  | g :: l =>
    obtain ⟨v, rest, rfl, hv, hrest⟩ := h
    simp only [walkItems, Bool.and_eq_true]
    exact ⟨walk_of_means g v d hv (hd v (by simp)),
      walkItems_of_means l rest d hrest fun w hw => hd w (by simp [hw])⟩
lemma walkMembers_of_means (m : List (Bytes × GoVal)) (o : List (Bytes × Sbj)) (d : ℕ)
    (hs : SortedAssoc.Sorted o) (h : MeansMembers m o) (hd : ∀ p ∈ o, d + p.2.nesting ≤ 12) :
    walkMembers d m = true := by
  match m with
  | [] => rfl
  | (k, g) :: m =>
    obtain ⟨⟨v, hv, hmeans⟩, hrest⟩ := h
    simp only [walkMembers, Bool.and_eq_true]
    exact ⟨walk_of_means g v d hmeans (hd (k, v) ((SortedAssoc.get_eq_some_iff hs).mp hv)),
      walkMembers_of_means m o d hs hrest hd⟩
end

end GoVal

variable [Platform]

lemma numberValue_kind (text : Bytes) (f : Bool) : (∃ u, numberValue text f = .uint u) ∨
    (∃ x, numberValue text f = .float x) ∨ ∃ i, numberValue text f = .int i := by
  unfold numberValue
  cases f with
  | true => exact Or.inr (Or.inl ⟨_, rfl⟩)
  | false =>
    simp only [Bool.false_eq_true, if_false]
    cases eat 0x2D text with
    | some d =>
      simp only
      split_ifs
      · exact Or.inr (Or.inr ⟨_, rfl⟩)
      · exact Or.inr (Or.inl ⟨_, rfl⟩)
    | none =>
      simp only [Sbj.ofUint]
      split_ifs
      · exact Or.inr (Or.inr ⟨_, rfl⟩)
      · exact Or.inl ⟨_, rfl⟩
      · exact Or.inr (Or.inl ⟨_, rfl⟩)

variable {v : Sbj} {fuel depth : ℕ}

lemma number_go (h : parseNumber s = .ok (v, r)) :
    ∃ f, scanNumber s = .ok (f, r) ∧ (GoVal.num (s.take (s.length - r.length))).Means v := by
  unfold parseNumber at h
  cases hscan : scanNumber s with
  | error e => rw [hscan] at h; cases h
  | ok p =>
    obtain ⟨f, r'⟩ := p
    simp only [hscan, Except.ok.injEq, Prod.mk.injEq] at h
    obtain ⟨rfl, rfl⟩ := h
    obtain ⟨q, rfl, hq, hf⟩ := scanNumber_sound hscan
    refine ⟨f, rfl, ?_⟩
    rw [List.length_append, Nat.add_sub_cancel, List.take_left, GoVal.Means]
    rcases numberValue_kind q f with hu | hx | ⟨i, hi⟩
    · exact Or.inl hu
    · exact Or.inr (Or.inl hx)
    · cases f with
      | true =>
        rw [numberValue, if_pos rfl] at hi
        cases hi
      | false =>
        obtain ⟨d, hne, hall, htext⟩ := literal_int hq hf.symm
        exact Or.inr (Or.inr ⟨i, hi, parseInt_of_numberValue hne hall htext hi⟩)

lemma parseScalar_go (h : parseScalar s = .ok (v, r)) :
    ∃ g, GoVal.readScalar s = some (g, r) ∧ g.Means v := by
  unfold parseScalar at h
  unfold GoVal.readScalar
  cases h1 : matchLit (lit "true") s with
  | some r1 =>
    simp only [h1] at h ⊢
    cases h
    exact ⟨_, rfl, by simp [GoVal.Means]⟩
  | none =>
    cases h2 : matchLit (lit "false") s with
    | some r2 =>
      simp only [h1, h2] at h ⊢
      cases h
      exact ⟨_, rfl, by simp [GoVal.Means]⟩
    | none =>
      cases h3 : matchLit (lit "null") s with
      | some r3 =>
        simp only [h1, h2, h3] at h ⊢
        cases h
        exact ⟨_, rfl, by simp [GoVal.Means]⟩
      | none =>
        simp only [h1, h2, h3] at h ⊢
        split_ifs at h
        obtain ⟨f, hscan, hmeans⟩ := number_go h
        rw [hscan]
        exact ⟨_, rfl, hmeans⟩

/-- What the two parsers have in common, at one amount of fuel. -/
structure SideBySide (fuel : ℕ) : Prop where
  value : ∀ {depth s v r}, parseValue true fuel depth s = .ok (v, r) →
    ∃ g, GoVal.readValue fuel s = some (g, r) ∧ g.Means v
  members : ∀ {depth o m s v r}, GoVal.MembersRead m o →
    parseMembers true fuel depth o s = .ok (v, r) →
    ∃ g, GoVal.readMembers fuel m s = some (g, r) ∧ g.Means v
  items : ∀ {depth a l s v r}, List.Forall₂ GoVal.Means l a →
    parseItems true fuel depth a s = .ok (v, r) →
    ∃ g, GoVal.readItems fuel l s = some (g, r) ∧ g.Means v

lemma parseValue_go (ih : SideBySide fuel) (h : parseValue true (fuel + 1) depth s = .ok (v, r)) :
    ∃ g, GoVal.readValue (fuel + 1) s = some (g, r) ∧ g.Means v := by
  rw [parseValue] at h
  rw [GoVal.readValue]
  cases hs : skipWs s with
  | nil => rw [hs] at h; cases h
  | cons c t =>
    simp only [hs] at h ⊢
    by_cases hobj : c = 0x7B
    · rw [if_pos hobj] at h ⊢
      split_ifs at h
      cases he : eat 0x7D (skipWs t) with
      | some t' =>
        simp only [he] at h ⊢
        cases h
        exact ⟨_, rfl, GoVal.MembersRead.nil.obj⟩
      | none =>
        simp only [he] at h ⊢
        exact ih.members .nil h
    · rw [if_neg hobj] at h ⊢
      by_cases harr : c = 0x5B
      · rw [if_pos harr] at h ⊢
        split_ifs at h
        cases he : eat 0x5D (skipWs t) with
        | some t' =>
          simp only [he] at h ⊢
          cases h
          exact ⟨_, rfl, [], rfl, by simp [GoVal.MeansItems]⟩
        | none =>
          simp only [he] at h ⊢
          exact ih.items .nil h
      · rw [if_neg harr] at h ⊢
        by_cases hstr : c = 0x22
        · rw [if_pos hstr] at h ⊢
          cases hp : parseString t with
          | error e => rw [hp] at h; cases h
          | ok p =>
            obtain ⟨b, t'⟩ := p
            rw [hp] at h
            cases h
            rw [readString_go hp]
            exact ⟨_, rfl, by simp [GoVal.Means]⟩
        · rw [if_neg hstr] at h ⊢
          exact parseScalar_go h

lemma parseMembers_go {o : List (Bytes × Sbj)} {m : List (Bytes × GoVal)}
    (ih : SideBySide fuel) (hm : GoVal.MembersRead m o)
    (h : parseMembers true (fuel + 1) depth o s = .ok (v, r)) :
    ∃ g, GoVal.readMembers (fuel + 1) m s = some (g, r) ∧ g.Means v := by
  rw [parseMembers] at h
  rw [GoVal.readMembers]
  cases hq : eat 0x22 (skipWs s) with
  | none => rw [hq] at h; cases h
  | some t =>
    simp only [hq] at h
    cases hk : parseString t with
    | error e => rw [hk] at h; cases h
    | ok p =>
      obtain ⟨key, t1⟩ := p
      have hkey := readString_go hk
      simp only [hk] at h
      split_ifs at h with hdup
      have hnew : SortedAssoc.get o key = none := by simpa using hdup
      cases hcolon : eat 0x3A (skipWs t1) with
      | none => rw [hcolon] at h; cases h
      | some t2 =>
        simp only [hcolon] at h
        cases hval : parseValue true fuel depth t2 with
        | error e => rw [hval] at h; cases h
        | ok q =>
          obtain ⟨val, t3⟩ := q
          obtain ⟨g, hg, hmeans⟩ := ih.value hval
          have hnext := hm.snoc hnew hmeans
          simp only [hval] at h
          simp only [Option.bind_some, hkey, hcolon, hg, Option.bind_eq_bind]
          cases hcomma : eat 0x2C (skipWs t3) with
          | some t4 =>
            simp only [hcomma] at h ⊢
            exact ih.members hnext h
          | none =>
            cases hend : eat 0x7D (skipWs t3) with
            | none => simp [hcomma, hend] at h
            | some t4 =>
              simp only [hcomma, hend] at h ⊢
              cases h
              exact ⟨_, rfl, hnext.obj⟩

lemma parseItems_go {a : List Sbj} {l : List GoVal}
    (ih : SideBySide fuel) (hl : List.Forall₂ GoVal.Means l a)
    (h : parseItems true (fuel + 1) depth a s = .ok (v, r)) :
    ∃ g, GoVal.readItems (fuel + 1) l s = some (g, r) ∧ g.Means v := by
  rw [parseItems] at h
  rw [GoVal.readItems]
  cases hval : parseValue true fuel depth s with
  | error e => rw [hval] at h; cases h
  | ok q =>
    obtain ⟨val, t⟩ := q
    obtain ⟨g, hg, hmeans⟩ := ih.value hval
    have hnext : List.Forall₂ GoVal.Means (l ++ [g]) (a ++ [val]) :=
      List.rel_append hl (.cons hmeans .nil)
    simp only [hval] at h
    simp only [hg, Option.bind_eq_bind, Option.bind_some]
    cases hcomma : eat 0x2C (skipWs t) with
    | some t4 =>
      simp only [hcomma] at h ⊢
      exact ih.items hnext h
    | none =>
      cases hend : eat 0x5D (skipWs t) with
      | none => simp [hcomma, hend] at h
      | some t4 =>
        simp only [hcomma, hend] at h ⊢
        cases h
        exact ⟨_, rfl, _, rfl, GoVal.meansItems_iff.mpr hnext⟩

lemma sideBySide (fuel : ℕ) : SideBySide fuel := by
  induction fuel with
  | zero =>
    refine ⟨?_, ?_, ?_⟩
    · intro depth s v r h; simp [parseValue] at h
    · intro depth o m s v r _ h; simp [parseMembers] at h
    · intro depth a l s v r _ h; simp [parseItems] at h
  | succ fuel ih => exact ⟨parseValue_go ih, parseMembers_go ih, parseItems_go ih⟩

lemma read_of_parseStrict {text : Bytes} (h : sbjParseStrict text = .ok v) :
    goString text = text ∧ ∃ g, GoVal.read text = some g ∧ g.Means v := by
  have hd := parseDocument_of_strict h
  obtain ⟨t, ⟨w, s, w', htext, hw, ht, hw'⟩, -⟩ := (parseDocument_iff true text v).mp hd
  have hnul : NoNul text := by simpa [htext] using ⟨NoNul.ws hw, NoNul.value ht, NoNul.ws hw'⟩
  unfold parseDocument at hd
  cases hv : parseValue true (2 * text.length + 1) 0 text with
  | error e => rw [hv] at hd; cases hd
  | ok p =>
    obtain ⟨w, r⟩ := p
    simp only [hv] at hd
    split_ifs at hd with hend
    cases hd
    obtain ⟨g, hg, hmeans⟩ := (sideBySide _).value hv
    refine ⟨?_, g, by simp [GoVal.read, hg, hend], hmeans⟩
    rw [goString, List.takeWhile_eq_self_iff]
    exact fun c hc => bne_iff_ne.mpr (hnul c hc)

end SbEasy

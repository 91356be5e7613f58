import SbEasy.JsonRoundTrip

/-!
What the parser returns is well formed, and with it the round trip of whole texts.
-/

namespace SbEasy

namespace Sbj

lemma wfItems_iff {l : List Sbj} : WfItems l ↔ ∀ v ∈ l, v.Wf := by
  induction l with
  | nil => simp [WfItems]
  | cons v l ih => simp [WfItems, ih]

lemma wfMembers_iff {m : List (Bytes × Sbj)} :
    WfMembers m ↔ ∀ p ∈ m, Utf8.Valid p.1 ∧ p.2.Wf := by
  induction m with
  | nil => simp [WfMembers]
  | cons p m ih => simp [WfMembers, ih, and_assoc]

lemma nestingItems_le {l : List Sbj} {n : ℕ} : nestingItems l ≤ n ↔ ∀ v ∈ l, v.nesting ≤ n := by
  induction l with
  | nil => simp [nestingItems]
  | cons v l ih => simp [nestingItems, ih]

lemma nestingMembers_le {m : List (Bytes × Sbj)} {n : ℕ} :
    nestingMembers m ≤ n ↔ ∀ p ∈ m, p.2.nesting ≤ n := by
  induction m with
  | nil => simp [nestingMembers]
  | cons p m ih => simp [nestingMembers, ih]

lemma wf_ofUint {u : ℕ} (h : (u : ℤ) ≤ uint64Max) : (ofUint u).Wf ∧ (ofUint u).nesting = 0 := by
  unfold ofUint
  split_ifs with hu
  · have : int64Min ≤ 0 := by decide
    exact ⟨⟨by omega, hu⟩, rfl⟩
  · exact ⟨⟨by omega, h⟩, rfl⟩

mutual
lemma validateUtf8_of_wf (v : Sbj) (h : v.Wf) : v.validateUtf8 = .ok () := by
  cases v with
  | str s => exact Utf8.check_of_valid h
  | arr l => exact validateItems_of_wf l h
  | obj m => exact validateMembers_of_wf m h.2
  | _ => rfl
lemma validateItems_of_wf (l : List Sbj) (h : WfItems l) : validateItems l = .ok () := by
  match l with
  | [] => rfl
  | v :: l =>
    rw [validateItems, validateUtf8_of_wf v h.1]
    exact validateItems_of_wf l h.2
lemma validateMembers_of_wf (m : List (Bytes × Sbj)) (h : WfMembers m) :
    validateMembers m = .ok () := by
  match m with
  | [] => rfl
  | (k, v) :: m =>
    rw [validateMembers, Utf8.check_of_valid h.1, validateUtf8_of_wf v h.2.1]
    exact validateMembers_of_wf m h.2.2
end

end Sbj

namespace JsonParse

/-- A value the parser may return with `room` for containers left. -/
def Fits (room : ℕ) (v : Sbj) : Prop := v.Wf ∧ v.nesting ≤ room

lemma fits_obj {m : List (Bytes × Sbj)} {room : ℕ} (hs : SortedAssoc.Sorted m)
    (h : ∀ p ∈ m, Utf8.Valid p.1 ∧ Fits room p.2) : Fits (room + 1) (.obj m) :=
  ⟨⟨hs, Sbj.wfMembers_iff.mpr fun p hp => ⟨(h p hp).1, (h p hp).2.1⟩⟩,
    Nat.succ_le_succ (Sbj.nestingMembers_le.mpr fun p hp => (h p hp).2.2)⟩

lemma fits_arr {l : List Sbj} {room : ℕ} (h : ∀ x ∈ l, Fits room x) : Fits (room + 1) (.arr l) :=
  ⟨Sbj.wfItems_iff.mpr fun x hx => (h x hx).1,
    Nat.succ_le_succ (Sbj.nestingItems_le.mpr fun x hx => (h x hx).2)⟩

open Rfc8259 (Tree Chars Value Items Member Members Text)

/-! ### What the grammar derives -/

lemma chars_valid {d q : Bytes} (h : Chars d q) : Utf8.Valid d := by
  induction h with
  | nil => exact .nil
  | plain hc _ _ ih => exact .cons hc ih
  | escape he _ ih =>
    have hlt : ∀ p ∈ Rfc8259.escapes, p.2 < 0x80 := by simp [Rfc8259.escapes]
    exact .cons (c := [_]) (by simpa [Utf8.char] using hlt _ he) ih
  | unicode hq h1 h2 _ ih =>
    have hs := (unicode_complete (.one hq h1 h2) []).2
    exact .cons (putUtf8_eq hs ▸ putUtf8_char hs) ih
  | pair hq h1 hl h2 _ ih =>
    have hs := scalar_pair h1 h2
    exact .cons (putUtf8_eq hs ▸ putUtf8_char hs) ih

variable [Platform]

lemma numberValue_fits (num : Bytes) (isFloat : Bool) (room : ℕ) :
    Fits room (numberValue num isFloat) := by
  have hfloat : ∀ x, Fits room (.float x) := fun x => ⟨trivial, Nat.zero_le _⟩
  unfold numberValue
  cases isFloat with
  | true => exact hfloat _
  | false =>
    simp only [Bool.false_eq_true, if_false]
    cases eat 0x2D num with
    | some d =>
      simp only
      split_ifs with hd
      · have : (0 : ℤ) ≤ int64Max := by decide
        exact ⟨⟨hd, by omega⟩, Nat.zero_le _⟩
      · exact hfloat _
    | none =>
      simp only
      split_ifs with hd
      · obtain ⟨h1, h2⟩ := Sbj.wf_ofUint hd
        exact ⟨h1, by omega⟩
      · exact hfloat _

mutual
lemma value_fits {t : Tree} {s : Bytes} (h : Value t s) {room : ℕ} (hd : t.depth ≤ room) :
    Fits room t.value := by
  match h with
  | .null | .true | .false => exact ⟨trivial, Nat.zero_le _⟩
  | .number _ => exact numberValue_fits _ _ _
  | .string hq => exact ⟨chars_valid hq, Nat.zero_le _⟩
  | .emptyArray _ => exact ⟨trivial, hd⟩
  | .emptyObject _ => exact ⟨⟨.nil, trivial⟩, hd⟩
  | .array _ hts _ =>
    obtain ⟨n, rfl⟩ : ∃ n, room = n + 1 := ⟨room - 1, by rw [Tree.depth] at hd; omega⟩
    exact fits_arr (items_fit hts (Nat.le_of_succ_le_succ hd))
  | .object _ hms _ =>
    obtain ⟨n, rfl⟩ : ∃ n, room = n + 1 := ⟨room - 1, by rw [Tree.depth] at hd; omega⟩
    obtain ⟨hs, hm⟩ := members_fit hms (Nat.le_of_succ_le_succ hd) .nil (by simp)
    exact fits_obj hs hm
lemma items_fit {ts : List Tree} {s : Bytes} (h : Items ts s) {room : ℕ}
    (hd : Tree.depthItems ts ≤ room) : ∀ x ∈ Tree.valueItems ts, Fits room x := by
  match h with
  | .last hv =>
    simpa [Tree.valueItems] using value_fits hv (max_le_iff.mp hd).1
  | .more hv _ _ hts =>
    obtain ⟨h1, h2⟩ := max_le_iff.mp hd
    simpa [Tree.valueItems] using ⟨value_fits hv h1, items_fit hts h2⟩
lemma members_fit {ms : List (Bytes × Tree)} {s : Bytes} (h : Members ms s) {room : ℕ}
    (hd : Tree.depthMembers ms ≤ room) {o : List (Bytes × Sbj)} (ho : SortedAssoc.Sorted o)
    (hall : ∀ p ∈ o, Utf8.Valid p.1 ∧ Fits room p.2) :
    SortedAssoc.Sorted (Tree.valueMembers o ms) ∧
      ∀ p ∈ Tree.valueMembers o ms, Utf8.Valid p.1 ∧ Fits room p.2 := by
  match h with
  | .last hm => exact member_fits hm (max_le_iff.mp hd).1 ho hall
  | .more hm _ _ hms =>
    obtain ⟨h1, h2⟩ := max_le_iff.mp hd
    obtain ⟨hs, hset⟩ := member_fits hm h1 ho hall
    exact members_fit hms h2 hs hset
lemma member_fits {k : Bytes} {t : Tree} {s : Bytes} (h : Member k t s) {room : ℕ}
    (hd : t.depth ≤ room) {o : List (Bytes × Sbj)} (ho : SortedAssoc.Sorted o)
    (hall : ∀ p ∈ o, Utf8.Valid p.1 ∧ Fits room p.2) :
    SortedAssoc.Sorted (SortedAssoc.set o k t.value) ∧
      ∀ p ∈ SortedAssoc.set o k t.value, Utf8.Valid p.1 ∧ Fits room p.2 := by
  match h with
  | .mk hk _ _ hv =>
    refine ⟨SortedAssoc.sorted_set ho _, fun p hp => ?_⟩
    rcases SortedAssoc.mem_set ho hp with rfl | hp
    · exact ⟨chars_valid hk, value_fits hv hd⟩
    · exact hall p hp
end

variable {v : Sbj}

/-- What `parse_document` returns is well formed and not too deep. -/
lemma parseDocument_fits {strict : Bool} {text : Bytes}
    (h : parseDocument strict text = .ok v) : Fits maxDepth v := by
  obtain ⟨t, ⟨w, s, w', -, -, ht, -⟩, hd, -, rfl⟩ := (parseDocument_iff strict text v).mp h
  exact value_fits ht hd

lemma sbjParse_fits {text : Bytes} (h : sbjParse text = .ok v) : Fits maxDepth v := by
  unfold sbjParse at h
  cases hd : parseDocument false text with
  | error e => rw [hd] at h; cases h
  | ok w => rw [hd] at h; cases h; exact parseDocument_fits hd

lemma parseDocument_of_strict {text : Bytes} (h : sbjParseStrict text = .ok v) :
    parseDocument true text = .ok v := by
  unfold sbjParseStrict at h
  cases hd : parseDocument true text with
  | error e => rw [hd] at h; cases h
  | ok w =>
    simp only [hd, Sbj.validateUtf8_of_wf w (parseDocument_fits hd).1] at h
    cases h; rfl

lemma sbjParseStrict_fits {text : Bytes} (h : sbjParseStrict text = .ok v) :
    Fits maxDepth v := parseDocument_fits (parseDocument_of_strict h)

lemma strict_iff_document (text : Bytes) (v : Sbj) :
    sbjParseStrict text = .ok v ↔ parseDocument true text = .ok v := by
  unfold sbjParseStrict
  cases h : parseDocument true text with
  | error e => simp
  | ok x =>
    have hwf := (parseDocument_fits h).1
    simp [Sbj.validateUtf8_of_wf x hwf, Except.mapError, Except.map]

/-! ### Whole texts -/

lemma parseDocument_dump (hv : Fits maxDepth v) (hf : v.floatFree = true)
    (strict : Bool) (indent : ℤ) : parseDocument strict (dump v indent) = .ok v := by
  obtain ⟨t, ht, hread⟩ := dumpValue_derives strict indent v hv.1 hf 0 maxDepth hv.2
  have hws : Rfc8259.Ws [] := by simp [Rfc8259.Ws]
  exact (parseDocument_iff strict _ v).mpr
    ⟨t, ⟨[], _, [], (List.append_nil _).symm, hws, ht, hws⟩, hread.depth, hread.distinct, hread.value⟩

lemma sbjParse_dump (hv : Fits maxDepth v) (hf : v.floatFree = true) (indent : ℤ) :
    sbjParse (dump v indent) = .ok v := by
  rw [sbjParse, parseDocument_dump hv hf]; rfl

lemma sbjParseStrict_dump (hv : Fits maxDepth v) (hf : v.floatFree = true)
    (indent : ℤ) : sbjParseStrict (dump v indent) = .ok v := by
  rw [sbjParseStrict, parseDocument_dump hv hf]
  simp only [Sbj.validateUtf8_of_wf v hv.1]; rfl

/-- **Round trip**: both parsers read a dumped value back, with any indentation; dumps are
injective; and what either parser returns survives a further dump and parse. -/
theorem parse_dump_round_trip :
    (∀ v : Sbj, v.Wf → v.floatFree = true → v.nesting ≤ maxDepth → ∀ indent : ℤ,
      sbjParse (dump v indent) = .ok v ∧ sbjParseStrict (dump v indent) = .ok v) ∧
    (∀ v w : Sbj, v.Wf → v.floatFree = true → v.nesting ≤ maxDepth →
      w.Wf → w.floatFree = true → w.nesting ≤ maxDepth → ∀ i j : ℤ, dump v i = dump w j → v = w) ∧
    (∀ (text : Bytes) (v : Sbj), sbjParse text = .ok v ∨ sbjParseStrict text = .ok v →
      v.floatFree = true → ∀ indent : ℤ,
        sbjParse (dump v indent) = .ok v ∧ sbjParseStrict (dump v indent) = .ok v) := by
  refine ⟨fun v hw hf hn indent => ?_, fun v w hw hf hn hw' hf' hn' i j he => ?_,
    fun text v h hf indent => ?_⟩
  · exact ⟨sbjParse_dump ⟨hw, hn⟩ hf indent, sbjParseStrict_dump ⟨hw, hn⟩ hf indent⟩
  · have h1 := sbjParse_dump ⟨hw, hn⟩ hf i
    rw [he, sbjParse_dump ⟨hw', hn'⟩ hf' j] at h1
    exact (Except.ok.inj h1).symm
  · have hv : Fits maxDepth v := h.elim sbjParse_fits sbjParseStrict_fits
    exact ⟨sbjParse_dump hv hf indent, sbjParseStrict_dump hv hf indent⟩

/-- A value with every kind of integer, a NUL byte, an escape and a two-byte character. -/
def sampleValue : Sbj :=
  .obj [(lit "a", .arr [.int (-1), .uint 18446744073709551615, .str [0xC3, 0xA9, 0, 0x22]]),
    (lit "b", .null)]

omit [Platform] in
theorem parse_dump_sampleValue :
    @sbjParse .sample (@dump .sample sampleValue 2) = .ok sampleValue := by
  refine (@parse_dump_round_trip .sample).1 sampleValue ⟨by decide, ?_⟩ (by decide) (by decide) 2 |>.1
  refine ⟨.ascii (by decide), ⟨⟨by decide, by decide⟩, ⟨by decide, by decide⟩, ?_, trivial⟩,
    .ascii (by decide), trivial, trivial⟩
  exact .cons (c := [0xC3, 0xA9]) rfl (.ascii (by decide))

/-- **The parser is RFC 8259**: `sbj_parse` accepts the texts of the grammar that nest at most
512 deep, with the value of the last member for every key. `sbj_parse_strict` accepts those of
them whose objects have distinct keys, with the same value. -/
theorem sbjParse_iff_rfc8259 (text : Bytes) (v : Sbj) :
    (sbjParse text = .ok v ↔ ∃ t, Text t text ∧ t.depth ≤ 512 ∧ v = t.value) ∧
    (sbjParseStrict text = .ok v ↔
      ∃ t, Text t text ∧ t.depth ≤ 512 ∧ t.DistinctKeys ∧ v = t.value ∧ sbjParse text = .ok v) ∧
    (parseDocument true text = .ok v ↔ sbjParseStrict text = .ok v) ∧
    ∀ (ms : List (Bytes × Tree)) (k : Bytes), Sbj.get (some (Tree.object ms).value) k =
      (ms.reverse.find? fun m => m.1 = k).map fun m => m.2.value := by
  have hlax := lax_iff_document text v
  refine ⟨?_, ?_, (strict_iff_document text v).symm, fun ms k => ?_⟩
  · simp [hlax, parseDocument_iff, maxDepth]
  · rw [strict_iff_document, parseDocument_iff, hlax, parseDocument_iff]
    constructor
    · rintro ⟨t, ht, hd, hdist, rfl⟩
      exact ⟨t, ht, hd, hdist rfl, rfl, t, ht, hd, by simp, rfl⟩
    · rintro ⟨t, ht, hd, hdist, hv, -⟩
      exact ⟨t, ht, hd, fun _ => hdist, hv⟩
  · change SortedAssoc.get (Tree.valueMembers [] ms) k = _
    rw [Tree.get_valueMembers .nil, SortedAssoc.get_nil, Option.or_none]

end JsonParse
end SbEasy

import SbEasy.JsonGrammar

/-!
A dumped text is derived by the grammar, and its value is the one that was dumped.

An indentation only ever adds white space between tokens, and the members of a sorted object come
back in the order in which `sbj_setn` appends them.
-/

namespace SbEasy

namespace Sbj

mutual
/-- What the constructors and the parser keep up: integers in range, strings and keys in
UTF-8, keys sorted. -/
def Wf : Sbj → Prop
  | .null | .bool _ | .float _ => True
  | .int i => int64Min ≤ i ∧ i ≤ int64Max
  | .uint u => int64Max < u ∧ u ≤ uint64Max
  | .str s => Utf8.Valid s
  | .arr l => WfItems l
  | .obj m => SortedAssoc.Sorted m ∧ WfMembers m
def WfItems : List Sbj → Prop
  | [] => True
  | v :: l => Wf v ∧ WfItems l
def WfMembers : List (Bytes × Sbj) → Prop
  | [] => True
  | (k, v) :: m => Utf8.Valid k ∧ Wf v ∧ WfMembers m
end

mutual
def floatFree : Sbj → Bool
  | .float _ => false
  | .arr l => floatFreeItems l
  | .obj m => floatFreeMembers m
  | _ => true
def floatFreeItems : List Sbj → Bool
  | [] => true
  | v :: l => floatFree v && floatFreeItems l
def floatFreeMembers : List (Bytes × Sbj) → Bool
  | [] => true
  | (_, v) :: m => floatFree v && floatFreeMembers m
end

mutual
/-- The number of containers around the innermost value. -/
def nesting : Sbj → ℕ
  | .arr l => nestingItems l + 1
  | .obj m => nestingMembers m + 1
  | _ => 0
def nestingItems : List Sbj → ℕ
  | [] => 0
  | v :: l => max (nesting v) (nestingItems l)
def nestingMembers : List (Bytes × Sbj) → ℕ
  | [] => 0
  | (_, v) :: m => max (nesting v) (nestingMembers m)
end

end Sbj

namespace JsonParse

open Rfc8259 (Tree Ws Chars Number Value Items Member Members Hex4)

/-! ### Strings and numbers -/

lemma utf8_ascii {a : UInt8} (ha : a.toNat < 0x80) : Rfc8259.utf8 a.toNat = [a] := by
  rw [← putUtf8_eq ⟨by omega, by omega⟩, putUtf8_nat (by omega), if_pos ha]
  simp [Nat.toUInt8]

lemma hex_control : ∀ n < 0x20, Rfc8259.hexDigit (hexDigit (UInt8.ofNat n >>> 4)) = some (n / 16) ∧
    Rfc8259.hexDigit (hexDigit (UInt8.ofNat n &&& 0x0F)) = some (n % 16) := by
  decide +kernel

lemma chars_escape {a : UInt8} (ha : a < 0x80) {b s : Bytes} (h : Chars b s) :
    Chars (a :: b) ((escape a).getD [a] ++ s) := by
  have hlt : a.toNat < 0x80 := by simpa [UInt8.lt_iff_toNat_lt] using ha
  unfold escape
  split_ifs with h1 h2 h3 h4 h5 h6 h7 h8
  · subst h1; exact .escape (by decide) h
  · subst h2; exact .escape (by decide) h
  · subst h3; exact .escape (by decide) h
  · subst h4; exact .escape (by decide) h
  · subst h5; exact .escape (by decide) h
  · subst h6; exact .escape (by decide) h
  · subst h7; exact .escape (by decide) h
  · obtain ⟨hhi, hlo⟩ := hex_control a.toNat (by simpa [UInt8.lt_iff_toNat_lt] using h8)
    rw [UInt8.ofNat_toNat] at hhi hlo
    have hzero : Rfc8259.hexDigit 0x30 = some 0 := rfl
    have hex : Hex4 a.toNat [0x30, 0x30, hexDigit (a >>> 4), hexDigit (a &&& 0x0F)] := by
      have := Hex4.mk hzero hzero hhi hlo
      rwa [show 0 * 4096 + 0 * 256 + a.toNat / 16 * 16 + a.toNat % 16 = a.toNat by omega] at this
    have := Chars.unicode hex (by unfold Rfc8259.High; omega) (by unfold Rfc8259.Low; omega) h
    rwa [utf8_ascii hlt] at this
  · refine .plain (c := [a]) (by simpa [Utf8.char] using ha) ?_ h
    simpa using ⟨UInt8.not_lt.mp h8, h1, h2⟩

lemma chars_escaped {s : Bytes} (h : Utf8.Valid s) : Chars s (escaped s) := by
  induction h with
  | nil => exact .nil
  | @cons c s hc hs ih =>
    have happ : escaped (c ++ s) = escaped c ++ escaped s := List.flatMap_append
    rw [happ]
    rcases Utf8.char_bytes hc with ⟨a, rfl, ha⟩ | hhigh
    · simpa [escaped] using chars_escape ha ih
    · rw [escaped_high hhigh]
      refine .plain hc (fun x hx => ?_) ih
      have hx := hhigh x hx
      exact ⟨UInt8.le_trans (by decide) hx, by rintro rfl; simp at hx, by rintro rfl; simp at hx⟩

lemma int_decimal (n : ℕ) : Rfc8259.Int (decimal n) := by
  obtain ⟨hdigit, ⟨d, ds, hs, hzero⟩, -⟩ := decimal_digits n
  rw [hs] at hdigit ⊢
  by_cases h0 : d = 0x30
  · rw [h0, hzero h0]
    exact .zero
  · obtain ⟨hd1, hd2⟩ := isDigit_iff.mp (hdigit d (by simp))
    refine .positive ?_ hd2 fun c hc => isDigit_iff.mp (hdigit c (by simp [hc]))
    have hne : d.toNat ≠ 0x30 := fun he => h0 (UInt8.toNat_inj.mp he)
    simp only [UInt8.le_iff_toNat_le] at hd1 ⊢
    simp at hd1 ⊢
    omega

lemma number_sign {m : Bytes} (hm : m = [] ∨ m = [0x2D]) (n : ℕ) :
    Number (m ++ decimal n) ∧ Rfc8259.isFloat (m ++ decimal n) = false := by
  have h := isFloat_parts hm (int_decimal n) .none .none
  have hn := Number.mk hm (int_decimal n) .none .none
  simp only [List.append_nil] at h hn
  exact ⟨hn, by simpa using h⟩

variable [Platform]

lemma value_decimal {n : ℕ} (hn : (n : ℤ) ≤ uint64Max) :
    (Tree.number (decimal n)).value = Sbj.ofUint n := by
  obtain ⟨hdigit, ⟨d, ds, hs, -⟩, hval⟩ := decimal_digits n
  have hne : eat 0x2D (decimal n) = none := by
    rw [hs]
    exact eat_cons_ne (digit_ne_minus (hdigit d (by simp [hs]))) _
  have hf : Rfc8259.isFloat (decimal n) = false := (number_sign (m := []) (Or.inl rfl) n).2
  simp only [Tree.value, hf, numberValue, hne, hval, hn, if_true, Bool.false_eq_true, if_false]

lemma value_minus {n : ℕ} (hn : int64Min ≤ -(n : ℤ)) :
    (Tree.number (0x2D :: decimal n)).value = .int (-(n : ℤ)) := by
  have hf : Rfc8259.isFloat (0x2D :: decimal n) = false :=
    (number_sign (m := [0x2D]) (Or.inr rfl) n).2
  simp only [Tree.value, hf, numberValue, eat_cons_self, (decimal_digits n).value, hn, if_true,
    Bool.false_eq_true, if_false]

lemma number_decimalInt {i : ℤ} (h1 : int64Min ≤ i) (h2 : i ≤ int64Max) :
    Number (decimalInt i) ∧ (Tree.number (decimalInt i)).value = .int i := by
  unfold decimalInt
  split_ifs with hi
  · have he : -(i.natAbs : ℤ) = i := by omega
    exact ⟨(number_sign (m := [0x2D]) (Or.inr rfl) _).1, by rw [value_minus (by omega), he]⟩
  · have he : (i.natAbs : ℤ) = i := by omega
    have hm : int64Max ≤ uint64Max := by decide
    refine ⟨(number_sign (m := []) (Or.inl rfl) _).1, ?_⟩
    rw [value_decimal (by omega), Sbj.ofUint, if_pos (by omega), he]

/-! ### Values -/

omit [Platform] in
lemma ws_newline (indent : ℤ) (level : ℕ) : Ws (newline indent level) := by
  intro c hc
  unfold newline at hc
  split_ifs at hc
  · rcases List.mem_cons.mp hc with rfl | hc
    · decide
    · exact .inl (List.eq_of_mem_replicate hc)
  · cases hc

omit [Platform] in
lemma fresh_last {o m : List (Bytes × Sbj)} {k : Bytes} {v : Sbj}
    (hs : SortedAssoc.Sorted (o ++ (k, v) :: m)) : SortedAssoc.Sorted o ∧
      SortedAssoc.get o k = none ∧ SortedAssoc.set o k v = o ++ [(k, v)] := by
  obtain ⟨ho, -, hlt⟩ := List.pairwise_append.mp hs
  have hbelow : ∀ p ∈ o, compare p.1 k = .lt := fun p hp => hlt p hp (k, v) (by simp)
  refine ⟨ho, Option.eq_none_iff_forall_ne_some.mpr fun x hx => ?_,
    SortedAssoc.set_last ho v hbelow⟩
  have := hbelow _ ((SortedAssoc.get_eq_some_iff ho).mp hx)
  simp at this

omit [Platform] in
lemma dumpMember_derives {k s : Bytes} {t : Tree} (indent : ℤ) (hk : Utf8.Valid k)
    (h : Value t s) :
    Member k t (dumpString k ++ ((if indent ≥ 0 then lit ": " else lit ":") ++ s)) := by
  obtain ⟨sp, hsp, hcolon⟩ : ∃ sp : Bytes, Ws sp ∧
      (if indent ≥ 0 then lit ": " else lit ":") = 0x3A :: sp := by
    split_ifs
    · exact ⟨[0x20], by simp [Ws], rfl⟩
    · exact ⟨[], by simp [Ws], rfl⟩
  rw [hcolon, dumpString_eq]
  simpa using Member.mk (chars_escaped hk) (w := []) (by simp [Ws]) hsp h

section

variable (strict : Bool) (indent : ℤ)

mutual
lemma dumpValue_derives (v : Sbj) (hv : v.Wf) (hf : v.floatFree = true) (level room : ℕ)
    (hroom : v.nesting ≤ room) :
    ∃ t, Value t (dumpValue indent level v) ∧ Reads strict room t v := by
  match v with
  | .null => exact ⟨.null, .null, Nat.zero_le _, fun _ => trivial, rfl⟩
  | .bool true => exact ⟨.bool true, .true, Nat.zero_le _, fun _ => trivial, rfl⟩
  | .bool false => exact ⟨.bool false, .false, Nat.zero_le _, fun _ => trivial, rfl⟩
  | .int i =>
    obtain ⟨hn, hval⟩ := number_decimalInt hv.1 hv.2
    exact ⟨.number _, .number hn, Nat.zero_le _, fun _ => trivial, hval.symm⟩
  | .uint u =>
    obtain ⟨h1, h2⟩ := hv
    have hval := value_decimal h2
    rw [Sbj.ofUint, if_neg (by omega)] at hval
    exact ⟨.number _, .number (number_sign (m := []) (Or.inl rfl) u).1, Nat.zero_le _,
      fun _ => trivial, hval.symm⟩
  | .float x => simp [Sbj.floatFree] at hf
  | .str s =>
    rw [dumpValue, dumpString_eq]
    exact ⟨.string s, .string (chars_escaped hv), Nat.zero_le _, fun _ => trivial, rfl⟩
  | .arr [] =>
    exact ⟨.array [], .emptyArray (w := []) (by simp [Ws]), hroom, fun _ => trivial, rfl⟩
  | .arr (x :: l) =>
    rw [Sbj.nesting] at hroom
    obtain ⟨ts, hts, hread, hval⟩ := dumpItems_derives x l hv hf (level + 1) (room - 1) (by omega)
    have hd := hread.depth
    refine ⟨.array ts, ?_, by rw [Tree.depth]; omega, hread.distinct, by rw [Tree.value, hval]⟩
    simpa [dumpValue] using Value.array (ws_newline indent (level + 1)) hts (ws_newline indent level)
  | .obj [] =>
    exact ⟨.object [], .emptyObject (w := []) (by simp [Ws]), hroom,
      fun _ => ⟨.nil, trivial⟩, rfl⟩
  | .obj ((k, x) :: m) =>
    rw [Sbj.nesting] at hroom
    obtain ⟨ms, hms, hread, hval⟩ := dumpMembers_derives k x m hv.2 hf (level + 1) (room - 1) []
      hv.1 (by omega)
    have hd := hread.depth
    refine ⟨.object ms, ?_, by rw [Tree.depth]; omega,
      fun hst => ⟨hread.nodup hst, hread.distinct hst⟩, by rw [Tree.value, hval]; rfl⟩
    simpa [dumpValue] using Value.object (ws_newline indent (level + 1)) hms
      (ws_newline indent level)
termination_by sizeOf v
lemma dumpItems_derives (v : Sbj) (l : List Sbj) (hv : Sbj.WfItems (v :: l))
    (hf : Sbj.floatFreeItems (v :: l) = true) (level room : ℕ)
    (hroom : Sbj.nestingItems (v :: l) ≤ room) :
    ∃ ts, Items ts (dumpValue indent level v ++ dumpItems indent level l) ∧
      ReadsItems strict room ts ∧ Tree.valueItems ts = v :: l := by
  obtain ⟨hfv, hfl⟩ := Bool.and_eq_true_iff.mp hf
  obtain ⟨hrv, hrl⟩ := max_le_iff.mp hroom
  obtain ⟨t, ht, hread⟩ := dumpValue_derives v hv.1 hfv level room hrv
  match l, hv, hfl, hrl with
  | [], _, _, _ =>
    refine ⟨[t], ?_, .cons hread ⟨Nat.zero_le _, fun _ => trivial⟩, by rw [hread.value]; rfl⟩
    rw [dumpItems, List.append_nil]
    exact .last ht
  | v' :: l, hv, hfl, hrl =>
    obtain ⟨ts, hts, hreads, hval⟩ := dumpItems_derives v' l hv.2 hfl level room hrl
    refine ⟨t :: ts, ?_, .cons hread hreads, by rw [Tree.valueItems, hval, hread.value]⟩
    simpa [dumpItems] using Items.more ht (w := []) (by simp [Ws]) (ws_newline indent level) hts
termination_by sizeOf v + sizeOf l + 1
lemma dumpMembers_derives (k : Bytes) (v : Sbj) (m : List (Bytes × Sbj))
    (hv : Sbj.WfMembers ((k, v) :: m)) (hf : Sbj.floatFreeMembers ((k, v) :: m) = true)
    (level room : ℕ) (o : List (Bytes × Sbj)) (hs : SortedAssoc.Sorted (o ++ (k, v) :: m))
    (hroom : Sbj.nestingMembers ((k, v) :: m) ≤ room) :
    ∃ ms, Members ms (dumpString k ++ ((if indent ≥ 0 then lit ": " else lit ":") ++
        (dumpValue indent level v ++ dumpMembers indent level m))) ∧
      ReadsMembers strict room o ms ∧ Tree.valueMembers o ms = o ++ (k, v) :: m := by
  obtain ⟨hfv, hfm⟩ := Bool.and_eq_true_iff.mp hf
  obtain ⟨hrv, hrm⟩ := max_le_iff.mp hroom
  obtain ⟨ho, hnew, hset⟩ := fresh_last hs
  obtain ⟨t, ht, hread⟩ := dumpValue_derives v hv.2.1 hfv level room hrv
  have hmember := dumpMember_derives indent hv.1 ht
  match m, hv, hfm, hrm, hs with
  | [], _, _, _, _ =>
    refine ⟨[(k, t)], ?_, .cons ho (fun _ => hnew) hread .nil, ?_⟩
    · rw [dumpMembers, List.append_nil]
      exact .last hmember
    · rw [Tree.valueMembers, ← hread.value, hset]
      rfl
  | (k', v') :: m, hv, hfm, hrm, hs =>
    obtain ⟨ms, hms, hreads, hval⟩ := dumpMembers_derives k' v' m hv.2.2 hfm level room
      (o ++ [(k, v)]) (by simpa using hs) hrm
    refine ⟨(k, t) :: ms, ?_, .cons ho (fun _ => hnew) hread (hset ▸ hreads), ?_⟩
    · simpa [dumpMembers] using
        Members.more hmember (w := []) (by simp [Ws]) (ws_newline indent level) hms
    · rw [Tree.valueMembers, ← hread.value, hset, hval]
      simp
termination_by sizeOf v + sizeOf m + 1
end

end

end JsonParse
end SbEasy

import SbEasy.ChunkLoop
import SbEasy.GrammarLeaves

/-!
The text that the subscription parser hands to libyaml: what libyaml would not take byte for byte is
replaced by private-use code points first, and put back in the scalars afterwards.
-/

namespace SbEasy.ProxyParser

open JsonParse ChunkLoop

/-- The least code point of a length above one. -/
def leastOf (len : ℕ) : ℕ := if len = 2 then 0x80 else if len = 3 then 0x800 else 0x10000

/-- `utf8_decode`: the length of the sequence at the head and its code point; nothing where the
source returns 0. -/
def utf8Decode : Bytes → Option (ℕ × ℕ)
  | [] => none
  | c :: s =>
    if c < 0x80 then some (1, c.toNat)
    else
      match Utf8.lead c with
      | none => none
      | some (len, bits) =>
        if s.length + 1 < len then none
        else
          match Utf8.more (len - 1) bits s with
          | none => none
          | some v =>
            if v < leastOf len ∨ v > 0x10FFFF ∨ (v ≥ 0xD800 ∧ v ≤ 0xDFFF) then none else some (len, v)

/-- `yamlcpp_queue` -/
def yamlcppQueue (ch : ℕ) : Bytes :=
  let ch := if ch = 0x04 then 0xFFFD else ch
  if ch < 0x80 then [ch.toUInt8]
  else if ch < 0x800 then
    [(0xC0 ||| ((ch >>> 6) &&& 0x1F)).toUInt8, (0x80 ||| (ch &&& 0x3F)).toUInt8]
  else if ch < 0x10000 then
    [(0xE0 ||| ((ch >>> 12) &&& 0x0F)).toUInt8, (0x80 ||| ((ch >>> 6) &&& 0x3F)).toUInt8,
      (0x80 ||| (ch &&& 0x3F)).toUInt8]
  else
    [(0xF0 ||| ((ch >>> 18) &&& 0x07)).toUInt8, (0x80 ||| ((ch >>> 12) &&& 0x3F)).toUInt8,
      (0x80 ||| ((ch >>> 6) &&& 0x3F)).toUInt8, (0x80 ||| (ch &&& 0x3F)).toUInt8]

def ysRawBase : ℕ := 0xF0000
def ysEscape : ℕ := 0xF0100

/-- `yaml_plain_ok` -/
def yamlPlainOk (v : ℕ) : Bool :=
  v == 0x09 || v == 0x0A || v == 0x0D || (v ≥ 0x20 && v ≤ 0x7E) ||
    (v ≥ 0xA0 && v ≤ 0xD7FF && v != 0x2028 && v != 0x2029) ||
    (v ≥ 0xE000 && v ≤ 0xFFFD && v != 0xFEFF) || (v ≥ 0x10000 && v ≤ 0x10FFFF)

/-- `yaml_needs_escape` -/
def yamlNeedsEscape (v : ℕ) : Bool := (v ≥ ysRawBase && v ≤ ysRawBase + 0xFF) || v == ysEscape

/-- The first loop of `yaml_sanitize`. -/
def sanitizeNeeded : ℕ → Bytes → Bool
  | 0, _ => false
  | fuel + 1, text =>
    if text.isEmpty then false
    else
      match utf8Decode text with
      | none => true
      | some (n, cp) =>
        if !yamlPlainOk cp || yamlNeedsEscape cp then true else sanitizeNeeded fuel (text.drop n)

/-- One round of the second loop: what is written, and how much is read. -/
def sanitizeRound (text : Bytes) : Bytes × ℕ :=
  match utf8Decode text with
  | some (n, cp) =>
    if yamlNeedsEscape cp then (yamlcppQueue ysEscape ++ text.take n, n)
    else if yamlPlainOk cp then (text.take n, n)
    else ((text.take n).flatMap fun b => yamlcppQueue (ysRawBase + b.toNat), n)
  | none => ((text.take 1).flatMap fun b => yamlcppQueue (ysRawBase + b.toNat), 1)

/-- `yaml_sanitize` -/
def yamlSanitize (text : Bytes) : Option Bytes :=
  if sanitizeNeeded text.length text then some (run sanitizeRound text) else none

/-- One round of `yaml_unsanitize`. -/
def unsanitizeRound (rest : Bytes) : Bytes × ℕ :=
  match utf8Decode rest with
  | some (len, cp) =>
    match if len = 4 ∧ cp = ysEscape ∧ 4 < rest.length then utf8Decode (rest.drop 4) else none with
    | some (nl, _) => ((rest.drop 4).take nl, 4 + nl)
    | none =>
      if len = 4 ∧ cp ≥ ysRawBase ∧ cp ≤ ysRawBase + 0xFF then ([(cp - ysRawBase).toUInt8], 4)
      else (rest.take len, len)
  | none => (rest.take 1, 1)

/-- `yaml_unsanitize`, in place -/
def yamlUnsanitize (s : Bytes) : Bytes := inPlace unsanitizeRound s

/-! ### Decoding -/

/-- The code point of a character. -/
def codePoint : Bytes → ℕ
  | [a] => a.toNat
  | [a, b] => a.toNat % 32 * 64 + b.toNat % 64
  | [a, b, c] => (a.toNat % 16 * 64 + b.toNat % 64) * 64 + c.toNat % 64
  | [a, b, c, d] => ((a.toNat % 8 * 64 + b.toNat % 64) * 64 + c.toNat % 64) * 64 + d.toNat % 64
  | _ => 0

lemma utf8Decode_lead {a : UInt8} {s : Bytes} {len bits v : ℕ} (ha : ¬ a < 0x80)
    (hlead : Utf8.lead a = some (len, bits)) (hlen : len ≤ s.length + 1)
    (hmore : Utf8.more (len - 1) bits s = some v) (hleast : leastOf len ≤ v) (hv : Scalar v) :
    utf8Decode (a :: s) = some (len, v) := by
  have hok : ¬ (v < leastOf len ∨ v > 0x10FFFF ∨ (v ≥ 0xD800 ∧ v ≤ 0xDFFF)) := by
    obtain ⟨h1, h2⟩ := hv
    omega
  rw [utf8Decode, if_neg ha, hlead]
  dsimp only
  rw [if_neg (by omega), hmore]
  dsimp only
  rw [if_neg hok]

lemma not_ascii {a : UInt8} (h : 128 ≤ a.toNat) : ¬ a < 0x80 := by
  rw [UInt8.lt_iff_toNat_lt]
  exact not_lt.mpr h

lemma codePoint_scalar {c : Bytes} (hc : Utf8.char c = true) : Scalar (codePoint c) := by
  rcases c with _ | ⟨a, _ | ⟨b, _ | ⟨d, _ | ⟨e, _ | ⟨x, t⟩⟩⟩⟩⟩
  · cases hc
  · have h := (Utf8.char_one a).mp hc
    simp only [Scalar, codePoint]
    omega
  · obtain ⟨h1, h2, hb⟩ := (Utf8.char_two a b).mp hc
    rw [Utf8.tail_nat] at hb
    simp only [Scalar, codePoint]
    omega
  · obtain ⟨h1, h2, hb, hd, h3, h4⟩ := (Utf8.char_three a b d).mp hc
    rw [Utf8.tail_nat] at hb hd
    simp only [Scalar, codePoint]
    omega
  · obtain ⟨h1, h2, hb, hd, he, h3, h4⟩ := (Utf8.char_four a b d e).mp hc
    rw [Utf8.tail_nat] at hb hd he
    simp only [Scalar, codePoint]
    omega
  · cases hc

/-- A character is decoded, whatever follows. -/
lemma utf8Decode_char {c : Bytes} (hc : Utf8.char c = true) (s : Bytes) :
    utf8Decode (c ++ s) = some (c.length, codePoint c) := by
  have hscalar := codePoint_scalar hc
  rcases c with _ | ⟨a, _ | ⟨b, _ | ⟨d, _ | ⟨e, _ | ⟨x, t⟩⟩⟩⟩⟩
  · cases hc
  · have hlt : a < 0x80 := UInt8.lt_iff_toNat_lt.mpr ((Utf8.char_one a).mp hc)
    rw [List.singleton_append, utf8Decode, if_pos hlt]
    rfl
  · obtain ⟨h1, h2, hb⟩ := (Utf8.char_two a b).mp hc
    have hlead : Utf8.lead a = some (2, a.toNat - 192) := by rw [Utf8.lead_nat, if_pos ⟨h1, h2⟩]
    have hb' := (Utf8.tail_nat b).mp hb
    refine @utf8Decode_lead a (b :: s) 2 _ _ (not_ascii (by omega)) hlead (by simp) ?_ ?_ hscalar
    · simp only [Nat.reduceSub, Utf8.more_cons, hb, if_true, Utf8.more_zero, codePoint]
      rw [Option.some.injEq]
      omega
    · simp only [leastOf, codePoint, if_true]
      omega
  · obtain ⟨h1, h2, hb, hd, h3, h4⟩ := (Utf8.char_three a b d).mp hc
    have hlead : Utf8.lead a = some (3, a.toNat - 224) := by
      rw [Utf8.lead_nat, if_neg (by omega), if_pos ⟨h1, h2⟩]
    have hb' := (Utf8.tail_nat b).mp hb
    have hd' := (Utf8.tail_nat d).mp hd
    refine @utf8Decode_lead a (b :: d :: s) 3 _ _ (not_ascii (by omega)) hlead (by simp) ?_ ?_
      hscalar
    · simp only [Nat.reduceSub, Utf8.more_cons, hb, hd, if_true, Utf8.more_zero, codePoint]
      rw [Option.some.injEq]
      omega
    · simp only [leastOf, codePoint, Nat.reduceEqDiff, if_true, if_false]
      omega
  · obtain ⟨h1, h2, hb, hd, he, h3, h4⟩ := (Utf8.char_four a b d e).mp hc
    have hlead : Utf8.lead a = some (4, a.toNat - 240) := by
      rw [Utf8.lead_nat, if_neg (by omega), if_neg (by omega), if_pos ⟨h1, h2⟩]
    have hb' := (Utf8.tail_nat b).mp hb
    have hd' := (Utf8.tail_nat d).mp hd
    have he' := (Utf8.tail_nat e).mp he
    refine @utf8Decode_lead a (b :: d :: e :: s) 4 _ _ (not_ascii (by omega)) hlead (by simp) ?_ ?_
      hscalar
    · simp only [Nat.reduceSub, Utf8.more_cons, hb, hd, he, if_true, Utf8.more_zero, codePoint]
      rw [Option.some.injEq]
      omega
    · simp only [leastOf, codePoint, Nat.reduceEqDiff, if_false]
      omega
  · cases hc

lemma char_of_utf8Decode {s : Bytes} {n cp : ℕ} (h : utf8Decode s = some (n, cp)) :
    ∃ c r, s = c ++ r ∧ Utf8.char c = true ∧ n = c.length ∧ cp = codePoint c := by
  suffices hseq : Utf8.seq s ≠ 0 by
    obtain ⟨c, r, rfl, hc, -⟩ := Utf8.char_of_seq hseq
    rw [utf8Decode_char hc, Option.some.injEq, Prod.mk.injEq] at h
    exact ⟨c, r, rfl, hc, h.1.symm, h.2.symm⟩
  cases s with
  | nil => cases h
  | cons a s =>
    rw [utf8Decode] at h
    rw [Utf8.seq]
    split_ifs at h ⊢ with ha
    · exact one_ne_zero
    · cases hlead : Utf8.lead a with
      | none => rw [hlead] at h; cases h
      | some p =>
        obtain ⟨len, bits⟩ := p
        rw [hlead] at h
        dsimp only at h ⊢
        split_ifs at h ⊢ with hlen
        cases hmore : Utf8.more (len - 1) bits s with
        | none => rw [hmore] at h; cases h
        | some v =>
          rw [hmore] at h
          dsimp only at h ⊢
          split_ifs at h with hv
          have hpos : len ≠ 0 := by
            rw [Utf8.lead_nat] at hlead
            split_ifs at hlead <;> cases hlead <;> decide
          rw [if_neg]
          · exact hpos
          · unfold leastOf at hv
            rintro (⟨rfl, hbad⟩ | ⟨rfl, hbad⟩)
            · simp at hv
              omega
            · simp at hv
              omega

lemma putUtf8_codePoint {c : Bytes} (hc : Utf8.char c = true) : putUtf8 (codePoint c) = c := by
  have hscalar := codePoint_scalar hc
  rw [putUtf8_nat hscalar.1]
  clear hscalar
  generalize hcp : codePoint c = cp
  have hbyte : ∀ (a : UInt8) (n : ℕ), n = a.toNat → n.toUInt8 = a := by
    rintro a n rfl
    exact UInt8.ofNat_toNat
  rcases c with _ | ⟨a, _ | ⟨b, _ | ⟨d, _ | ⟨e, _ | ⟨x, t⟩⟩⟩⟩⟩
  · cases hc
  · have h := (Utf8.char_one a).mp hc
    simp only [codePoint] at hcp
    rw [if_pos (by omega), hbyte a _ hcp.symm]
  · obtain ⟨h1, h2, hb⟩ := (Utf8.char_two a b).mp hc
    rw [Utf8.tail_nat] at hb
    simp only [codePoint] at hcp
    rw [if_neg (by omega), if_pos (by omega), hbyte a _ (by omega), hbyte b _ (by omega)]
  · obtain ⟨h1, h2, hb, hd, h3, h4⟩ := (Utf8.char_three a b d).mp hc
    rw [Utf8.tail_nat] at hb hd
    simp only [codePoint] at hcp
    rw [if_neg (by omega), if_neg (by omega), if_pos (by omega), hbyte a _ (by omega),
      hbyte b _ (by omega), hbyte d _ (by omega)]
  · obtain ⟨h1, h2, hb, hd, he, h3, h4⟩ := (Utf8.char_four a b d e).mp hc
    rw [Utf8.tail_nat] at hb hd he
    simp only [codePoint] at hcp
    rw [if_neg (by omega), if_neg (by omega), if_neg (by omega), hbyte a _ (by omega),
      hbyte b _ (by omega), hbyte d _ (by omega), hbyte e _ (by omega)]
  · cases hc

lemma codePoint_putUtf8 {cp : ℕ} (h : Scalar cp) : codePoint (putUtf8 cp) = cp := by
  have hbyte : ∀ x : ℕ, x < 256 → x.toUInt8.toNat = x := fun x hx => toUInt8_toNat hx
  have h1 := h.1
  rw [putUtf8_nat h1]
  split_ifs with c1 c2 c3
  · rw [codePoint, hbyte _ (by omega)]
  · rw [codePoint, hbyte _ (by omega), hbyte _ (by omega)]
    omega
  · rw [codePoint, hbyte _ (by omega), hbyte _ (by omega), hbyte _ (by omega)]
    omega
  · rw [codePoint, hbyte _ (by omega), hbyte _ (by omega), hbyte _ (by omega), hbyte _ (by omega)]
    omega

/-- The UTF-8 form of a code point is decoded, whatever follows. -/
lemma utf8Decode_utf8 {cp : ℕ} (h : Scalar cp) (s : Bytes) :
    utf8Decode (Rfc8259.utf8 cp ++ s) = some ((Rfc8259.utf8 cp).length, cp) := by
  rw [← putUtf8_eq h, utf8Decode_char (putUtf8_char h), codePoint_putUtf8 h]

lemma utf8_of_decode {s : Bytes} {n cp : ℕ} (h : utf8Decode s = some (n, cp)) :
    Scalar cp ∧ s.take n = Rfc8259.utf8 cp ∧ 0 < n ∧ n ≤ s.length := by
  obtain ⟨c, r, rfl, hc, rfl, rfl⟩ := char_of_utf8Decode h
  have hscalar := codePoint_scalar hc
  refine ⟨hscalar, ?_, List.length_pos_of_ne_nil (Utf8.char_ne_nil hc), by simp⟩
  rw [← putUtf8_eq hscalar, putUtf8_codePoint hc, List.take_left]

lemma yamlcppQueue_eq {ch : ℕ} (h : Scalar ch) (h4 : ch ≠ 4) : yamlcppQueue ch = Rfc8259.utf8 ch := by
  have h1 := h.1
  have hmask : ∀ x k : ℕ, x < 2 ^ k → x &&& (2 ^ k - 1) = x := fun x k hx => by
    rw [Nat.and_two_pow_sub_one_eq_mod, Nat.mod_eq_of_lt hx]
  rw [← putUtf8_eq h, yamlcppQueue, if_neg h4, putUtf8]
  split_ifs with c1 c2 c3
  · rfl
  · have hlead : ch >>> 6 &&& 0x1F = ch >>> 6 := hmask _ 5 (by rw [Nat.shiftRight_eq_div_pow]; omega)
    rw [hlead]
  · have hlead : ch >>> 12 &&& 0x0F = ch >>> 12 :=
      hmask _ 4 (by rw [Nat.shiftRight_eq_div_pow]; omega)
    rw [hlead]
  · have hlead : ch >>> 18 &&& 0x07 = ch >>> 18 :=
      hmask _ 3 (by rw [Nat.shiftRight_eq_div_pow]; omega)
    rw [hlead]

end SbEasy.ProxyParser

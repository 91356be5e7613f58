import SbEasy.Base64Exact

/-!
`decode_base64` of the subscription parser, in the builds that hand the checked text to OpenSSL, to
the Windows API or to the decoder of `util.c`.
-/

namespace SbEasy.ProxyParser

open Radix (value)

/-- The builds of `decode_base64`. -/
inductive Build
  | windows
  | apple
  | openssl
  deriving DecidableEq

/-- The decoders outside the program; each gives the bytes it writes, or fails. -/
structure Decoders where
  cryptStringToBinary : Bytes → Option Bytes
  evpDecodeBlock : Bytes → Option Bytes

def intMax : ℕ := 2147483647

/-- The text without white space, in the standard alphabet. -/
def normalized (enc : Bytes) : Bytes :=
  (enc.filter (!isSpace ·)).map fun c => if c = 0x2D then 0x2B else if c = 0x5F then 0x2F else c

/-- How many of the last two characters are padding. -/
def padding (norm : Bytes) : ℕ :=
  if norm.getLast? = some 0x3D then
    if norm.length > 1 ∧ norm[norm.length - 2]? = some 0x3D then 2 else 1
  else 0

/-- The characters are of the alphabet, but for padding at the end. -/
def wellPadded (norm : Bytes) : Bool :=
  norm.zipIdx.all fun p => isAlnum p.1 || p.1 == 0x2B || p.1 == 0x2F ||
    (p.1 == 0x3D && decide (p.2 ≥ norm.length - padding norm))

/-- The text that is decoded, if the checks let it pass. -/
def checked (enc : Bytes) : Option Bytes :=
  let norm := normalized enc
  if norm.length = 0 ∨ norm.length % 4 = 1 ∨ norm.length > intMax then none
  else
    let norm := norm ++ List.replicate ((4 - norm.length % 4) % 4) 0x3D
    if wellPadded norm then some norm else none

/-- `decode_base64` -/
def decodeBase64 (build : Build) (lib : Decoders) (enc : Bytes) : Option Bytes := do
  let norm ← checked enc
  match build with
  | .windows => lib.cryptStringToBinary norm
  | .apple => b64Decode .standard norm
  | .openssl =>
    let decoded ← lib.evpDecodeBlock norm
    -- OpenSSL writes three bytes for every group, those of the padding included.
    some (decoded.take (decoded.length - padding norm))

/-- A character of a block as a digit, padding as zero. -/
def blockDigit (c : UInt8) : ℕ := (b64ValueOf .standard c).getD 0

/-- Three bytes for every four characters, whatever the bits over are. -/
def decodedBlock : Bytes → Bytes
  | a :: b :: c :: d :: rest =>
    let v := ((blockDigit a * 64 + blockDigit b) * 64 + blockDigit c) * 64 + blockDigit d
    (v / 65536).toUInt8 :: (v / 256).toUInt8 :: v.toUInt8 :: decodedBlock rest
  | _ => []

/-- `EVP_DecodeBlock` decodes every block that is padded as it should be. -/
def Decoders.DecodesBlocks (lib : Decoders) : Prop :=
  ∀ norm : Bytes, norm.length % 4 = 0 → wellPadded norm = true →
    lib.evpDecodeBlock norm = some (decodedBlock norm)

/-- The bits of the last digit that no byte gets. -/
def spareBits (norm : Bytes) : ℕ :=
  blockDigit (norm.getD (norm.length - padding norm - 1) 0) % 4 ^ padding norm

lemma blockDigit_lt (c : UInt8) : blockDigit c < 64 := by
  have hall : ∀ n < 256, blockDigit (UInt8.ofNat n) < 64 := by decide +kernel
  have h := hall c.toNat c.toNat_lt
  rwa [UInt8.ofNat_toNat] at h

lemma bytesValue_append (s t : Bytes) :
    bytesValue (s ++ t) = bytesValue s * 256 ^ t.length + bytesValue t := by
  rw [bytesValue, List.map_append, Radix.value_append, List.length_map, bytesValue, bytesValue]

lemma length_decodedBlock : ∀ t : Bytes, (decodedBlock t).length = 3 * (t.length / 4)
  | a :: b :: c :: d :: rest => by
    have ih := length_decodedBlock rest
    simp only [decodedBlock, List.length_cons, ih]
    omega
  | [] => rfl
  | [_] => by simp [decodedBlock]
  | [_, _] => by simp [decodedBlock]
  | [_, _, _] => by simp [decodedBlock]

lemma bytesValue_group {v : ℕ} (h : v < 2 ^ 24) :
    bytesValue [(v / 65536).toUInt8, (v / 256).toUInt8, v.toUInt8] = v := by
  have hnat : ∀ n : ℕ, n.toUInt8.toNat = n % 256 := fun _ => rfl
  simp only [bytesValue, value, List.map_cons, List.map_nil, List.reverse_cons, List.reverse_nil,
    List.nil_append, List.cons_append, Nat.ofDigits_cons, Nat.ofDigits_nil, hnat]
  omega

lemma bytesValue_decodedBlock : ∀ t : Bytes, t.length % 4 = 0 →
    bytesValue (decodedBlock t) = value 64 (t.map blockDigit)
  | [], _ => rfl
  | a :: b :: c :: d :: rest, h => by
    have hrest : rest.length % 4 = 0 := by
      simp only [List.length_cons] at h
      omega
    have ih := bytesValue_decodedBlock rest hrest
    have ha := blockDigit_lt a
    have hb := blockDigit_lt b
    have hc := blockDigit_lt c
    have hd := blockDigit_lt d
    have hmap : (a :: b :: c :: d :: rest).map blockDigit =
        [blockDigit a, blockDigit b, blockDigit c, blockDigit d] ++ rest.map blockDigit := rfl
    have hpow : 256 ^ (3 * (rest.length / 4)) = 64 ^ rest.length := by
      have h64 : (64 : ℕ) = 2 ^ 6 := rfl
      have h256 : (256 : ℕ) = 2 ^ 8 := rfl
      rw [h64, h256, ← pow_mul, ← pow_mul]
      congr 1
      omega
    have hgroup : value 64 [blockDigit a, blockDigit b, blockDigit c, blockDigit d] =
        ((blockDigit a * 64 + blockDigit b) * 64 + blockDigit c) * 64 + blockDigit d := by
      simp only [value, List.reverse_cons, List.reverse_nil, List.nil_append, List.cons_append,
        Nat.ofDigits_cons, Nat.ofDigits_nil]
      omega
    rw [decodedBlock, hmap, Radix.value_append, hgroup, List.length_map, ← ih, ← hpow,
      ← length_decodedBlock]
    set v := ((blockDigit a * 64 + blockDigit b) * 64 + blockDigit c) * 64 + blockDigit d
    have hv : v < 2 ^ 24 := by omega
    have hsplit : (v / 65536).toUInt8 :: (v / 256).toUInt8 :: v.toUInt8 :: decodedBlock rest =
        [(v / 65536).toUInt8, (v / 256).toUInt8, v.toUInt8] ++ decodedBlock rest := rfl
    change bytesValue ((v / 65536).toUInt8 :: (v / 256).toUInt8 :: v.toUInt8 ::
      decodedBlock rest) = _
    rw [hsplit, bytesValue_append, bytesValue_group hv]
  | [_], h => by simp at h
  | [_, _], h => by simp at h
  | [_, _, _], h => by simp at h

/-! ### The checked text -/

lemma eq_char_blockDigit {c : UInt8} (h : (isAlnum c || c == 0x2B || c == 0x2F) = true) :
    c = B64Mode.char .standard (blockDigit c) := by
  have hall : ∀ n < 256, (isAlnum (UInt8.ofNat n) || UInt8.ofNat n == 0x2B ||
      UInt8.ofNat n == 0x2F) = true →
      UInt8.ofNat n = B64Mode.char .standard (blockDigit (UInt8.ofNat n)) := by decide +kernel
  have hc := hall c.toNat c.toNat_lt
  rw [UInt8.ofNat_toNat] at hc
  exact hc h

lemma padding_le (norm : Bytes) : padding norm ≤ 2 := by
  unfold padding
  split_ifs <;> decide

/-- The characters that `padding` counts are padding. -/
lemma drop_padding (norm : Bytes) : padding norm ≤ norm.length ∧
    norm.drop (norm.length - padding norm) = List.replicate (padding norm) 0x3D := by
  unfold padding
  split_ifs with h1 h2
  · obtain ⟨hlen, hprev⟩ := h2
    have hlast : norm[norm.length - 1]? = some 0x3D := by rw [← List.getLast?_eq_getElem?]; exact h1
    refine ⟨by omega, List.ext_getElem? fun i => ?_⟩
    rw [List.getElem?_drop, List.getElem?_replicate]
    match i with
    | 0 => simpa using hprev
    | 1 =>
      have : norm.length - 2 + 1 = norm.length - 1 := by omega
      simpa [this] using hlast
    | i + 2 =>
      rw [List.getElem?_eq_none (by omega), if_neg (by omega)]
  · have hlast : norm[norm.length - 1]? = some 0x3D := by rw [← List.getLast?_eq_getElem?]; exact h1
    have hpos : 0 < norm.length := by
      have := (List.getElem?_eq_some_iff.mp hlast).1
      omega
    refine ⟨hpos, List.ext_getElem? fun i => ?_⟩
    rw [List.getElem?_drop, List.getElem?_replicate]
    match i with
    | 0 => simpa using hlast
    | i + 1 => rw [List.getElem?_eq_none (by omega), if_neg (by omega)]
  · simp

lemma wellPadded_digits {norm : Bytes} (h : wellPadded norm = true) :
    norm = ((norm.take (norm.length - padding norm)).map blockDigit).map (B64Mode.char .standard) ++
      List.replicate (padding norm) 0x3D := by
  have hfront : ((norm.take (norm.length - padding norm)).map blockDigit).map
      (B64Mode.char .standard) = norm.take (norm.length - padding norm) := by
    rw [List.map_map]
    conv_rhs => rw [← List.map_id (norm.take (norm.length - padding norm))]
    refine List.map_congr_left fun c hc => ?_
    obtain ⟨i, hi, hget⟩ := List.mem_take_iff_getElem.mp hc
    have hmem : (c, i) ∈ norm.zipIdx := by
      rw [List.mem_zipIdx_iff_getElem?, List.getElem?_eq_some_iff]
      exact ⟨by omega, hget⟩
    have hc := List.all_eq_true.mp h _ hmem
    have hi : ¬ i ≥ norm.length - padding norm := by omega
    simp only [hi, decide_false, Bool.and_false, Bool.or_false] at hc
    exact (eq_char_blockDigit hc).symm
  rw [hfront, ← (drop_padding norm).2, List.take_append_drop]

/-- The digits in front of the padding. -/
def digitsOf (norm : Bytes) : List ℕ := (norm.take (norm.length - padding norm)).map blockDigit

section

variable {norm : Bytes} (h4 : norm.length % 4 = 0) (hpos : norm.length ≠ 0)

lemma length_digitsOf (norm : Bytes) : (digitsOf norm).length = norm.length - padding norm := by
  simp [digitsOf]

lemma digitsOf_lt (norm : Bytes) : ∀ d ∈ digitsOf norm, d < 64 := by
  intro d hd
  obtain ⟨c, -, rfl⟩ := List.mem_map.mp hd
  exact blockDigit_lt c

include h4 hpos

lemma bits_over : 6 * (digitsOf norm).length % 8 = 2 * padding norm := by
  have hle := padding_le norm
  have hlen := length_digitsOf norm
  obtain ⟨q, hq⟩ : ∃ q, norm.length = 4 * q := ⟨norm.length / 4, by omega⟩
  interval_cases hp : padding norm <;> omega

lemma spareBits_eq : spareBits norm = value 64 (digitsOf norm) % 2 ^ (2 * padding norm) := by
  have hle := padding_le norm
  have hlen := length_digitsOf norm
  have hne : digitsOf norm ≠ [] := by
    rw [← List.length_pos_iff_ne_nil, hlen]
    omega
  obtain ⟨ds, d, hds⟩ : ∃ ds d, digitsOf norm = ds ++ [d] :=
    ⟨_, _, (List.dropLast_append_getLast hne).symm⟩
  have hlast : blockDigit (norm.getD (norm.length - padding norm - 1) 0) = d := by
    have hget : (digitsOf norm)[norm.length - padding norm - 1]? = some d := by
      have hn : norm.length - padding norm - 1 = ds.length := by
        rw [← hlen, hds, List.length_append, List.length_singleton]
        omega
      rw [hds, hn]
      simp
    rw [digitsOf, List.getElem?_map, Option.map_eq_some_iff] at hget
    obtain ⟨c, hc, hd⟩ := hget
    have hc' : norm[norm.length - padding norm - 1]? = some c := by
      rw [List.getElem?_take_of_lt (by omega)] at hc
      exact hc
    rw [List.getD_eq_getElem?_getD, hc', Option.getD_some, hd]
  rw [spareBits, hlast, hds, Radix.value_snoc, pow_mul]
  interval_cases padding norm <;> omega

lemma bytesValue_take :
    ((decodedBlock norm).take ((decodedBlock norm).length - padding norm)).length =
        6 * (digitsOf norm).length / 8 ∧
      bytesValue ((decodedBlock norm).take ((decodedBlock norm).length - padding norm)) =
        value 64 (digitsOf norm) / 2 ^ (6 * (digitsOf norm).length % 8) := by
  have hle := padding_le norm
  have hlen := length_digitsOf norm
  have hblock := length_decodedBlock norm
  obtain ⟨q, hq⟩ : ∃ q, norm.length = 4 * q := ⟨norm.length / 4, by omega⟩
  constructor
  · rw [List.length_take, hblock, hlen]
    interval_cases padding norm <;> omega
  · have hdrop : ((decodedBlock norm).drop ((decodedBlock norm).length - padding norm)).length =
        padding norm := by
      rw [List.length_drop, hblock]
      omega
    have htake := bytesValue_append_div
      ((decodedBlock norm).take ((decodedBlock norm).length - padding norm))
      ((decodedBlock norm).drop ((decodedBlock norm).length - padding norm))
    have hmap : norm.map blockDigit = digitsOf norm ++ List.replicate (padding norm) 0 := by
      have hpad : blockDigit 0x3D = 0 := by decide
      rw [← hpad, ← List.map_replicate, ← (drop_padding norm).2, digitsOf, ← List.map_append,
        List.take_append_drop]
    rw [htake, List.take_append_drop, hdrop, bytesValue_decodedBlock norm h4, bits_over h4 hpos, hmap,
      Radix.value_append, List.length_replicate]
    have hzero : value 64 (List.replicate (padding norm) 0) = 0 := by
      interval_cases padding norm <;> rfl
    rw [hzero, pow_mul, Nat.add_zero]
    interval_cases padding norm <;> omega

/-- The strict decoder agrees with what OpenSSL leaves exactly if no bit over is set. -/
lemma b64Decode_checked (h : wellPadded norm = true) :
    b64Decode .standard norm =
        some ((decodedBlock norm).take ((decodedBlock norm).length - padding norm)) ↔
      spareBits norm = 0 := by
  have hm : B64Mode.standard ≠ .lenient := by decide
  have hle := padding_le norm
  have hlen := length_digitsOf norm
  obtain ⟨st, hst, hrun⟩ := foldlM_digits hm (digitsOf_lt norm) (padding norm)
  have hnorm : (digitsOf norm).map (B64Mode.char .standard) ++ List.replicate (padding norm) 0x3D =
      norm := (wellPadded_digits h).symm
  rw [hnorm] at hst
  obtain ⟨htake, hvalue⟩ := bytesValue_take h4 hpos
  have hout : (decodedBlock norm).take ((decodedBlock norm).length - padding norm) = st.out :=
    bytesValue_inj (by rw [htake, hrun.length]) (by rw [hvalue, hrun.out])
  rw [b64Decode_of_run hm hst hrun, spareBits_eq h4 hpos, bits_over h4 hpos]
  refine ⟨fun hall => hall.2.2.1, fun hzero => ⟨by omega, ⟨by omega, hle⟩, hzero, hout⟩⟩

end

lemma checked_some {enc norm : Bytes} (h : checked enc = some norm) :
    norm.length % 4 = 0 ∧ norm.length ≠ 0 ∧ wellPadded norm = true := by
  unfold checked at h
  dsimp only at h
  split_ifs at h with h1 h2
  cases h
  refine ⟨?_, ?_, h2⟩
  · rw [List.length_append, List.length_replicate]
    omega
  · rw [List.length_append]
    omega

/-- **Builds agree** on a body exactly if it does not pass the checks or its last digit has no bits
that no byte gets. -/
theorem decodeBase64_agrees (lib : Decoders) (hlib : lib.DecodesBlocks) (enc : Bytes) :
    decodeBase64 .openssl lib enc = decodeBase64 .apple lib enc ↔
      ∀ norm, checked enc = some norm → spareBits norm = 0 := by
  unfold decodeBase64
  cases hc : checked enc with
  | none => simp
  | some norm =>
    obtain ⟨h4, hpos, hpad⟩ := checked_some hc
    have hspare := b64Decode_checked h4 hpos hpad
    simp only [Option.bind_eq_bind, Option.bind_some, hlib norm h4 hpad, Option.some.injEq,
      forall_eq']
    rw [← hspare, eq_comm]

/-- OpenSSL as it should be, and a Windows that decodes nothing. -/
def exampleDecoders : Decoders where
  cryptStringToBinary _ := none
  evpDecodeBlock norm := some (decodedBlock norm)

lemma exampleDecoders_decodesBlocks : exampleDecoders.DecodesBlocks := fun _ _ _ => rfl

theorem decodeBase64_agrees_text :
    decodeBase64 .openssl exampleDecoders (lit "YWI") = decodeBase64 .apple exampleDecoders (lit "YWI") ↔
      ∀ norm, checked (lit "YWI") = some norm → spareBits norm = 0 :=
  decodeBase64_agrees exampleDecoders exampleDecoders_decodesBlocks (lit "YWI")

/-- The last digit of this text has a bit that no byte gets. -/
theorem decodeBase64_builds_differ : exampleDecoders.DecodesBlocks ∧
    decodeBase64 .openssl exampleDecoders (lit "YR") = some (lit "a") ∧
      decodeBase64 .apple exampleDecoders (lit "YR") = none :=
  ⟨exampleDecoders_decodesBlocks, by decide +kernel⟩

end SbEasy.ProxyParser

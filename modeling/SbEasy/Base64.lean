import SbEasy.Center
import SbEasy.JsonSound

/-!
The two strict base64 decoders a key passes through: `b64_decode` of `util.c` on the C side
and `base64.StdEncoding.Strict()` on the Go side.
-/

namespace SbEasy

/-- A key made by `new_secret`: sixteen bytes, encoded. -/
def IsKey (key : Bytes) : Prop := ∃ raw : Bytes, raw.length = 16 ∧ key = b64Encode b64 true raw

/-- The modes of `b64_decode`. -/
inductive B64Mode
  | lenient | standard | url
  deriving DecidableEq

/-- `b64_value` -/
def b64ValueOf (mode : B64Mode) (c : UInt8) : Option ℕ :=
  if 0x41 ≤ c ∧ c ≤ 0x5A then some (c - 0x41).toNat
  else if 0x61 ≤ c ∧ c ≤ 0x7A then some ((c - 0x61).toNat + 26)
  else if 0x30 ≤ c ∧ c ≤ 0x39 then some ((c - 0x30).toNat + 52)
  else if c = 0x2B ∧ mode ≠ .url then some 62
  else if c = 0x2F ∧ mode ≠ .url then some 63
  else if c = 0x2D ∧ mode ≠ .standard then some 62
  else if c = 0x5F ∧ mode ≠ .standard then some 63
  else none

/-- The locals of `b64_decode`. -/
structure B64State where
  acc : ℕ
  bits : ℕ
  count : ℕ
  pads : ℕ
  out : Bytes

/-- One round of the loop of `b64_decode`. -/
def b64DecodeStep (mode : B64Mode) (st : B64State) (c : UInt8) : Option B64State :=
  if mode = .lenient ∧ isSpace c = true then some st
  else if c = 0x3D then some { st with pads := st.pads + 1 }
  else if st.pads ≠ 0 then none
  else
    match b64ValueOf mode c with
    | none => none
    | some v =>
      let acc := ((st.acc <<< 6) ||| v) % 2 ^ 32
      let bits := st.bits + 6
      if bits ≥ 8 then
        some ⟨acc, bits - 8, st.count + 1, st.pads,
          st.out ++ [((acc >>> (bits - 8)) &&& 0xFF).toUInt8]⟩
      else some ⟨acc, bits, st.count + 1, st.pads, st.out⟩

/-- `b64_decode` -/
def b64Decode (mode : B64Mode) (t : Bytes) : Option Bytes := do
  let st ← t.foldlM (b64DecodeStep mode) ⟨0, 0, 0, 0, []⟩
  if st.count % 4 = 1 then none
  else if mode = .standard ∧ ((st.count + st.pads) % 4 ≠ 0 ∨ st.pads > 2) then none
  else if mode = .url ∧ st.pads ≠ 0 then none
  else if mode = .lenient ∧ st.pads > 2 then none
  else if mode ≠ .lenient ∧ st.bits > 0 ∧ st.acc &&& (1 <<< st.bits - 1) ≠ 0 then none
  else some st.out

/-- `sb_base64_decode_strict` -/
def b64DecodeStrict (t : Bytes) : Option Bytes := b64Decode .standard t

/-- Groups of four characters; only the last group may be padded, and the bits that the
padding leaves over are zero. -/
def decodeQuanta : Bytes → Option Bytes
  | [] => some []
  | a :: b :: c :: d :: rest => do
    let x ← b64ValueOf .standard a
    let y ← b64ValueOf .standard b
    let first := (x * 4 + y / 16).toUInt8
    if d = 0x3D then
      if rest ≠ [] then none
      else if c = 0x3D then if y % 16 ≠ 0 then none else some [first]
      else
        let z ← b64ValueOf .standard c
        if z % 4 ≠ 0 then none else some [first, (y % 16 * 16 + z / 4).toUInt8]
    else
      let z ← b64ValueOf .standard c
      let w ← b64ValueOf .standard d
      let tail ← decodeQuanta rest
      some (first :: (y % 16 * 16 + z / 4).toUInt8 :: (z % 4 * 64 + w).toUInt8 :: tail)
  | _ => none

/-- `base64.StdEncoding.Strict().DecodeString`, which skips line breaks. -/
def decodeString (s : Bytes) : Option Bytes :=
  decodeQuanta (s.filter fun c => c != 0x0A && c != 0x0D)

/-- What the four digits of a group say about its three bytes. -/
structure B64Digits (x y z d1 d2 d3 d4 : ℕ) : Prop where
  lt : d1 < 64 ∧ d2 < 64 ∧ d3 < 64 ∧ d4 < 64
  first : d1 * 4 + d2 / 16 = x
  second : d2 % 16 * 16 + d3 / 4 = y
  third : d3 % 4 * 64 + d4 = z

lemma digits_of {x y z : ℕ} (hx : x < 256) (hy : y < 256) (hz : z < 256) :
    B64Digits x y z (((x <<< 16 ||| y <<< 8 ||| z) >>> 18) &&& 63)
      (((x <<< 16 ||| y <<< 8 ||| z) >>> 12) &&& 63)
      (((x <<< 16 ||| y <<< 8 ||| z) >>> 6) &&& 63) ((x <<< 16 ||| y <<< 8 ||| z) &&& 63) := by
  have hv : x <<< 16 ||| y <<< 8 ||| z = x * 65536 + y * 256 + z := by
    have hlow : y <<< 8 ||| z = y * 2 ^ 8 + z := JsonParse.lead_or hz
    rw [Nat.or_assoc, hlow, JsonParse.lead_or (by omega)]
    omega
  have hand : ∀ n : ℕ, n &&& 63 = n % 64 := fun n => Nat.and_two_pow_sub_one_eq_mod n 6
  simp only [hv, hand, Nat.shiftRight_eq_div_pow, Nat.reducePow]
  exact ⟨by omega, by omega, by omega, by omega⟩

end SbEasy

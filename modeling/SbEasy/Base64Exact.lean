import SbEasy.Base64Url
import SbEasy.Radix

/-!
What the strict modes of `b64_decode` accept: exactly the texts that `b64_encode` writes.

Text and bytes are numbers in two bases. The loop keeps the number of the digits it has read, of
which the accumulator has the low 32 bits; the bytes it has written are that number without the
bits over.
-/

namespace SbEasy

open Radix (value)

/-- The number of a byte string. -/
def bytesValue (s : Bytes) : ℕ := value 256 (s.map UInt8.toNat)

lemma bytesValue_snoc (s : Bytes) (c : UInt8) : bytesValue (s ++ [c]) = bytesValue s * 256 + c.toNat := by
  rw [bytesValue, List.map_append, List.map_singleton, Radix.value_snoc, bytesValue]

lemma toNat_lt_of_mem (s : Bytes) : ∀ d ∈ s.map UInt8.toNat, d < 256 := by
  intro d hd
  obtain ⟨c, -, rfl⟩ := List.mem_map.mp hd
  exact c.toNat_lt

lemma bytesValue_append_div (s t : Bytes) :
    bytesValue s = bytesValue (s ++ t) / 256 ^ t.length := by
  have h := @Radix.value_take 256 (by decide) (s.map UInt8.toNat) _ (toNat_lt_of_mem t)
  rwa [← List.map_append, List.length_map] at h

lemma bytesValue_inj {a b : Bytes} (hlen : a.length = b.length) (h : bytesValue a = bytesValue b) :
    a = b := by
  have hmap := Radix.value_inj (by decide) (by simpa using hlen) (toNat_lt_of_mem a)
    (toNat_lt_of_mem b) h
  exact List.map_injective_iff.mpr (fun x y hxy => UInt8.toNat_inj.mp hxy) hmap

namespace B64Mode

/-- The alphabet that a mode reads. -/
def alphabet : B64Mode → Bytes
  | .url => b64Url
  | _ => b64

def char (mode : B64Mode) (i : ℕ) : UInt8 := mode.alphabet.getD i 0

/-- How many characters of padding a mode accepts behind `n` digits. -/
def Pads (mode : B64Mode) (n pads : ℕ) : Prop :=
  match mode with
  | .standard => (n + pads) % 4 = 0 ∧ pads ≤ 2
  | .url => pads = 0
  | .lenient => pads ≤ 2

lemma value_char (mode : B64Mode) {i : ℕ} (h : i < 64) :
    b64ValueOf mode (mode.char i) = some i ∧ mode.char i ≠ 0x3D := by
  have hall : ∀ i < 64, b64ValueOf .lenient (char .lenient i) = some i ∧ char .lenient i ≠ 0x3D ∧
      b64ValueOf .standard (char .standard i) = some i ∧
      b64ValueOf .url (char .url i) = some i ∧ char .url i ≠ 0x3D := by decide +kernel
  obtain ⟨h1, h2, h3, h4, h5⟩ := hall i h
  cases mode with
  | lenient => exact ⟨h1, h2⟩
  | standard => exact ⟨h3, h2⟩
  | url => exact ⟨h4, h5⟩

lemma eq_char {mode : B64Mode} (hm : mode ≠ .lenient) {c : UInt8} {v : ℕ}
    (h : b64ValueOf mode c = some v) : v < 64 ∧ c = mode.char v := by
  have hall : ∀ n < 256, ((b64ValueOf .standard (UInt8.ofNat n)).all fun v =>
        decide (v < 64) && UInt8.ofNat n == char .standard v) = true ∧
      ((b64ValueOf .url (UInt8.ofNat n)).all fun v =>
        decide (v < 64) && UInt8.ofNat n == char .url v) = true := by decide +kernel
  obtain ⟨h1, h2⟩ := hall c.toNat c.toNat_lt
  rw [UInt8.ofNat_toNat] at h1 h2
  cases mode with
  | lenient => exact absurd rfl hm
  | standard =>
    rw [h] at h1
    simpa using h1
  | url =>
    rw [h] at h2
    simpa using h2

end B64Mode

/-! ### The loop -/

/-- Where the loop is once it has read some digits and some padding. -/
structure B64Run (ds : List ℕ) (pads : ℕ) (st : B64State) : Prop where
  acc : st.acc = value 64 ds % 2 ^ 32
  bits : st.bits = 6 * ds.length % 8
  count : st.count = ds.length
  pads : st.pads = pads
  length : st.out.length = 6 * ds.length / 8
  out : bytesValue st.out = value 64 ds / 2 ^ (6 * ds.length % 8)

lemma b64Run_nil : B64Run [] 0 ⟨0, 0, 0, 0, []⟩ := ⟨rfl, rfl, rfl, rfl, rfl, rfl⟩

lemma bits_cases (n : ℕ) : n % 4 = 0 ∧ 6 * n % 8 = 0 ∧ 6 * (n + 1) % 8 = 6 ∨
    n % 4 = 1 ∧ 6 * n % 8 = 6 ∧ 6 * (n + 1) % 8 = 4 ∨
    n % 4 = 2 ∧ 6 * n % 8 = 4 ∧ 6 * (n + 1) % 8 = 2 ∨
    n % 4 = 3 ∧ 6 * n % 8 = 2 ∧ 6 * (n + 1) % 8 = 0 := by
  obtain ⟨q, r, hr, rfl⟩ : ∃ q r, r < 4 ∧ n = 4 * q + r :=
    ⟨n / 4, n % 4, Nat.mod_lt _ (by decide), by omega⟩
  interval_cases r <;> omega

variable {mode : B64Mode}

variable {ds : List ℕ} {st : B64State} {p : ℕ} {t : Bytes}

lemma B64Run.digit (hm : mode ≠ .lenient) (h : B64Run ds 0 st) {d : ℕ} (hd : d < 64) :
    ∃ st', b64DecodeStep mode st (mode.char d) = some st' ∧ B64Run (ds ++ [d]) 0 st' := by
  obtain ⟨hval, hpad⟩ := mode.value_char hd
  obtain ⟨hacc, hbits, hcount, hpads, hlength, hout⟩ := h
  set N := value 64 ds with hN
  set n := ds.length with hn
  have hor : st.acc <<< 6 ||| d = st.acc * 64 + d := JsonParse.lead_or (by omega)
  have hand : ∀ k : ℕ, k &&& 0xFF = k % 256 := fun k => Nat.and_two_pow_sub_one_eq_mod k 8
  have hlen' : (ds ++ [d]).length = n + 1 := by simp [hn]
  have hval' : value 64 (ds ++ [d]) = N * 64 + d := Radix.value_snoc ds d
  have hacc' : (st.acc * 64 + d) % 2 ^ 32 = (N * 64 + d) % 2 ^ 32 := by
    rw [hacc, Nat.add_mod, Nat.mod_mul_mod, ← Nat.add_mod]
  have hbyte : ∀ k : ℕ, (k % 256).toUInt8.toNat = k % 256 := by
    intro k
    exact Nat.mod_eq_of_lt (Nat.mod_lt _ (by decide))
  simp only [b64DecodeStep, hm, false_and, if_false, hpad, hpads, ne_eq, not_true_eq_false, hval,
    hor, hand, Nat.shiftRight_eq_div_pow, hacc', hbits, hcount]
  rcases bits_cases n with ⟨h4, he, he'⟩ | ⟨h4, he, he'⟩ | ⟨h4, he, he'⟩ | ⟨h4, he, he'⟩
  · rw [he] at hout ⊢
    refine ⟨_, by rw [if_neg (by decide)], ?_, ?_, ?_, rfl, ?_, ?_⟩
    · rw [hval']
    · rw [hlen', he']
    · rw [hlen']
    · rw [hlen', hlength]; omega
    · rw [hlen', hval', he', hout]; omega
  all_goals
    rw [he] at hout ⊢
    refine ⟨_, by rw [if_pos (by decide)], ?_, ?_, ?_, rfl, ?_, ?_⟩
    · rw [hval']
    · rw [hlen', he']
    · rw [hlen']
    · rw [hlen', List.length_append, hlength, List.length_singleton]; omega
    · rw [hlen', hval', he', bytesValue_snoc, hbyte, hout]; omega

lemma B64Run.pad (hm : mode ≠ .lenient) (h : B64Run ds p st) :
    ∃ st', b64DecodeStep mode st 0x3D = some st' ∧ B64Run ds (p + 1) st' := by
  refine ⟨{ st with pads := st.pads + 1 }, ?_, h.acc, h.bits, h.count, ?_, h.length, h.out⟩
  · rw [b64DecodeStep, if_neg fun hc => hm hc.1, if_pos rfl]
  · rw [h.pads]

lemma foldlM_digits (hm : mode ≠ .lenient) (hds : ∀ d ∈ ds, d < 64)
    (p : ℕ) : ∃ st, (ds.map mode.char ++ List.replicate p 0x3D).foldlM (b64DecodeStep mode)
      ⟨0, 0, 0, 0, []⟩ = some st ∧ B64Run ds p st := by
  induction p with
  | zero =>
    rw [List.replicate_zero, List.append_nil]
    induction ds using List.reverseRecOn with
    | nil => exact ⟨_, rfl, b64Run_nil⟩
    | append_singleton ds d ih =>
      obtain ⟨st, hst, hrun⟩ := ih fun x hx => hds x (List.mem_append_left _ hx)
      obtain ⟨st', hstep, hrun'⟩ := hrun.digit hm (hds d (by simp))
      refine ⟨st', ?_, hrun'⟩
      rw [List.map_append, List.foldlM_append, hst, List.map_singleton]
      simpa using hstep
  | succ p ih =>
    obtain ⟨st, hst, hrun⟩ := ih
    obtain ⟨st', hstep, hrun'⟩ := hrun.pad hm
    refine ⟨st', ?_, hrun'⟩
    rw [List.replicate_succ', ← List.append_assoc, List.foldlM_append, hst]
    simpa using hstep

/-- Nothing else is. -/
lemma digits_of_foldlM (hm : mode ≠ .lenient)
    (h : t.foldlM (b64DecodeStep mode) ⟨0, 0, 0, 0, []⟩ = some st) :
    ∃ ds p, (∀ d ∈ ds, d < 64) ∧ t = ds.map mode.char ++ List.replicate p 0x3D ∧
      B64Run ds p st := by
  induction t using List.reverseRecOn generalizing st with
  | nil =>
    cases h
    exact ⟨[], 0, by simp, rfl, b64Run_nil⟩
  | append_singleton t c ih =>
    rw [List.foldlM_append] at h
    obtain ⟨st₀, h₀, hstep⟩ := Option.bind_eq_some_iff.mp h
    obtain ⟨ds, p, hds, rfl, hrun⟩ := ih h₀
    replace hstep : b64DecodeStep mode st₀ c = some st := by simpa using hstep
    by_cases hc : c = 0x3D
    · obtain ⟨st', hpad, hrun'⟩ := hrun.pad hm
      rw [hc, hpad] at hstep
      cases hstep
      refine ⟨ds, p + 1, hds, ?_, hrun'⟩
      rw [hc, List.replicate_succ', List.append_assoc]
    · -- A digit is only read where there is no padding yet.
      have hstep' := hstep
      rw [b64DecodeStep, if_neg fun hl => hm hl.1, if_neg hc] at hstep'
      split_ifs at hstep' with hp
      cases hv : b64ValueOf mode c with
      | none =>
        rw [hv] at hstep'
        cases hstep'
      | some d =>
        obtain ⟨hd, rfl⟩ := B64Mode.eq_char hm hv
        have hzero : p = 0 := by rw [← hrun.pads]; simpa using hp
        subst hzero
        obtain ⟨st', hdigit, hrun'⟩ := hrun.digit hm hd
        rw [hdigit] at hstep
        cases hstep
        refine ⟨ds ++ [d], 0, ?_, by simp, hrun'⟩
        intro x hx
        rcases List.mem_append.mp hx with hx | hx
        · exact hds x hx
        · rw [List.mem_singleton.mp hx]
          exact hd

/-! ### The text of a byte string -/

/-- A text of a byte string in a strict mode: its digits, with no bits over but zeros, and the
padding of the mode. -/
def B64Text (mode : B64Mode) (t b : Bytes) : Prop :=
  ∃ ds p, (∀ d ∈ ds, d < 64) ∧ t = ds.map mode.char ++ List.replicate p 0x3D ∧
    ds.length % 4 ≠ 1 ∧ mode.Pads ds.length p ∧ b.length = 6 * ds.length / 8 ∧
    value 64 ds = bytesValue b * 2 ^ (6 * ds.length % 8)

lemma and_mask_eq_zero {N e : ℕ} (he : e ≤ 32) :
    N % 2 ^ 32 &&& (1 <<< e - 1) = N % 2 ^ e := by
  rw [Nat.one_shiftLeft, Nat.and_two_pow_sub_one_eq_mod, Nat.mod_mod_of_dvd]
  exact Nat.pow_dvd_pow 2 he

/-- What `b64_decode` makes of the state at the end of the text. -/
lemma b64Decode_of_run (hm : mode ≠ .lenient)
    (hst : t.foldlM (b64DecodeStep mode) ⟨0, 0, 0, 0, []⟩ = some st)
    (hrun : B64Run ds p st) (b : Bytes) :
    b64Decode mode t = some b ↔ ds.length % 4 ≠ 1 ∧ mode.Pads ds.length p ∧
      value 64 ds % 2 ^ (6 * ds.length % 8) = 0 ∧ b = st.out := by
  have hbits : 6 * ds.length % 8 ≤ 32 := by omega
  have hover : (st.bits > 0 ∧ st.acc &&& (1 <<< st.bits - 1) ≠ 0) ↔
      value 64 ds % 2 ^ (6 * ds.length % 8) ≠ 0 := by
    rw [hrun.acc, hrun.bits, and_mask_eq_zero hbits]
    refine ⟨fun h => h.2, fun h => ⟨?_, h⟩⟩
    by_contra hzero
    have : 6 * ds.length % 8 = 0 := by omega
    rw [this, pow_zero, Nat.mod_one] at h
    exact h rfl
  simp only [b64Decode, hst, Option.bind_eq_bind, Option.bind_some, hrun.count, hrun.pads, hm,
    ne_eq, not_false_eq_true, true_and, false_and, if_false] at hover ⊢
  simp only [hover]
  cases mode with
  | lenient => exact absurd rfl hm
  | standard =>
    simp only [B64Mode.Pads, reduceCtorEq, true_and, false_and, if_false]
    split_ifs with h1 h2 h3
    · simp [h1]
    · simp only [false_iff, not_and]
      omega
    · rw [Option.some.injEq]
      constructor
      · rintro rfl
        exact ⟨h1, by omega, h3, rfl⟩
      · rintro ⟨-, -, -, rfl⟩
        rfl
    · simp [h3]
  | url =>
    simp only [B64Mode.Pads, reduceCtorEq, true_and, false_and, if_false]
    split_ifs with h1 h2 h3
    · simp [h1]
    · rw [Option.some.injEq]
      constructor
      · rintro rfl
        exact ⟨h1, h2, h3, rfl⟩
      · rintro ⟨-, -, -, rfl⟩
        rfl
    · simp [h3]
    · simp [h2]

lemma b64Decode_iff (hm : mode ≠ .lenient) (t b : Bytes) :
    b64Decode mode t = some b ↔ B64Text mode t b := by
  constructor
  · intro h
    obtain ⟨st, hst⟩ : ∃ st, t.foldlM (b64DecodeStep mode) ⟨0, 0, 0, 0, []⟩ = some st := by
      obtain ⟨st, hst, -⟩ := Option.bind_eq_some_iff.mp h
      exact ⟨st, hst⟩
    obtain ⟨ds, p, hds, ht, hrun⟩ := digits_of_foldlM hm hst
    obtain ⟨h1, h2, h3, rfl⟩ := (b64Decode_of_run hm hst hrun b).mp h
    refine ⟨ds, p, hds, ht, h1, h2, hrun.length, ?_⟩
    rw [hrun.out, Nat.div_mul_cancel (Nat.dvd_of_mod_eq_zero h3)]
  · rintro ⟨ds, p, hds, rfl, h1, h2, hlen, hval⟩
    obtain ⟨st, hst, hrun⟩ := foldlM_digits hm hds p
    refine (b64Decode_of_run hm hst hrun b).mpr ⟨h1, h2, ?_, ?_⟩
    · rw [hval, Nat.mul_mod_left]
    · refine bytesValue_inj (by rw [hlen, hrun.length]) ?_
      rw [hrun.out, hval, Nat.mul_div_cancel _ (by positivity)]

lemma digits_length {n l : ℕ} (hn : n % 4 ≠ 1) (hl : l = 6 * n / 8) : n = (8 * l + 5) / 6 := by
  have hlt := Nat.mod_lt n (show 4 > 0 by decide)
  obtain ⟨q, r, hr, rfl⟩ : ∃ q r, r < 4 ∧ n = 4 * q + r := ⟨n / 4, n % 4, hlt, by omega⟩
  interval_cases r <;> omega

lemma b64Text_unique (hm : mode ≠ .lenient) {t t' b : Bytes}
    (h : B64Text mode t b) (h' : B64Text mode t' b) : t = t' := by
  obtain ⟨ds, p, hds, rfl, h1, h2, hlen, hval⟩ := h
  obtain ⟨ds', p', hds', rfl, h1', h2', hlen', hval'⟩ := h'
  have hlength : ds.length = ds'.length := by
    rw [digits_length h1 hlen, digits_length h1' hlen']
  have hdigits : ds = ds' := by
    refine Radix.value_inj (by decide) hlength hds hds' ?_
    rw [hval, hval', hlength]
  have hpads : p = p' := by
    subst hdigits
    cases mode with
    | lenient => exact absurd rfl hm
    | standard =>
      simp only [B64Mode.Pads] at h2 h2'
      omega
    | url => exact h2.trans h2'.symm
  rw [hdigits, hpads]

/-! ### The encoder -/

lemma bytesValue_cons_three (x y z : UInt8) (d : Bytes) :
    bytesValue (x :: y :: z :: d) =
      (x.toNat * 65536 + y.toNat * 256 + z.toNat) * 256 ^ d.length + bytesValue d := by
  have happ : (x :: y :: z :: d).map UInt8.toNat =
      [x.toNat, y.toNat, z.toNat] ++ d.map UInt8.toNat := rfl
  rw [bytesValue, happ, Radix.value_append, List.length_map, bytesValue]
  congr 2
  simp [value, Nat.ofDigits]
  ring

/-- The digits that `b64_encode` writes. -/
lemma b64Encode_digits (alpha : Bytes) (pad : Bool) : ∀ raw : Bytes, ∃ ds : List ℕ,
    b64Encode alpha pad raw = ds.map (alpha.getD · 0) ++
      List.replicate (if pad then (3 - raw.length % 3) % 3 else 0) 0x3D ∧
    (∀ d ∈ ds, d < 64) ∧ ds.length = (8 * raw.length + 5) / 6 ∧
    value 64 ds = bytesValue raw * 2 ^ (6 * ds.length - 8 * raw.length)
  | [] => ⟨[], by cases pad <;> rfl, by simp, rfl, rfl⟩
  | [x] => by
    have h := digits_of x.toNat_lt (y := 0) (z := 0) (by decide) (by decide)
    rw [Nat.zero_shiftLeft, Nat.or_zero, Nat.or_zero] at h
    obtain ⟨⟨l1, l2, -, -⟩, h1, h2, -⟩ := h
    refine ⟨[_, _], by cases pad <;> rfl, ?_, by simp, ?_⟩
    · simp [l1, l2]
    · simp [value, bytesValue, Nat.ofDigits_cons]
      omega
  | [x, y] => by
    have h := digits_of x.toNat_lt y.toNat_lt (z := 0) (by decide)
    rw [Nat.or_zero] at h
    obtain ⟨⟨l1, l2, l3, -⟩, h1, h2, h3⟩ := h
    refine ⟨[_, _, _], by cases pad <;> rfl, ?_, by simp, ?_⟩
    · simp [l1, l2, l3]
    · simp [value, bytesValue, Nat.ofDigits_cons]
      omega
  | x :: y :: z :: d => by
    obtain ⟨ds, he, hds, hlen, hval⟩ := b64Encode_digits alpha pad d
    obtain ⟨⟨l1, l2, l3, l4⟩, h1, h2, h3⟩ := digits_of x.toNat_lt y.toNat_lt z.toNat_lt
    set v := x.toNat <<< 16 ||| y.toNat <<< 8 ||| z.toNat
    refine ⟨[(v >>> 18) &&& 63, (v >>> 12) &&& 63, (v >>> 6) &&& 63, v &&& 63] ++ ds, ?_, ?_, ?_, ?_⟩
    · have hmod : (x :: y :: z :: d).length % 3 = d.length % 3 := by
        simp only [List.length_cons]
        omega
      rw [hmod, List.map_append, List.append_assoc, ← he]
      rfl
    · intro e hmem
      simp only [List.cons_append, List.nil_append, List.mem_cons] at hmem
      rcases hmem with rfl | rfl | rfl | rfl | hmem
      · exact l1
      · exact l2
      · exact l3
      · exact l4
      · exact hds e hmem
    · simp only [List.length_append, List.length_cons, List.length_nil, hlen]
      omega
    · have hgroup : value 64 [(v >>> 18) &&& 63, (v >>> 12) &&& 63, (v >>> 6) &&& 63, v &&& 63] =
          x.toNat * 65536 + y.toNat * 256 + z.toNat := by
        simp only [value, List.reverse_cons, List.reverse_nil, List.nil_append, List.cons_append,
          Nat.ofDigits_cons, Nat.ofDigits_nil]
        omega
      have hexp : 6 * ([(v >>> 18) &&& 63, (v >>> 12) &&& 63, (v >>> 6) &&& 63, v &&& 63] ++
          ds).length - 8 * (x :: y :: z :: d).length = 6 * ds.length - 8 * d.length := by
        simp only [List.length_append, List.length_cons, List.length_nil]
        omega
      have hpow : 64 ^ ds.length = 256 ^ d.length * 2 ^ (6 * ds.length - 8 * d.length) := by
        have h64 : (64 : ℕ) = 2 ^ 6 := rfl
        have h256 : (256 : ℕ) = 2 ^ 8 := rfl
        rw [h64, h256, ← pow_mul, ← pow_mul, ← pow_add]
        congr 1
        omega
      rw [Radix.value_append, hgroup, hval, hexp, hpow, bytesValue_cons_three]
      ring

lemma b64Text_encode (hm : mode ≠ .lenient) (b : Bytes) :
    B64Text mode (b64Encode mode.alphabet (mode == .standard) b) b := by
  obtain ⟨ds, he, hds, hlen, hval⟩ := b64Encode_digits mode.alphabet (mode == .standard) b
  obtain ⟨q, r, hr, hb⟩ : ∃ q r, r < 3 ∧ b.length = 3 * q + r :=
    ⟨b.length / 3, b.length % 3, Nat.mod_lt _ (by decide), by omega⟩
  have hn : ds.length = 4 * q + (4 * r + 2) / 3 := by
    rw [hlen, hb]
    interval_cases r <;> omega
  refine ⟨ds, _, hds, he, ?_, ?_, ?_, ?_⟩
  · interval_cases r <;> omega
  · cases mode with
    | lenient => exact absurd rfl hm
    | standard =>
      simp only [B64Mode.Pads, BEq.rfl, if_true, hn, hb]
      interval_cases r <;> omega
    | url => rfl
  · interval_cases r <;> omega
  · rw [hval]
    congr 2
    interval_cases r <;> omega

lemma b64Decode_encode (hm : mode ≠ .lenient) (b : Bytes) :
    b64Decode mode (b64Encode mode.alphabet (mode == .standard) b) = some b :=
  (b64Decode_iff hm _ b).mpr (b64Text_encode hm b)

/-- **Two texts with the same encoding are the same.** -/
theorem base64urlEncode_injective : Function.Injective base64urlEncode := by
  intro a b h
  have ha := @b64Decode_encode .url (by decide) a
  have hb := @b64Decode_encode .url (by decide) b
  change b64Decode .url (base64urlEncode a) = some a at ha
  rw [h] at ha
  exact Option.some.inj (ha.symm.trans hb)

/-- `sb_base64_decode_strict` reads back what `sb_base64_encode` writes. -/
lemma b64DecodeStrict_encode (raw : Bytes) :
    b64DecodeStrict (b64Encode b64 true raw) = some raw :=
  @b64Decode_encode .standard (by decide) raw

lemma b64Encode_forall {alpha : Bytes} {pad : Bool} {P : UInt8 → Prop}
    (hchar : ∀ i < 64, P (alpha.getD i 0)) (hpad : pad = true → P 0x3D) (raw : Bytes) :
    ∀ c ∈ b64Encode alpha pad raw, P c := by
  obtain ⟨ds, he, hds, -⟩ := b64Encode_digits alpha pad raw
  intro c hc
  rw [he] at hc
  rcases List.mem_append.mp hc with hc | hc
  · obtain ⟨d, hd, rfl⟩ := List.mem_map.mp hc
    exact hchar d (hds d hd)
  · cases pad with
    | true => rw [List.eq_of_mem_replicate hc]; exact hpad rfl
    | false => simp at hc

lemma length_b64Encode : ∀ raw : Bytes, (b64Encode b64 true raw).length = (raw.length + 2) / 3 * 4
  | [] => rfl
  | [x] => by simp [b64Encode]
  | [x, y] => by simp [b64Encode]
  | x :: y :: z :: d => by
    have ih := length_b64Encode d
    simp only [b64Encode, List.length_cons, ih]
    omega

lemma IsKey.length {key : Bytes} (h : IsKey key) : key.length = 24 := by
  obtain ⟨raw, hraw, rfl⟩ := h
  rw [length_b64Encode, hraw]

lemma IsKey.ascii {key : Bytes} (h : IsKey key) : ∀ c ∈ key, c < 0x80 ∧ c ≠ 0 := by
  obtain ⟨raw, -, rfl⟩ := h
  exact b64Encode_forall (by decide +kernel) (by decide) raw

lemma IsKey.valid {key : Bytes} (h : IsKey key) : Utf8.Valid key :=
  Utf8.Valid.ascii fun c hc => (h.ascii c hc).1

def b64Char (i : ℕ) : UInt8 := b64.getD i 0

lemma b64Char_facts {i : ℕ} (h : i < 64) :
    b64ValueOf .standard (b64Char i) = some i ∧ b64Char i ≠ 0x3D := by
  have hall : ∀ i < 64, b64ValueOf .standard (b64Char i) = some i ∧ b64Char i ≠ 0x3D := by decide +kernel
  exact hall i h

lemma b64Encode_one (x : UInt8) : ∃ d1 d2 d3 d4, B64Digits x.toNat 0 0 d1 d2 d3 d4 ∧
    b64Encode b64 true [x] = [b64Char d1, b64Char d2, 0x3D, 0x3D] := by
  have h := digits_of x.toNat_lt (y := 0) (z := 0) (by decide) (by decide)
  rw [Nat.zero_shiftLeft, Nat.or_zero, Nat.or_zero] at h
  exact ⟨_, _, _, _, h, rfl⟩

lemma b64Encode_two (x y : UInt8) : ∃ d1 d2 d3 d4, B64Digits x.toNat y.toNat 0 d1 d2 d3 d4 ∧
    b64Encode b64 true [x, y] = [b64Char d1, b64Char d2, b64Char d3, 0x3D] := by
  have h := digits_of x.toNat_lt y.toNat_lt (z := 0) (by decide)
  rw [Nat.or_zero] at h
  exact ⟨_, _, _, _, h, rfl⟩

lemma b64Encode_three (x y z : UInt8) (d : Bytes) :
    ∃ d1 d2 d3 d4, B64Digits x.toNat y.toNat z.toNat d1 d2 d3 d4 ∧ b64Encode b64 true (x :: y :: z :: d) =
      b64Char d1 :: b64Char d2 :: b64Char d3 :: b64Char d4 :: b64Encode b64 true d :=
  ⟨_, _, _, _, digits_of x.toNat_lt y.toNat_lt z.toNat_lt, rfl⟩

lemma toUInt8_of_toNat {n : ℕ} {x : UInt8} (h : n = x.toNat) : n.toUInt8 = x := by
  rw [h]
  exact UInt8.ofNat_toNat

lemma decodeQuanta_encode : ∀ raw : Bytes, decodeQuanta (b64Encode b64 true raw) = some raw
  | [] => rfl
  | [x] => by
    obtain ⟨d1, d2, d3, d4, ⟨⟨l1, l2, -, -⟩, h1, h2, -⟩, he⟩ := b64Encode_one x
    have hzero : d2 % 16 = 0 := by omega
    simp only [he, decodeQuanta, b64Char_facts l1, b64Char_facts l2, Option.bind_eq_bind,
      Option.bind_some, ne_eq, not_true_eq_false, if_true, if_false, hzero, toUInt8_of_toNat h1]
  | [x, y] => by
    obtain ⟨d1, d2, d3, d4, ⟨⟨l1, l2, l3, -⟩, h1, h2, h3⟩, he⟩ := b64Encode_two x y
    have hzero : d3 % 4 = 0 := by omega
    simp only [he, decodeQuanta, b64Char_facts l1, b64Char_facts l2, b64Char_facts l3,
      Option.bind_eq_bind, Option.bind_some, ne_eq, not_true_eq_false, if_true, if_false, hzero,
      toUInt8_of_toNat h1, toUInt8_of_toNat h2]
  | x :: y :: z :: d => by
    obtain ⟨d1, d2, d3, d4, ⟨⟨l1, l2, l3, l4⟩, h1, h2, h3⟩, he⟩ := b64Encode_three x y z d
    have ih := decodeQuanta_encode d
    simp only [he, decodeQuanta, b64Char_facts l1, b64Char_facts l2, b64Char_facts l3,
      b64Char_facts l4, Option.bind_eq_bind, Option.bind_some, if_false, ih,
      toUInt8_of_toNat h1, toUInt8_of_toNat h2, toUInt8_of_toNat h3]

/-- The engine's decoder reads back what `sb_base64_encode` writes. -/
lemma decodeString_encode (raw : Bytes) : decodeString (b64Encode b64 true raw) = some raw := by
  have hplain : ∀ c ∈ b64Encode b64 true raw, (c != 0x0A && c != 0x0D) = true :=
    b64Encode_forall (by decide +kernel) (by decide) raw
  rw [decodeString, List.filter_eq_self.mpr hplain, decodeQuanta_encode]

/-- **The strict decoders accept one text for each byte string**: the one the encoder writes. -/
theorem base64_strict_exact (t b : Bytes) :
    (b64Decode .standard t = some b ↔ t = b64Encode b64 true b) ∧
      (base64urlDecodeStrict t = some b ↔ t = base64urlEncode b) := by
  have hexact : ∀ mode, mode ≠ B64Mode.lenient → (b64Decode mode t = some b ↔
      t = b64Encode mode.alphabet (mode == .standard) b) := by
    intro mode hm
    rw [b64Decode_iff hm]
    constructor
    · exact fun h => b64Text_unique hm h (b64Text_encode hm b)
    · rintro rfl
      exact b64Text_encode hm b
  exact ⟨hexact .standard (by decide), hexact .url (by decide)⟩

end SbEasy

import Mathlib.Data.List.DropRight
import SbEasy.JsonParse

/-!
The bytes of JSON texts: white space, the escapes and the decimal digits that `sbj_dump` writes,
and the UTF-8 form of code points.
-/

namespace SbEasy.JsonParse

@[simp] lemma eat_cons_self (c : UInt8) (s : Bytes) : eat c (c :: s) = some s := by simp [eat]

lemma eat_cons_ne {c d : UInt8} (h : d ≠ c) (s : Bytes) : eat c (d :: s) = none := by
  simp [eat, h]

lemma eat_eq_some {c : UInt8} {s r : Bytes} (h : eat c s = some r) : s = c :: r := by
  cases s with
  | nil => simp [eat] at h
  | cons d s =>
    simp only [eat] at h
    split_ifs at h with hd
    rw [hd, Option.some.inj h]

lemma skipWs_cons {c : UInt8} (hc : isWs c = false) (s : Bytes) : skipWs (c :: s) = c :: s := by
  simp [skipWs, hc]

/-- The text of a string between its quotes. -/
def escaped (s : Bytes) : Bytes := s.flatMap fun c => (escape c).getD [c]

lemma dumpRun_eq (s run out : Bytes) : dumpRun s run out = out ++ run ++ escaped s := by
  induction s generalizing run out with
  | nil => simp [dumpRun, escaped]
  | cons c s ih =>
    rw [dumpRun]
    cases h : escape c <;> simp [ih, escaped, h]

lemma dumpString_eq (s : Bytes) : dumpString s = 0x22 :: (escaped s ++ [0x22]) := by
  simp [dumpString, dumpRun_eq]

lemma escaped_high {c : Bytes} (h : ∀ a ∈ c, 0x80 ≤ a) : escaped c = c := by
  induction c with
  | nil => rfl
  | cons a c ih =>
    have ha : 0x80 ≤ a.toNat := by simpa [UInt8.le_iff_toNat_le] using h a (by simp)
    have he : escape a = none := by
      unfold escape
      split_ifs with h1 h2 h3 h4 h5 h6 h7 h8
      · subst h1; simp at ha
      · subst h2; simp at ha
      · subst h3; simp at ha
      · subst h4; simp at ha
      · subst h5; simp at ha
      · subst h6; simp at ha
      · subst h7; simp at ha
      · simp [UInt8.lt_iff_toNat_lt] at h8; omega
      · rfl
    have := ih fun x hx => h x (by simp [hx])
    simp only [escaped, List.flatMap_cons] at this ⊢
    rw [this, he]; rfl

/-- The digits of a number: no leading zero, and the value is the number. -/
structure Digits (n : ℕ) (s : Bytes) : Prop where
  digit : ∀ c ∈ s, isDigit c = true
  first : ∃ d ds, s = d :: ds ∧ (d = 0x30 → ds = [])
  value : digitsValue s = n

lemma digit_facts : ∀ k : ℕ, k < 10 → isDigit (0x30 + k.toUInt8) = true ∧
    (0x30 + k.toUInt8 - 0x30 : UInt8).toNat = k ∧ ((0x30 + k.toUInt8 : UInt8) = 0x30 → k = 0) := by
  decide

lemma digitsValue_snoc (s : Bytes) (c : UInt8) :
    digitsValue (s ++ [c]) = digitsValue s * 10 + (c - 0x30).toNat := by
  simp [digitsValue]

lemma decimalLoop_digits (fuel n : ℕ) (acc : Bytes) (hf : n < fuel) :
    ∃ s, decimalLoop fuel n acc = s ++ acc ∧ Digits n s ∧ (0 < n → s.head? ≠ some 0x30) := by
  induction fuel generalizing n acc with
  | zero => omega
  | succ fuel ih =>
    rw [decimalLoop]
    split_ifs with hn
    · obtain ⟨h1, h2, h3⟩ := digit_facts n hn
      refine ⟨[0x30 + n.toUInt8], rfl, ⟨by simpa using h1, ⟨_, _, rfl, fun _ => rfl⟩, ?_⟩, ?_⟩
      · simpa [digitsValue] using h2
      · intro hpos he
        have := h3 (by simpa using he)
        omega
    · obtain ⟨s, hs, ⟨hd, ⟨d, ds, rfl, -⟩, hv⟩, hz⟩ :=
        ih (n / 10) ((0x30 + (n % 10).toUInt8) :: acc) (by omega)
      obtain ⟨h1, h2, -⟩ := digit_facts (n % 10) (by omega)
      have hd0 : d ≠ 0x30 := by
        have := hz (by omega)
        simpa using this
      refine ⟨d :: ds ++ [0x30 + (n % 10).toUInt8], by simp [hs], ⟨?_, ?_, ?_⟩, ?_⟩
      · intro c hc
        rcases List.mem_append.mp hc with hc | hc
        · exact hd c hc
        · rw [List.mem_singleton.mp hc]; exact h1
      · exact ⟨d, ds ++ [_], rfl, fun h => absurd h hd0⟩
      · rw [digitsValue_snoc, hv, h2]; omega
      · simpa using fun _ => hd0

lemma decimal_digits (n : ℕ) : Digits n (decimal n) := by
  obtain ⟨s, hs, hd, -⟩ := decimalLoop_digits (n + 1) n [] (by omega)
  rw [decimal, hs, List.append_nil]
  exact hd

lemma decimal_injective : Function.Injective decimal := by
  intro a b h
  rw [← (decimal_digits a).value, ← (decimal_digits b).value, h]

lemma decimal_notMem {c : UInt8} (h : isDigit c = false) (n : ℕ) : c ∉ decimal n := by
  intro hc
  rw [(decimal_digits n).digit c hc] at h
  cases h

/-- A number behind a separator can be told from what is in front of it. -/
lemma append_decimal_inj {c : UInt8} (hc : isDigit c = false) {s t : Bytes} {x y : ℕ}
    (h : s ++ c :: decimal x = t ++ c :: decimal y) : s = t ∧ x = y := by
  have hone : ∀ {s t : Bytes} {x y : ℕ} {e : Bytes}, t = s ++ e →
      c :: decimal x = e ++ c :: decimal y → s = t ∧ x = y := by
    intro s t x y e ht h
    cases e with
    | nil => exact ⟨by simp [ht], decimal_injective (List.cons.inj h).2⟩
    | cons d e => exact absurd (by simp [(List.cons.inj h).2]) (decimal_notMem hc x)
  rcases List.append_eq_append_iff.mp h with ⟨e, ht, he⟩ | ⟨e, hs, he⟩
  · exact hone ht he
  · obtain ⟨hst, hxy⟩ := hone hs he
    exact ⟨hst.symm, hxy.symm⟩

/-- What may follow a number without being read as part of it. -/
def Stops (rest : Bytes) : Prop :=
  ∀ c ∈ rest.head?, isDigit c = false ∧ c ≠ 0x2E ∧ c ≠ 0x65 ∧ c ≠ 0x45

lemma digit_ne_minus {c : UInt8} (h : isDigit c = true) : c ≠ 0x2D := by rintro rfl; cases h

/-- A Unicode scalar value. -/
def Scalar (cp : ℕ) : Prop := cp < 0x110000 ∧ ¬ (0xD800 ≤ cp ∧ cp ≤ 0xDFFF)

lemma toUInt8_toNat {n : ℕ} (h : n < 256) : n.toUInt8.toNat = n := by
  simp [Nat.toUInt8, Nat.mod_eq_of_lt h]

lemma lead_or {a k x : ℕ} (hx : x < 2 ^ k) : (a <<< k) ||| x = a * 2 ^ k + x := by
  rw [← Nat.shiftLeft_add_eq_or_of_lt hx, Nat.shiftLeft_eq]

/-- The bytes of `put_utf8` as numbers. -/
lemma putUtf8_nat {cp : ℕ} (h : cp < 0x110000) : putUtf8 cp =
    if cp < 0x80 then [cp.toUInt8]
    else if cp < 0x800 then [(192 + cp / 64).toUInt8, (128 + cp % 64).toUInt8]
    else if cp < 0x10000 then
      [(224 + cp / 4096).toUInt8, (128 + cp / 64 % 64).toUInt8, (128 + cp % 64).toUInt8]
    else
      [(240 + cp / 262144).toUInt8, (128 + cp / 4096 % 64).toUInt8, (128 + cp / 64 % 64).toUInt8,
        (128 + cp % 64).toUInt8] := by
  have hand : ∀ x : ℕ, x &&& 0x3F = x % 64 := fun x => Nat.and_two_pow_sub_one_eq_mod x 6
  have htail : ∀ x : ℕ, (0x80 ||| (x &&& 0x3F)) = 128 + x % 64 := fun x => by
    rw [hand]; exact lead_or (a := 2) (k := 6) (Nat.mod_lt _ (by decide))
  simp only [putUtf8, htail, Nat.shiftRight_eq_div_pow, Nat.reducePow]
  split_ifs with c1 c2 c3
  · rfl
  · have hl : 0xC0 ||| (cp / 64) = 192 + cp / 64 := lead_or (a := 6) (k := 5) (by omega)
    rw [hl]
  · have hl : 0xE0 ||| (cp / 4096) = 224 + cp / 4096 := lead_or (a := 14) (k := 4) (by omega)
    rw [hl]
  · have hl : 0xF0 ||| (cp / 262144) = 240 + cp / 262144 := lead_or (a := 30) (k := 3) (by omega)
    rw [hl]

lemma putUtf8_char {cp : ℕ} (h : Scalar cp) : Utf8.char (putUtf8 cp) = true := by
  obtain ⟨h1, h2⟩ := h
  have hbyte : ∀ x : ℕ, (128 + x % 64).toUInt8.toNat = 128 + x % 64 := fun x =>
    toUInt8_toNat (by omega)
  rw [putUtf8_nat h1]
  split_ifs with c1 c2 c3
  · rw [Utf8.char_one, toUInt8_toNat (by omega)]; exact c1
  · rw [Utf8.char_two, Utf8.tail_nat, hbyte, toUInt8_toNat (by omega)]
    omega
  · rw [Utf8.char_three, Utf8.tail_nat, Utf8.tail_nat, hbyte, hbyte, toUInt8_toNat (by omega)]
    omega
  · rw [Utf8.char_four, Utf8.tail_nat, Utf8.tail_nat, Utf8.tail_nat, hbyte, hbyte, hbyte,
      toUInt8_toNat (by omega)]
    omega

end SbEasy.JsonParse

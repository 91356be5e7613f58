import Mathlib.Tactic

/-!
Byte strings and UTF-8.

The code validates UTF-8 twice over, once by computing code points (`utf8_seq`) and once
by ranges (`utf8_check`). Both are compared with the table of RFC 3629.
-/

namespace SbEasy

abbrev Bytes := List UInt8

instance : LawfulBEq Bytes := inferInstance

/-- The bytes of an ASCII literal. -/
def lit (s : String) : Bytes := s.toList.map fun c => c.toNat.toUInt8

/-- A property of all bytes of a text is decided along the text, not over the 256 bytes. -/
instance (s : Bytes) (p : UInt8 → Prop) [DecidablePred p] : Decidable (∀ c ∈ s, p c) :=
  List.decidableBAll p s

/-- `isspace` -/
def isSpace (c : UInt8) : Bool := c == 0x20 || (0x09 ≤ c && c ≤ 0x0D)

/-- `isalnum` -/
def isAlnum (c : UInt8) : Bool :=
  (0x30 ≤ c && c ≤ 0x39) || (0x41 ≤ c && c ≤ 0x5A) || (0x61 ≤ c && c ≤ 0x7A)

namespace Utf8

/-- A continuation byte. -/
def tail (b : UInt8) : Bool := 0x80 ≤ b && b ≤ 0xBF

/-- One character, by the table of RFC 3629. -/
def char : Bytes → Bool
  | [a] => a < 0x80
  | [a, b] => 0xC2 ≤ a && a ≤ 0xDF && tail b
  | [a, b, c] =>
    tail c &&
      ((a == 0xE0 && 0xA0 ≤ b && b ≤ 0xBF) || (0xE1 ≤ a && a ≤ 0xEC && tail b) ||
        (a == 0xED && 0x80 ≤ b && b ≤ 0x9F) || (0xEE ≤ a && a ≤ 0xEF && tail b))
  | [a, b, c, d] =>
    tail c && tail d &&
      ((a == 0xF0 && 0x90 ≤ b && b ≤ 0xBF) || (0xF1 ≤ a && a ≤ 0xF3 && tail b) ||
        (a == 0xF4 && 0x80 ≤ b && b ≤ 0x8F))
  | _ => false

/-- Valid UTF-8: a sequence of characters. -/
inductive Valid : Bytes → Prop
  | nil : Valid []
  | cons {c s : Bytes} (hc : char c = true) (hs : Valid s) : Valid (c ++ s)

/-- The lead byte: the length of the sequence and the bits it carries. -/
def lead (c : UInt8) : Option (ℕ × ℕ) :=
  if c ≥ 0xC2 ∧ c ≤ 0xDF then some (2, (c &&& 0x1F).toNat)
  else if c ≥ 0xE0 ∧ c ≤ 0xEF then some (3, (c &&& 0x0F).toNat)
  else if c ≥ 0xF0 ∧ c ≤ 0xF4 then some (4, (c &&& 0x07).toNat)
  else none

/-- The continuation bytes, shifted into the code point. -/
def more : ℕ → ℕ → Bytes → Option ℕ
  | 0, cp, _ => some cp
  | _ + 1, _, [] => none
  | n + 1, cp, d :: s =>
    if d &&& 0xC0 ≠ 0x80 then none else more n ((cp <<< 6) ||| (d &&& 0x3F).toNat) s

/-- `utf8_seq`: the length of the sequence at the head of `s`, or `0`. -/
def seq : Bytes → ℕ
  | [] => 0
  | c :: s =>
    if c < 0x80 then 1
    else
      match lead c with
      | none => 0
      | some (n, bits) =>
        if s.length + 1 < n then 0
        else
          match more (n - 1) bits s with
          | none => 0
          | some cp =>
            if (n = 3 ∧ (cp < 0x800 ∨ (cp ≥ 0xD800 ∧ cp ≤ 0xDFFF))) ∨
                (n = 4 ∧ (cp < 0x10000 ∨ cp > 0x10FFFF)) then 0
            else n

/-! ### The sequence test agrees with the table -/

lemma lead_bits (c : UInt8) :
    (0xC2 ≤ c ∧ c ≤ 0xDF → (c &&& 0x1F).toNat = c.toNat - 0xC0) ∧
      (0xE0 ≤ c ∧ c ≤ 0xEF → (c &&& 0x0F).toNat = c.toNat - 0xE0) ∧
      (0xF0 ≤ c ∧ c ≤ 0xF4 → (c &&& 0x07).toNat = c.toNat - 0xF0) := by
  obtain ⟨⟨c⟩⟩ := c
  revert c
  decide +kernel

lemma tail_iff (d : UInt8) : d &&& 0xC0 = 0x80 ↔ tail d = true := by
  obtain ⟨⟨d⟩⟩ := d
  revert d
  decide +kernel

lemma tail_bits (d : UInt8) (h : tail d = true) : (d &&& 0x3F).toNat = d.toNat - 0x80 := by
  obtain ⟨⟨d⟩⟩ := d
  revert d
  decide +kernel

@[simp] lemma more_zero (cp : ℕ) (s : Bytes) : more 0 cp s = some cp := by cases s <;> rfl

lemma more_cons (n cp : ℕ) (d : UInt8) (s : Bytes) :
    more (n + 1) cp (d :: s) =
      if tail d then more n (cp * 64 + (d.toNat - 0x80)) s else none := by
  by_cases h : tail d = true
  · have hb := tail_bits d h
    have hlt : d.toNat - 0x80 < 2 ^ 6 := by
      simp only [tail, Bool.and_eq_true, decide_eq_true_eq, UInt8.le_iff_toNat_le] at h
      simp at h; omega
    rw [more, if_neg (by simp [(tail_iff d).mpr h]), if_pos h, hb,
      ← Nat.shiftLeft_add_eq_or_of_lt hlt, Nat.shiftLeft_eq]
  · rw [more, if_pos (fun e => h ((tail_iff d).mp e)), if_neg h]

lemma tail_nat (b : UInt8) : tail b = true ↔ 128 ≤ b.toNat ∧ b.toNat ≤ 191 := by
  simp [tail, UInt8.le_iff_toNat_le]

lemma char_one (a : UInt8) : char [a] = true ↔ a.toNat < 128 := by
  simp [char, UInt8.lt_iff_toNat_lt]

lemma char_two (a b : UInt8) :
    char [a, b] = true ↔ 194 ≤ a.toNat ∧ a.toNat ≤ 223 ∧ tail b = true := by
  simp [char, UInt8.le_iff_toNat_le, and_assoc]

lemma char_three (a b c : UInt8) : char [a, b, c] = true ↔
    224 ≤ a.toNat ∧ a.toNat ≤ 239 ∧ tail b = true ∧ tail c = true ∧
      (a.toNat = 224 → 160 ≤ b.toNat) ∧ (a.toNat = 237 → b.toNat ≤ 159) := by
  simp only [char, tail, UInt8.le_iff_toNat_le, ← UInt8.toNat_inj, UInt8.reduceToNat,
    Bool.and_eq_true, Bool.or_eq_true, beq_iff_eq, decide_eq_true_eq]
  omega

lemma char_four (a b c d : UInt8) : char [a, b, c, d] = true ↔
    240 ≤ a.toNat ∧ a.toNat ≤ 244 ∧ tail b = true ∧ tail c = true ∧ tail d = true ∧
      (a.toNat = 240 → 144 ≤ b.toNat) ∧ (a.toNat = 244 → b.toNat ≤ 143) := by
  simp only [char, tail, UInt8.le_iff_toNat_le, ← UInt8.toNat_inj, UInt8.reduceToNat,
    Bool.and_eq_true, Bool.or_eq_true, beq_iff_eq, decide_eq_true_eq]
  omega

lemma lead_nat (c : UInt8) : lead c =
    if 194 ≤ c.toNat ∧ c.toNat ≤ 223 then some (2, c.toNat - 192)
    else if 224 ≤ c.toNat ∧ c.toNat ≤ 239 then some (3, c.toNat - 224)
    else if 240 ≤ c.toNat ∧ c.toNat ≤ 244 then some (4, c.toNat - 240) else none := by
  have h := lead_bits c
  simp only [UInt8.le_iff_toNat_le, UInt8.reduceToNat] at h
  simp only [lead, ge_iff_le, UInt8.le_iff_toNat_le, UInt8.reduceToNat]
  split_ifs with h1 h2 h3
  · rw [h.1 h1]
  · rw [h.2.1 h2]
  · rw [h.2.2 h3]
  · rfl

/-- A character of the table passes the sequence test, whatever follows. -/
lemma seq_char {c : Bytes} (hc : char c = true) (s : Bytes) : seq (c ++ s) = c.length := by
  match c, hc with
  | [a], h =>
    rw [char_one] at h
    simp [seq, UInt8.lt_iff_toNat_lt, h]
  | [a, b], h =>
    obtain ⟨h1, h2, hb⟩ := (char_two a b).mp h
    have hlt : ¬ a < 0x80 := by simp [UInt8.lt_iff_toNat_lt]; omega
    simp [seq, hlt, lead_nat, h1, h2, more_cons, hb]
  | [a, b, d], h =>
    obtain ⟨h1, h2, hb, hd, h3, h4⟩ := (char_three a b d).mp h
    have hlt : ¬ a < 0x80 := by simp [UInt8.lt_iff_toNat_lt]; omega
    have hn : ¬ a.toNat ≤ 223 := by omega
    rw [tail_nat] at hb hd
    simp only [List.cons_append, List.nil_append, seq, hlt, if_false, lead_nat, hn, and_false,
      h1, h2, and_self, if_true, Nat.reduceSub, more_cons, tail_nat, hb, hd, more_zero,
      List.length_cons, List.length_nil]
    rw [if_neg (by omega), if_neg (by omega)]
  | [a, b, d, e], h =>
    obtain ⟨h1, h2, hb, hd, he, h3, h4⟩ := (char_four a b d e).mp h
    have hlt : ¬ a < 0x80 := by simp [UInt8.lt_iff_toNat_lt]; omega
    have hn : ¬ a.toNat ≤ 223 := by omega
    have hn' : ¬ a.toNat ≤ 239 := by omega
    rw [tail_nat] at hb hd he
    simp only [List.cons_append, List.nil_append, seq, hlt, if_false, lead_nat, hn, hn',
      and_false, h1, h2, and_self, if_true, Nat.reduceSub, more_cons, tail_nat, hb, hd, he,
      more_zero, List.length_cons, List.length_nil]
    rw [if_neg (by omega), if_neg (by omega)]

variable {s : Bytes}

lemma char_of_seq (h : seq s ≠ 0) : ∃ c r, s = c ++ r ∧ char c = true ∧ seq s = c.length := by
  suffices hx : ∃ c r, s = c ++ r ∧ char c = true by
    obtain ⟨c, r, rfl, hc⟩ := hx
    exact ⟨c, r, rfl, hc, seq_char hc r⟩
  rcases s with _ | ⟨a, s⟩
  · simp [seq] at h
  by_cases hlt : a < 0x80
  · exact ⟨[a], s, rfl, by simp [char, hlt]⟩
  simp only [seq, hlt, if_false, lead_nat] at h
  split_ifs at h with h1 h2 h3
  · simp only [Nat.reduceSub] at h
    rcases s with _ | ⟨b, s⟩
    · simp at h
    by_cases hb : tail b = true
    · exact ⟨[a, b], s, rfl, (char_two a b).mpr ⟨h1.1, h1.2, hb⟩⟩
    · simp [more_cons, hb] at h
  · simp only [Nat.reduceSub] at h
    rcases s with _ | ⟨b, _ | ⟨c, s⟩⟩
    · simp at h
    · simp at h
    by_cases hb : tail b = true
    · by_cases hc : tail c = true
      · refine ⟨[a, b, c], s, rfl, (char_three a b c).mpr ⟨h2.1, h2.2, hb, hc, ?_⟩⟩
        simp only [more_cons, hb, hc, if_true, more_zero] at h
        rw [tail_nat] at hb hc
        simp only [List.length_cons, true_and] at h
        split_ifs at h <;> omega
      · simp [more_cons, hb, hc] at h
    · simp [more_cons, hb] at h
  · simp only [Nat.reduceSub] at h
    rcases s with _ | ⟨b, _ | ⟨c, _ | ⟨d, s⟩⟩⟩
    · simp at h
    · simp at h
    · simp at h
    by_cases hb : tail b = true
    · by_cases hc : tail c = true
      · by_cases hd : tail d = true
        · refine ⟨[a, b, c, d], s, rfl, (char_four a b c d).mpr ⟨h3.1, h3.2, hb, hc, hd, ?_⟩⟩
          simp only [more_cons, hb, hc, hd, if_true, more_zero] at h
          rw [tail_nat] at hb hc hd
          simp only [List.length_cons, true_and] at h
          split_ifs at h <;> omega
        · simp [more_cons, hb, hc, hd] at h
      · simp [more_cons, hb, hc] at h
    · simp [more_cons, hb] at h
  · simp at h

lemma char_ne_nil {c : Bytes} (hc : char c = true) : c ≠ [] := by
  rintro rfl; simp [char] at hc

lemma Valid.ascii (h : ∀ c ∈ s, c < 0x80) : Valid s := by
  induction s with
  | nil => exact .nil
  | cons a s ih =>
    have ha : Utf8.char [a] = true := by simp [Utf8.char, h a (by simp)]
    exact .cons ha (ih fun c hc => h c (by simp [hc]))

lemma char_bytes {c : Bytes} (hc : char c = true) :
    (∃ a, c = [a] ∧ a < 0x80) ∨ ∀ a ∈ c, 0x80 ≤ a := by
  match c, hc with
  | [a], h => exact Or.inl ⟨a, rfl, by simpa [char] using h⟩
  | [a, b], h =>
    obtain ⟨h1, -, hb⟩ := (char_two a b).mp h
    rw [tail_nat] at hb
    right; simp [UInt8.le_iff_toNat_le]; omega
  | [a, b, d], h =>
    obtain ⟨h1, -, hb, hd, -⟩ := (char_three a b d).mp h
    rw [tail_nat] at hb hd
    right; simp [UInt8.le_iff_toNat_le]; omega
  | [a, b, d, e], h =>
    obtain ⟨h1, -, hb, hd, he, -⟩ := (char_four a b d e).mp h
    rw [tail_nat] at hb hd he
    right; simp [UInt8.le_iff_toNat_le]; omega

/-! ### The second check -/

/-- What `utf8_check` reports. -/
inductive Fault
  | invalid (index : ℕ) (byte : UInt8)
  | incomplete (last : UInt8)

/-- `%02X` -/
def hexByte (b : UInt8) : String :=
  let d (n : ℕ) : Char := Char.ofNat (if n < 10 then 48 + n else 55 + n)
  String.ofList [d (b.toNat / 16), d (b.toNat % 16)]

def Fault.text : Fault → String
  | .invalid i b => "[json.exception.type_error.316] invalid UTF-8 byte at index " ++ toString i ++
      ": 0x" ++ hexByte b
  | .incomplete b => "[json.exception.type_error.316] incomplete UTF-8 string; last byte: 0x" ++
      hexByte b

/-- The loop of `utf8_check` at index `i`, with `need` continuation bytes owed, the next
of them in `[lo, hi]`, and the byte before. -/
def checkFrom : Bytes → ℕ → ℕ → UInt8 → UInt8 → UInt8 → Except Fault Unit
  | [], _, 0, _, _, _ => .ok ()
  | [], _, _ + 1, _, _, last => .error (.incomplete last)
  | c :: s, i, 0, _, _, _ =>
    if c < 0x80 then checkFrom s (i + 1) 0 0x80 0xBF c
    else if c ≥ 0xC2 ∧ c ≤ 0xDF then checkFrom s (i + 1) 1 0x80 0xBF c
    else if c ≥ 0xE0 ∧ c ≤ 0xEF then
      checkFrom s (i + 1) 2 (if c = 0xE0 then 0xA0 else 0x80) (if c = 0xED then 0x9F else 0xBF) c
    else if c ≥ 0xF0 ∧ c ≤ 0xF4 then
      checkFrom s (i + 1) 3 (if c = 0xF0 then 0x90 else 0x80) (if c = 0xF4 then 0x8F else 0xBF) c
    else .error (.invalid i c)
  | d :: s, i, need + 1, lo, hi, _ =>
    if d < lo ∨ d > hi then .error (.invalid i d) else checkFrom s (i + 1) need 0x80 0xBF d

/-- `utf8_check` -/
def check (s : Bytes) : Except Fault Unit := checkFrom s 0 0 0x80 0xBF 0

lemma checkFrom_owed {n : ℕ} {i : ℕ} {u : Unit} (lo hi p d : UInt8)
    (hd : lo ≤ d ∧ d ≤ hi) (h : checkFrom s (i + 1) n 0x80 0xBF d = .ok u) :
    checkFrom (d :: s) i (n + 1) lo hi p = .ok u := by
  rw [checkFrom, if_neg (not_or.mpr ⟨UInt8.not_lt.mpr hd.1, UInt8.not_lt.mpr hd.2⟩)]
  exact h

lemma check_of_valid (h : Valid s) : check s = .ok () := by
  suffices hx : ∀ i p, checkFrom s i 0 0x80 0xBF p = .ok () from hx 0 0
  induction h with
  | nil => intro i p; rfl
  | @cons c s hc hs ih =>
    intro i p
    match c, hc with
    | [a], h =>
      have ha : a < 0x80 := by simpa [Utf8.char] using h
      simp only [List.cons_append, List.nil_append, checkFrom, ha, if_true, ih]
    | [a, b], h =>
      obtain ⟨h1, h2, hb⟩ := (char_two a b).mp h
      simp only [List.cons_append, List.nil_append, checkFrom, ge_iff_le, UInt8.lt_iff_toNat_lt,
        UInt8.le_iff_toNat_le, UInt8.reduceToNat]
      rw [if_neg (by omega), if_pos ⟨h1, h2⟩]
      exact checkFrom_owed _ _ a b (by simpa [tail] using hb) (ih _ _)
    | [a, b, d], h =>
      obtain ⟨h1, h2, hb, hd, h3, h4⟩ := (char_three a b d).mp h
      simp only [List.cons_append, List.nil_append, checkFrom, ge_iff_le, UInt8.lt_iff_toNat_lt,
        UInt8.le_iff_toNat_le, UInt8.reduceToNat, ← UInt8.toNat_inj]
      rw [if_neg (by omega), if_neg (by omega), if_pos ⟨h1, h2⟩]
      have hd' := checkFrom_owed 0x80 0xBF b d (by simpa [tail] using hd)
        (ih (i + 2 + 1) d)
      refine checkFrom_owed _ _ a b ?_ hd'
      rw [tail_nat] at hb
      constructor <;> split_ifs <;> simp [UInt8.le_iff_toNat_le] <;> omega
    | [a, b, d, e], h =>
      obtain ⟨h1, h2, hb, hd, he, h3, h4⟩ := (char_four a b d e).mp h
      simp only [List.cons_append, List.nil_append, checkFrom, ge_iff_le, UInt8.lt_iff_toNat_lt,
        UInt8.le_iff_toNat_le, UInt8.reduceToNat, ← UInt8.toNat_inj]
      rw [if_neg (by omega), if_neg (by omega), if_neg (by omega), if_pos ⟨h1, h2⟩]
      have he' := checkFrom_owed 0x80 0xBF d e (by simpa [tail] using he)
        (ih (i + 3 + 1) e)
      have hd' := checkFrom_owed 0x80 0xBF b d (by simpa [tail] using hd) he'
      refine checkFrom_owed _ _ a b ?_ hd'
      rw [tail_nat] at hb
      constructor <;> split_ifs <;> simp [UInt8.le_iff_toNat_le] <;> omega

lemma checkFrom_read {n : ℕ} {i : ℕ} {lo hi p : UInt8}
    (h : checkFrom s i (n + 1) lo hi p = .ok ()) :
    ∃ d t, s = d :: t ∧ lo ≤ d ∧ d ≤ hi ∧ checkFrom t (i + 1) n 0x80 0xBF d = .ok () := by
  cases s with
  | nil => simp [checkFrom] at h
  | cons d t =>
    rw [checkFrom] at h
    split_ifs at h with hd
    rw [not_or] at hd
    exact ⟨d, t, rfl, UInt8.not_lt.mp hd.1, UInt8.not_lt.mp hd.2, h⟩

lemma valid_of_check (h : check s = .ok ()) : Valid s := by
  suffices hx : ∀ n s i p, s.length ≤ n → checkFrom s i 0 0x80 0xBF p = .ok () → Valid s from
    hx _ s 0 0 le_rfl h
  intro n
  induction n with
  | zero =>
    intro s i p hn _
    rw [List.length_eq_zero_iff.mp (Nat.le_zero.mp hn)]
    exact .nil
  | succ n ih =>
    intro s i p hn h
    cases s with
    | nil => exact .nil
    | cons a s =>
      simp only [List.length_cons] at hn
      simp only [checkFrom, ge_iff_le, UInt8.lt_iff_toNat_lt, UInt8.le_iff_toNat_le,
        UInt8.reduceToNat, ← UInt8.toNat_inj] at h
      by_cases h1 : a.toNat < 128
      · rw [if_pos h1] at h
        exact .cons ((char_one a).mpr h1) (ih s _ _ (by omega) h)
      rw [if_neg h1] at h
      by_cases h2 : 194 ≤ a.toNat ∧ a.toNat ≤ 223
      · rw [if_pos h2] at h
        obtain ⟨b, t, rfl, hb, hb', h⟩ := checkFrom_read h
        have hc : char [a, b] = true := (char_two a b).mpr ⟨h2.1, h2.2, by simp [tail, hb, hb']⟩
        simp only [List.length_cons] at hn
        exact .cons hc (ih t _ _ (by omega) h)
      rw [if_neg h2] at h
      -- the lead byte narrows the range of the byte after it
      by_cases h3 : 224 ≤ a.toNat ∧ a.toNat ≤ 239
      · rw [if_pos h3] at h
        obtain ⟨b, t, rfl, hb, hb', h⟩ := checkFrom_read h
        obtain ⟨c, t, rfl, hc, hc', h⟩ := checkFrom_read h
        simp only [List.length_cons] at hn
        refine .cons (c := [a, b, c]) ((char_three a b c).mpr ?_) (ih t _ _ (by omega) h)
        rw [UInt8.le_iff_toNat_le] at hb hb' hc hc'
        simp only [tail_nat]
        split_ifs at hb hb' <;> simp at hb hb' hc hc' <;> omega
      rw [if_neg h3] at h
      by_cases h4 : 240 ≤ a.toNat ∧ a.toNat ≤ 244
      · rw [if_pos h4] at h
        obtain ⟨b, t, rfl, hb, hb', h⟩ := checkFrom_read h
        obtain ⟨c, t, rfl, hc, hc', h⟩ := checkFrom_read h
        obtain ⟨d, t, rfl, hd, hd', h⟩ := checkFrom_read h
        simp only [List.length_cons] at hn
        refine .cons (c := [a, b, c, d]) ((char_four a b c d).mpr ?_) (ih t _ _ (by omega) h)
        rw [UInt8.le_iff_toNat_le] at hb hb' hc hc' hd hd'
        simp only [tail_nat]
        split_ifs at hb hb' <;> simp at hb hb' hc hc' hd hd' <;> omega
      · rw [if_neg h4] at h
        cases h

end Utf8
end SbEasy

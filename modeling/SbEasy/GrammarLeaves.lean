import SbEasy.JsonText
import SbEasy.Rfc8259

/-!
The leaves of the grammar: the parser of strings and the scanner of numbers read what the
grammar derives, and nothing else.
-/

namespace SbEasy.JsonParse

open Rfc8259 (Ws Hex4 High Low Chars Number)

lemma ws_iff {w : Bytes} : Ws w ↔ ∀ c ∈ w, isWs c = true := by
  simp [Ws, isWs, or_assoc]

lemma skipWs_ws (s : Bytes) : ∃ w, Ws w ∧ s = w ++ skipWs s :=
  ⟨s.takeWhile isWs, ws_iff.mpr fun _ hc => List.mem_takeWhile_imp hc,
    List.takeWhile_append_dropWhile.symm⟩

lemma skipWs_append {w : Bytes} (hw : Ws w) (s : Bytes) : skipWs (w ++ s) = skipWs s :=
  List.dropWhile_append_of_pos (ws_iff.mp hw)

lemma stops_append {w s : Bytes} (hw : Ws w)
    (hs : ∀ c ∈ s.head?, c = 0x2C ∨ c = 0x5D ∨ c = 0x7D) : Stops (w ++ s) := by
  have hstop : ∀ c : UInt8, isWs c = true ∨ c = 0x2C ∨ c = 0x5D ∨ c = 0x7D →
      isDigit c = false ∧ c ≠ 0x2E ∧ c ≠ 0x65 ∧ c ≠ 0x45 := by
    rintro ⟨⟨c⟩⟩
    revert c
    decide +kernel
  intro c hc
  cases w with
  | nil => exact hstop c (.inr (hs c hc))
  | cons x w =>
    cases hc
    exact hstop c (.inl (ws_iff.mp hw c (by simp)))

/-! ### Strings -/

lemma hexValue_eq (c : UInt8) : hexValue c = Rfc8259.hexDigit c := by
  obtain ⟨⟨c⟩⟩ := c
  revert c
  decide +kernel

lemma hexValue_lt {c : UInt8} {d : ℕ} (h : hexValue c = some d) : d < 16 := by
  have hx : ∀ c : UInt8, ∀ d ∈ hexValue c, d < 16 := by
    rintro ⟨⟨c⟩⟩
    revert c
    decide +kernel
  exact hx c d h

variable {s r q : Bytes}

lemma hexLoop_grammar {n v cp : ℕ} (h : hexLoop (n + 1) v s = .ok (cp, r)) :
    ∃ c d t, s = c :: t ∧ Rfc8259.hexDigit c = some d ∧ hexLoop n (v * 16 + d) t = .ok (cp, r) := by
  cases s with
  | nil => simp [hexLoop] at h
  | cons c t =>
    simp only [hexLoop] at h
    cases hc : hexValue c with
    | none => rw [hc] at h; cases h
    | some d =>
      rw [hc] at h
      simp only [lead_or (k := 4) (hexValue_lt hc)] at h
      exact ⟨c, d, t, rfl, hexValue_eq c ▸ hc, h⟩

lemma hex4_sound {n : ℕ} (h : hex4 s = .ok (n, r)) : ∃ q, s = q ++ r ∧ Hex4 n q := by
  unfold hex4 at h
  split_ifs at h
  obtain ⟨a, w, t1, rfl, ha, h⟩ := hexLoop_grammar h
  obtain ⟨b, x, t2, rfl, hb, h⟩ := hexLoop_grammar h
  obtain ⟨c, y, t3, rfl, hc, h⟩ := hexLoop_grammar h
  obtain ⟨d, z, t4, rfl, hd, h⟩ := hexLoop_grammar h
  simp only [hexLoop, Except.ok.injEq, Prod.mk.injEq] at h
  obtain ⟨hn, rfl⟩ := h
  have hval : n = w * 4096 + x * 256 + y * 16 + z := by omega
  exact ⟨[a, b, c, d], rfl, hval ▸ .mk ha hb hc hd⟩

lemma hex4_complete {n : ℕ} (h : Hex4 n q) (r : Bytes) : hex4 (q ++ r) = .ok (n, r) := by
  obtain @⟨a, b, c, d, w, x, y, z, ha, hb, hc, hd⟩ := h
  rw [← hexValue_eq] at ha hb hc hd
  have hlen : ¬ ([a, b, c, d] ++ r).length < 4 := by simp
  rw [hex4, if_neg hlen]
  simp only [List.cons_append, List.nil_append, hexLoop, ha, hb, hc, hd,
    lead_or (k := 4) (hexValue_lt ha), lead_or (k := 4) (hexValue_lt hb),
    lead_or (k := 4) (hexValue_lt hc), lead_or (k := 4) (hexValue_lt hd), Except.ok.injEq,
    Prod.mk.injEq, and_true]
  omega

lemma hex4_bound {n : ℕ} (h : Hex4 n q) : n < 0x10000 := by
  obtain ⟨ha, hb, hc, hd⟩ := h
  rw [← hexValue_eq] at ha hb hc hd
  have := hexValue_lt ha
  have := hexValue_lt hb
  have := hexValue_lt hc
  have := hexValue_lt hd
  omega

lemma unescape_iff {e d : UInt8} : unescape e = some d ↔ (e, d) ∈ Rfc8259.escapes := by
  constructor
  · intro h
    unfold unescape at h
    split_ifs at h with h1 h2 h3 h4 h5 h6 h7 h8 <;> cases h <;> subst_vars <;> decide
  · intro h
    simp only [Rfc8259.escapes, List.mem_cons, Prod.mk.injEq, List.not_mem_nil, or_false] at h
    rcases h with ⟨rfl, rfl⟩ | ⟨rfl, rfl⟩ | ⟨rfl, rfl⟩ | ⟨rfl, rfl⟩ | ⟨rfl, rfl⟩ | ⟨rfl, rfl⟩ |
      ⟨rfl, rfl⟩ | ⟨rfl, rfl⟩ <;> rfl

lemma scalar_pair {n m : ℕ} (hn : High n) (hm : Low m) :
    Scalar (0x10000 + (n - 0xD800) * 0x400 + (m - 0xDC00)) := by
  obtain ⟨h1, h2⟩ := hn
  obtain ⟨h3, h4⟩ := hm
  unfold Scalar
  omega

/-- `put_utf8` writes the UTF-8 form of a code point. -/
lemma putUtf8_eq {n : ℕ} (h : Scalar n) : putUtf8 n = Rfc8259.utf8 n := by
  obtain ⟨h1, h2⟩ := h
  have hval : (Char.ofNat n).val.toNat = n := by
    have : n.isValidChar := by
      rcases Nat.lt_or_ge n 0xD800 with hlt | hge
      · exact Or.inl hlt
      · exact Or.inr ⟨by omega, h1⟩
    rw [Char.ofNat, dif_pos this]
    rfl
  rw [putUtf8_nat h1]
  simp only [Rfc8259.utf8, String.utf8EncodeChar, hval]
  split_ifs with c1 c2 c3 c4 c5 c6 <;> try omega
  · rfl
  · rw [Nat.mod_eq_of_lt (by omega : n / 64 < 32), Nat.add_comm 192, Nat.add_comm 128]
  · rw [Nat.mod_eq_of_lt (by omega : n / 4096 < 16), Nat.add_comm 224, Nat.add_comm 128,
      Nat.add_comm 128]
  · rw [Nat.mod_eq_of_lt (by omega : n / 262144 < 8), Nat.add_comm 240, Nat.add_comm 128,
      Nat.add_comm 128, Nat.add_comm 128]

/-- The code units behind one `\u`: one, or a pair of surrogates. -/
inductive Units : ℕ → Bytes → Prop
  | one {n : ℕ} {q : Bytes} : Hex4 n q → ¬ High n → ¬ Low n → Units n q
  | pair {n m : ℕ} {q l : Bytes} : Hex4 n q → High n → Hex4 m l → Low m →
      Units (0x10000 + (n - 0xD800) * 0x400 + (m - 0xDC00)) (q ++ (0x5C :: 0x75 :: l))

variable {cp : ℕ} {k ds i t : Bytes}

lemma Units.chars {b : Bytes} (h : Units cp q) (hs : Chars b s) :
    Chars (Rfc8259.utf8 cp ++ b) (0x5C :: 0x75 :: (q ++ s)) := by
  cases h with
  | one hq h1 h2 => exact .unicode hq h1 h2 hs
  | pair hq h1 hl h2 => simpa using Chars.pair hq h1 hl h2 hs

lemma unicode_sound {cp : ℕ} (h : unicode s = .ok (cp, r)) : ∃ q, s = q ++ r ∧ Units cp q := by
  unfold unicode at h
  cases h4 : hex4 s with
  | error left => rw [h4] at h; cases h
  | ok p =>
    obtain ⟨n, t⟩ := p
    obtain ⟨q, rfl, hq⟩ := hex4_sound h4
    simp only [h4] at h
    by_cases hhi : 0xD800 ≤ n ∧ n ≤ 0xDBFF
    · rw [if_pos hhi] at h
      cases he : (eat 0x5C t).bind (eat 0x75) with
      | none => rw [he] at h; cases h
      | some t' =>
        simp only [he] at h
        obtain ⟨t₁, he1, he2⟩ := Option.bind_eq_some_iff.mp he
        cases h4' : hex4 t' with
        | error left => rw [h4'] at h; cases h
        | ok p' =>
          obtain ⟨m, t''⟩ := p'
          obtain ⟨l, rfl, hl⟩ := hex4_sound h4'
          simp only [h4'] at h
          split_ifs at h with hlo
          simp only [Except.ok.injEq, Prod.mk.injEq, Nat.shiftLeft_eq] at h
          obtain ⟨rfl, rfl⟩ := h
          refine ⟨q ++ (0x5C :: 0x75 :: l), ?_, .pair hq hhi hl (by unfold Low; omega)⟩
          rw [eat_eq_some he1, eat_eq_some he2]
          simp
    · rw [if_neg hhi] at h
      split_ifs at h with hlo
      simp only [Except.ok.injEq, Prod.mk.injEq] at h
      obtain ⟨rfl, rfl⟩ := h
      exact ⟨q, rfl, .one hq hhi hlo⟩

lemma unicode_complete (h : Units cp q) (r : Bytes) :
    unicode (q ++ r) = .ok (cp, r) ∧ Scalar cp := by
  cases h with
  | one hq h1 h2 =>
    have hlt := hex4_bound hq
    unfold High at h1
    unfold Low at h2
    refine ⟨?_, ?_⟩
    · simp only [unicode, hex4_complete hq]
      rw [if_neg h1, if_neg h2]
    · unfold Scalar
      omega
  | pair hq h1 hl h2 =>
    refine ⟨?_, scalar_pair h1 h2⟩
    unfold High at h1
    unfold Low at h2
    have hlo : ∀ m : ℕ, 0xDC00 ≤ m ∧ m ≤ 0xDFFF → ¬ (m < 0xDC00 ∨ m > 0xDFFF) := by omega
    simp only [unicode, List.append_assoc, List.cons_append, hex4_complete hq, eat_cons_self,
      Option.bind_some, hex4_complete hl, Nat.shiftLeft_eq]
    rw [if_pos h1, if_neg (hlo _ h2)]

lemma stringLoop_sound {fuel : ℕ} {b k : Bytes} (h : stringLoop fuel b s = .ok (k, r)) :
    ∃ d q, k = b ++ d ∧ s = q ++ (0x22 :: r) ∧ Chars d q := by
  induction fuel generalizing b s with
  | zero => simp [stringLoop] at h
  | succ fuel ih =>
    cases s with
    | nil => simp [stringLoop] at h
    | cons c s =>
      simp only [stringLoop] at h
      split_ifs at h with h1 h2 h3 h4
      · simp only [Except.ok.injEq, Prod.mk.injEq] at h
        obtain ⟨rfl, rfl⟩ := h
        exact ⟨[], [], by simp, by simp [h1], .nil⟩
      · subst h3
        cases s with
        | nil => simp at h
        | cons e s =>
          simp only at h
          cases he : unescape e with
          | some d =>
            rw [he] at h
            obtain ⟨d', q, rfl, rfl, hq⟩ := ih h
            exact ⟨d :: d', 0x5C :: e :: q, by simp, rfl, .escape (unescape_iff.mp he) hq⟩
          | none =>
            simp only [he] at h
            split_ifs at h with hu
            subst hu
            cases hcode : unicode s with
            | error err => rw [hcode] at h; cases h
            | ok p =>
              obtain ⟨cp, s'⟩ := p
              rw [hcode] at h
              obtain ⟨u, rfl, hun⟩ := unicode_sound hcode
              obtain ⟨d', q, rfl, rfl, hq⟩ := ih h
              rw [putUtf8_eq (unicode_complete hun []).2]
              exact ⟨_, _, by rw [List.append_assoc], by simp, hun.chars hq⟩
      · obtain ⟨ch, t, hct, hch, hlen⟩ := Utf8.char_of_seq h4
        rw [hlen, hct, List.take_left, List.drop_left] at h
        obtain ⟨d', q, rfl, rfl, hq⟩ := ih h
        refine ⟨ch ++ d', ch ++ q, by simp, by simp [hct], .plain hch ?_ hq⟩
        -- An ASCII character is the byte the loop has looked at.
        intro x hx
        rcases Utf8.char_bytes hch with ⟨a, rfl, -⟩ | hhigh
        · simp only [List.mem_singleton] at hx
          simp only [List.cons_append, List.nil_append, List.cons.injEq] at hct
          rw [hx, ← hct.1]
          exact ⟨UInt8.not_lt.mp h2, h1, h3⟩
        · have hx := hhigh x hx
          rw [UInt8.le_iff_toNat_le] at hx
          refine ⟨?_, ?_, ?_⟩
          · rw [UInt8.le_iff_toNat_le]
            exact le_trans (by decide) hx
          · rintro rfl
            exact absurd hx (by decide)
          · rintro rfl
            exact absurd hx (by decide)

lemma stringLoop_complete {d : Bytes} (h : Chars d q) (fuel : ℕ) (b r : Bytes)
    (hf : q.length < fuel) : stringLoop fuel b (q ++ (0x22 :: r)) = .ok (b ++ d, r) := by
  have hnil : unescape 0x75 = none := rfl
  induction h generalizing fuel b with
  | nil =>
    obtain ⟨f, rfl⟩ : ∃ f, fuel = f + 1 := ⟨fuel - 1, by omega⟩
    simp [stringLoop]
  | @plain c d' q' hc hall hq ih =>
    obtain ⟨f, rfl⟩ : ∃ f, fuel = f + 1 := ⟨fuel - 1, by omega⟩
    have hseq := Utf8.seq_char hc (q' ++ (0x22 :: r))
    obtain ⟨a, t, rfl⟩ := List.exists_cons_of_ne_nil (Utf8.char_ne_nil hc)
    obtain ⟨h1, h2, h3⟩ := hall a (by simp)
    have hz : ¬ (a :: t).length = 0 := by simp
    have htake : (a :: t ++ (q' ++ (0x22 :: r))).take (a :: t).length = a :: t := List.take_left
    have hdrop : (a :: t ++ (q' ++ (0x22 :: r))).drop (a :: t).length = q' ++ (0x22 :: r) :=
      List.drop_left
    simp only [List.length_append, List.length_cons] at hf
    have := ih f (b ++ (a :: t)) (by omega)
    rw [List.append_assoc]
    rw [List.cons_append] at hseq htake hdrop ⊢
    simp only [stringLoop, h2, UInt8.not_lt.mpr h1, h3, hz, if_false, hseq, htake, hdrop, this,
      List.append_assoc]
  | @escape e x d' q' he hq ih =>
    obtain ⟨f, rfl⟩ : ∃ f, fuel = f + 1 := ⟨fuel - 1, by omega⟩
    simp only [List.length_cons] at hf
    have := ih f (b ++ [x]) (by omega)
    simp [stringLoop, unescape_iff.mpr he, this]
  | @unicode n u d' q' hu h1 h2 hq ih =>
    obtain ⟨f, rfl⟩ : ∃ f, fuel = f + 1 := ⟨fuel - 1, by omega⟩
    simp only [List.length_cons, List.length_append] at hf
    obtain ⟨hcode, hsc⟩ := unicode_complete (.one hu h1 h2) (q' ++ (0x22 :: r))
    have := ih f (b ++ Rfc8259.utf8 n) (by omega)
    simp [stringLoop, hnil, hcode, putUtf8_eq hsc, this]
  | @pair n m u l d' q' hu h1 hl h2 hq ih =>
    obtain ⟨f, rfl⟩ : ∃ f, fuel = f + 1 := ⟨fuel - 1, by omega⟩
    simp only [List.length_cons, List.length_append] at hf
    obtain ⟨hcode, hsc⟩ := unicode_complete (.pair hu h1 hl h2) (q' ++ (0x22 :: r))
    have := ih f (b ++ Rfc8259.utf8 (0x10000 + (n - 0xD800) * 0x400 + (m - 0xDC00))) (by omega)
    simp only [List.append_assoc, List.cons_append] at hcode
    simp [stringLoop, hnil, hcode, putUtf8_eq hsc, this]

lemma parseString_sound (h : parseString s = .ok (k, r)) :
    ∃ q, s = q ++ (0x22 :: r) ∧ Chars k q := by
  obtain ⟨d, q, rfl, hs, hq⟩ := stringLoop_sound h
  exact ⟨q, hs, hq⟩

lemma parseString_complete (h : Chars k q) (r : Bytes) :
    parseString (q ++ (0x22 :: r)) = .ok (k, r) :=
  stringLoop_complete h _ [] r (by simp)

/-! ### Numbers -/

lemma isDigit_iff {c : UInt8} : isDigit c = true ↔ Rfc8259.Digit c := by
  simp [isDigit, Rfc8259.Digit]

lemma all_digits (h : ∀ c ∈ s, Rfc8259.Digit c) : ∀ c ∈ s, isDigit c = true :=
  fun c hc => isDigit_iff.mpr (h c hc)

lemma dropWhile_digits (h : ∀ c ∈ ds, Rfc8259.Digit c)
    (hr : ∀ c ∈ r.head?, isDigit c = false) : (ds ++ r).dropWhile isDigit = r := by
  rw [List.dropWhile_append_of_pos (all_digits h)]
  cases r with
  | nil => rfl
  | cons c r => simp [hr c (by simp)]

lemma takeWhile_digits (s : Bytes) : ∀ c ∈ s.takeWhile isDigit, Rfc8259.Digit c :=
  fun _ hc => isDigit_iff.mp (List.mem_takeWhile_imp hc)

lemma skipDigits_sound (h : skipDigits s = .ok r) : ∃ ds, s = ds ++ r ∧ Rfc8259.Digits ds := by
  cases s with
  | nil => simp [skipDigits] at h
  | cons c s =>
    simp only [skipDigits] at h
    split_ifs at h with hc
    cases h
    refine ⟨c :: s.takeWhile isDigit, ?_, by simp, ?_⟩
    · rw [List.cons_append, List.takeWhile_append_dropWhile]
    · intro d hd
      rcases List.mem_cons.mp hd with rfl | hd
      · exact isDigit_iff.mp hc
      · exact takeWhile_digits s d hd

lemma skipDigits_complete (h : Rfc8259.Digits ds)
    (hr : ∀ c ∈ r.head?, isDigit c = false) : skipDigits (ds ++ r) = .ok r := by
  obtain ⟨hne, hd⟩ := h
  cases ds with
  | nil => exact absurd rfl hne
  | cons c ds =>
    have := dropWhile_digits (fun d hm => hd d (List.mem_cons_of_mem _ hm)) hr
    simp only [List.cons_append, skipDigits, isDigit_iff.mpr (hd c (by simp)), if_true, this]

lemma skipInt_sound (h : skipInt s = .ok r) : ∃ i, s = i ++ r ∧ Rfc8259.Int i := by
  cases s with
  | nil => simp [skipInt] at h
  | cons c s =>
    simp only [skipInt] at h
    split_ifs at h with h0 h1
    · cases h
      exact ⟨[c], rfl, h0 ▸ .zero⟩
    · cases h
      refine ⟨c :: s.takeWhile isDigit, ?_, .positive h1.1 h1.2 (takeWhile_digits s)⟩
      rw [List.cons_append, List.takeWhile_append_dropWhile]

lemma skipInt_complete (h : Rfc8259.Int i)
    (hr : ∀ c ∈ r.head?, isDigit c = false) : skipInt (i ++ r) = .ok r := by
  cases h with
  | zero => simp [skipInt]
  | @positive c ds h1 h2 hd =>
    have hne : c ≠ 0x30 := by
      rintro rfl
      exact absurd h1 (by decide)
    simp only [List.cons_append, skipInt, hne, if_false, h1, h2, and_self, if_true,
      dropWhile_digits hd hr]

lemma skipFrac_sound {f : Bool} (h : skipFrac s = .ok (f, r)) :
    ∃ t, s = t ++ r ∧ Rfc8259.Frac t ∧ f = !t.isEmpty := by
  unfold skipFrac at h
  cases hdot : eat 0x2E s with
  | none =>
    rw [hdot] at h
    cases h
    exact ⟨[], rfl, .none, rfl⟩
  | some t =>
    simp only [hdot] at h
    cases ht : skipDigits t with
    | error e => rw [ht] at h; cases h
    | ok t' =>
      rw [ht] at h
      cases h
      obtain ⟨ds, rfl, hd⟩ := skipDigits_sound ht
      exact ⟨0x2E :: ds, by rw [eat_eq_some hdot]; rfl, .some hd, rfl⟩

lemma skipFrac_complete (h : Rfc8259.Frac t) (hr : ∀ c ∈ r.head?, isDigit c = false ∧ c ≠ 0x2E) :
    skipFrac (t ++ r) = .ok (!t.isEmpty, r) := by
  cases h with
  | none =>
    cases r with
    | nil => rfl
    | cons c r => simp [skipFrac, eat_cons_ne (hr c (by simp)).2]
  | some hd =>
    have := skipDigits_complete hd fun c hc => (hr c hc).1
    simp only [List.cons_append, skipFrac, eat_cons_self, this]
    rfl

lemma eat_or_sound {a b : UInt8} (h : (eat a s).or (eat b s) = some r) :
    ∃ e, (e = a ∨ e = b) ∧ s = e :: r := by
  cases he : eat a s with
  | some t =>
    rw [he] at h
    cases h
    exact ⟨a, Or.inl rfl, eat_eq_some he⟩
  | none =>
    rw [he] at h
    exact ⟨b, Or.inr rfl, eat_eq_some h⟩

lemma skipExp_sound {f : Bool} (h : skipExp s = .ok (f, r)) :
    ∃ t, s = t ++ r ∧ Rfc8259.Exp t ∧ f = !t.isEmpty := by
  unfold skipExp at h
  cases he : (eat 0x65 s).or (eat 0x45 s) with
  | none =>
    rw [he] at h
    cases h
    exact ⟨[], rfl, .none, rfl⟩
  | some t =>
    simp only [he] at h
    obtain ⟨e, hletter, rfl⟩ := eat_or_sound he
    obtain ⟨sign, hsign, hcut⟩ : ∃ sign, (sign = [] ∨ sign = [0x2B] ∨ sign = [0x2D]) ∧
        t = sign ++ ((eat 0x2B t).or (eat 0x2D t)).getD t := by
      cases hs : (eat 0x2B t).or (eat 0x2D t) with
      | none => exact ⟨[], Or.inl rfl, rfl⟩
      | some t' =>
        obtain ⟨c, hc, rfl⟩ := eat_or_sound hs
        exact ⟨[c], Or.inr (by simpa using hc), rfl⟩
    cases ht : skipDigits (((eat 0x2B t).or (eat 0x2D t)).getD t) with
    | error e => rw [ht] at h; cases h
    | ok t' =>
      rw [ht] at h
      cases h
      obtain ⟨ds, hds, hd⟩ := skipDigits_sound ht
      rw [hds] at hcut
      exact ⟨e :: (sign ++ ds), by rw [hcut]; simp, .some hletter hsign hd, rfl⟩

lemma skipExp_complete (h : Rfc8259.Exp t) (hr : Stops r) :
    skipExp (t ++ r) = .ok (!t.isEmpty, r) := by
  cases h with
  | none =>
    cases r with
    | nil => rfl
    | cons c r =>
      obtain ⟨-, -, h1, h2⟩ := hr c (by simp)
      simp [skipExp, eat_cons_ne h1, eat_cons_ne h2]
  | @some e sign ds he hsign hd =>
    have hletter : (eat 0x65 (e :: (sign ++ ds ++ r))).or (eat 0x45 (e :: (sign ++ ds ++ r))) =
        some (sign ++ ds ++ r) := by
      rcases he with rfl | rfl <;> simp [eat]
    obtain ⟨c, cs, rfl⟩ := List.exists_cons_of_ne_nil hd.1
    have hc : ∀ c : UInt8, isDigit c = true → c ≠ 0x2B ∧ c ≠ 0x2D := by
      rintro ⟨⟨c⟩⟩
      revert c
      decide +kernel
    obtain ⟨hplus, hminus⟩ := hc c (isDigit_iff.mpr (hd.2 c (by simp)))
    have hcut : ((eat 0x2B (sign ++ (c :: cs) ++ r)).or (eat 0x2D (sign ++ (c :: cs) ++ r))).getD
        (sign ++ (c :: cs) ++ r) = (c :: cs) ++ r := by
      rcases hsign with rfl | rfl | rfl
      · simp [eat, hplus, hminus]
      · simp [eat]
      · simp [eat]
    have := skipDigits_complete hd fun c hc => (hr c hc).1
    simp only [List.cons_append, skipExp] at hletter ⊢
    rw [hletter]
    simp only [hcut, this]
    rfl

lemma digit_not_float {c : UInt8} (h : Rfc8259.Digit c) :
    (c == 0x2E || c == 0x65 || c == 0x45) = false := by
  have : ∀ c : UInt8, isDigit c = true → (c == 0x2E || c == 0x65 || c == 0x45) = false := by
    rintro ⟨⟨c⟩⟩
    revert c
    decide +kernel
  exact this c (isDigit_iff.mpr h)

lemma isFloat_parts {m i f e : Bytes} (hm : m = [] ∨ m = [0x2D]) (hi : Rfc8259.Int i)
    (hf : Rfc8259.Frac f) (he : Rfc8259.Exp e) :
    Rfc8259.isFloat (m ++ (i ++ (f ++ e))) = (!f.isEmpty || !e.isEmpty) := by
  have hminus : Rfc8259.isFloat m = false := by rcases hm with rfl | rfl <;> rfl
  have hint : Rfc8259.isFloat i = false := by
    cases hi with
    | zero => rfl
    | positive h1 h2 hd =>
      have hle : (0x30 : UInt8) ≤ 0x31 := by decide
      rw [Rfc8259.isFloat, List.any_cons, digit_not_float ⟨UInt8.le_trans hle h1, h2⟩,
        Bool.false_or, List.any_eq_false]
      intro d hm
      simp only [digit_not_float (hd d hm), Bool.false_eq_true, not_false_eq_true]
  have hfrac : Rfc8259.isFloat f = !f.isEmpty := by cases hf <;> rfl
  have hexp : Rfc8259.isFloat e = !e.isEmpty := by
    cases he with
    | none => rfl
    | some he _ _ => rcases he with rfl | rfl <;> rfl
  have happ : ∀ a b : Bytes, Rfc8259.isFloat (a ++ b) = (Rfc8259.isFloat a || Rfc8259.isFloat b) :=
    fun a b => List.any_append
  rw [happ, happ, happ, hminus, hint, hfrac, hexp, Bool.false_or, Bool.false_or]

lemma scanNumber_sound {f : Bool} (h : scanNumber s = .ok (f, r)) :
    ∃ q, s = q ++ r ∧ Number q ∧ f = Rfc8259.isFloat q := by
  simp only [scanNumber, bind, Except.bind, pure, Except.pure] at h
  obtain ⟨m, hm, hcut⟩ : ∃ m : Bytes, (m = [] ∨ m = [0x2D]) ∧ s = m ++ (eat 0x2D s).getD s := by
    cases hs : eat 0x2D s with
    | none => exact ⟨[], Or.inl rfl, rfl⟩
    | some t => exact ⟨[0x2D], Or.inr rfl, eat_eq_some hs⟩
  cases h1 : skipInt ((eat 0x2D s).getD s) with
  | error e => rw [h1] at h; cases h
  | ok r1 =>
    simp only [h1] at h
    cases h2 : skipFrac r1 with
    | error e => rw [h2] at h; cases h
    | ok p =>
      obtain ⟨f2, r2⟩ := p
      simp only [h2] at h
      cases h3 : skipExp r2 with
      | error e => rw [h3] at h; cases h
      | ok q =>
        obtain ⟨f3, r3⟩ := q
        rw [h3] at h
        simp only [Except.ok.injEq, Prod.mk.injEq] at h
        obtain ⟨rfl, rfl⟩ := h
        obtain ⟨i, hi', hi⟩ := skipInt_sound h1
        obtain ⟨fr, rfl, hfr, rfl⟩ := skipFrac_sound h2
        obtain ⟨ex, rfl, hex, rfl⟩ := skipExp_sound h3
        refine ⟨m ++ (i ++ (fr ++ ex)), ?_, .mk hm hi hfr hex, (isFloat_parts hm hi hfr hex).symm⟩
        rw [hcut, hi']
        simp

lemma head_frac {f e : Bytes} (hf : Rfc8259.Frac f) (he : Rfc8259.Exp e) (hr : Stops r) :
    (∀ c ∈ (e ++ r).head?, isDigit c = false ∧ c ≠ 0x2E) ∧
      ∀ c ∈ (f ++ (e ++ r)).head?, isDigit c = false := by
  have hexp : ∀ c ∈ (e ++ r).head?, isDigit c = false ∧ c ≠ 0x2E := by
    intro c hc
    cases he with
    | none => exact ⟨(hr c hc).1, (hr c hc).2.1⟩
    | some he _ _ =>
      simp only [List.cons_append, List.head?_cons, Option.mem_def, Option.some.injEq] at hc
      subst hc
      rcases he with rfl | rfl <;> decide
  refine ⟨hexp, fun c hc => ?_⟩
  cases hf with
  | none => exact (hexp c hc).1
  | some _ =>
    simp only [List.cons_append, List.head?_cons, Option.mem_def, Option.some.injEq] at hc
    subst hc
    rfl

lemma int_head {i : Bytes} (h : Rfc8259.Int i) : ∃ c t, i = c :: t ∧ isDigit c = true := by
  cases h with
  | zero => exact ⟨_, _, rfl, rfl⟩
  | positive h1 h2 _ =>
    have hle : (0x30 : UInt8) ≤ 0x31 := by decide
    exact ⟨_, _, rfl, isDigit_iff.mpr ⟨UInt8.le_trans hle h1, h2⟩⟩

lemma number_head (h : Number q) : ∃ c t, q = c :: t ∧ (c = 0x2D ∨ isDigit c = true) := by
  obtain ⟨hm, hi, -, -⟩ := h
  obtain ⟨c, t, rfl, hc⟩ := int_head hi
  rcases hm with rfl | rfl
  · exact ⟨c, _, rfl, Or.inr hc⟩
  · exact ⟨0x2D, _, rfl, Or.inl rfl⟩

lemma scanNumber_complete (h : Number q) (hr : Stops r) :
    scanNumber (q ++ r) = .ok (Rfc8259.isFloat q, r) := by
  obtain @⟨m, i, f, e, hm, hi, hf, he⟩ := h
  obtain ⟨hexp, hfrac⟩ := head_frac hf he hr
  have hsign : (eat 0x2D (m ++ (i ++ (f ++ e)) ++ r)).getD (m ++ (i ++ (f ++ e)) ++ r) =
      i ++ (f ++ (e ++ r)) := by
    obtain ⟨c, t, rfl, hc⟩ := int_head hi
    rcases hm with rfl | rfl
    · simp [eat, digit_ne_minus hc]
    · simp [eat]
  rw [scanNumber, hsign, skipInt_complete hi hfrac, isFloat_parts hm hi hf he]
  simp only [bind, Except.bind, skipFrac_complete hf hexp, skipExp_complete he hr]
  rfl

variable [Platform]

lemma parseNumber_sound {v : Sbj} (h : parseNumber s = .ok (v, r)) :
    ∃ q, s = q ++ r ∧ Number q ∧ v = numberValue q (Rfc8259.isFloat q) := by
  unfold parseNumber at h
  cases hs : scanNumber s with
  | error e => rw [hs] at h; cases h
  | ok p =>
    obtain ⟨f, r'⟩ := p
    simp only [hs, Except.ok.injEq, Prod.mk.injEq] at h
    obtain ⟨rfl, rfl⟩ := h
    obtain ⟨q, rfl, hq, rfl⟩ := scanNumber_sound hs
    exact ⟨q, rfl, hq, by simp⟩

lemma parseNumber_complete (h : Number q) (hr : Stops r) :
    parseNumber (q ++ r) = .ok (numberValue q (Rfc8259.isFloat q), r) := by
  simp [parseNumber, scanNumber_complete h hr]

end SbEasy.JsonParse

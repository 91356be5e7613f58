import SbEasy.YamlText

/-!
What `yaml_sanitize` writes is made of units: a code point as it stands, a marker for a raw byte, or
an escaped code point. Each unit is one round of `yaml_unsanitize`, so any cut between units is one
between rounds.
-/

namespace SbEasy.ProxyParser

open JsonParse ChunkLoop

inductive YamlUnit
  | plain (cp : ℕ)
  | raw (b : UInt8)
  | escaped (cp : ℕ)
  deriving DecidableEq

namespace YamlUnit

/-- The code points that are written for a unit. -/
def codePoints : YamlUnit → List ℕ
  | plain cp => [cp]
  | raw b => [ysRawBase + b.toNat]
  | escaped cp => [ysEscape, cp]

def text (u : YamlUnit) : Bytes := u.codePoints.flatMap Rfc8259.utf8

/-- The bytes that a unit stands for. -/
def bytes : YamlUnit → Bytes
  | plain cp => Rfc8259.utf8 cp
  | raw b => [b]
  | escaped cp => Rfc8259.utf8 cp

def Ok : YamlUnit → Prop
  | plain cp => Scalar cp ∧ yamlPlainOk cp = true ∧ yamlNeedsEscape cp = false
  | raw _ => True
  | escaped cp => yamlNeedsEscape cp = true

end YamlUnit

/-- The units of one round of `yaml_sanitize`. -/
def unitsRound (text : Bytes) : List YamlUnit × ℕ :=
  match utf8Decode text with
  | some (n, cp) =>
    if yamlNeedsEscape cp then ([.escaped cp], n)
    else if yamlPlainOk cp then ([.plain cp], n)
    else ((text.take n).map .raw, n)
  | none => ((text.take 1).map .raw, 1)

/-- The units that the output of `yaml_sanitize` is built from. -/
def sanitizeUnits (text : Bytes) : List YamlUnit := run unitsRound text

/-! ### Sanitizing -/

lemma scalar_raw (b : UInt8) : Scalar (ysRawBase + b.toNat) := by
  have := b.toNat_lt
  unfold Scalar ysRawBase
  omega

lemma scalar_escape : Scalar ysEscape := by
  unfold Scalar
  decide

variable {cp : ℕ}

lemma yamlNeedsEscape_iff : yamlNeedsEscape cp = true ↔
    (0xF0000 ≤ cp ∧ cp ≤ 0xF00FF) ∨ cp = 0xF0100 := by
  simp only [yamlNeedsEscape, Bool.or_eq_true, Bool.and_eq_true, decide_eq_true_eq, beq_iff_eq]
  exact Iff.rfl

lemma scalar_of_needsEscape (h : yamlNeedsEscape cp = true) : Scalar cp := by
  rw [yamlNeedsEscape_iff] at h
  unfold Scalar
  omega

lemma plainOk_of_astral (h : 0x10000 ≤ cp ∧ cp ≤ 0x10FFFF) : yamlPlainOk cp = true := by
  simp [yamlPlainOk, h]

lemma advances_unitsRound : Advances unitsRound := by
  intro text _
  unfold unitsRound
  cases h : utf8Decode text with
  | none => exact one_pos
  | some p =>
    obtain ⟨n, cp⟩ := p
    have hn := (utf8_of_decode h).2.2.1
    dsimp only
    split_ifs
    all_goals exact hn

lemma flatMap_raw_text (s : Bytes) : (s.map YamlUnit.raw).flatMap YamlUnit.text =
    s.flatMap fun b => yamlcppQueue (ysRawBase + b.toNat) := by
  rw [List.flatMap_map]
  congr 1
  funext b
  rw [yamlcppQueue_eq (scalar_raw b) (by unfold ysRawBase; omega)]
  simp [YamlUnit.text, YamlUnit.codePoints]

lemma flatMap_raw_bytes (s : Bytes) : (s.map YamlUnit.raw).flatMap YamlUnit.bytes = s := by
  rw [List.flatMap_map]
  exact List.flatMap_singleton' s

lemma sanitizeRound_eq (text : Bytes) :
    sanitizeRound text = ((unitsRound text).1.flatMap YamlUnit.text, (unitsRound text).2) := by
  unfold sanitizeRound unitsRound
  cases h : utf8Decode text with
  | none => rw [flatMap_raw_text]
  | some p =>
    obtain ⟨n, cp⟩ := p
    obtain ⟨-, htake, -, -⟩ := utf8_of_decode h
    dsimp only
    split_ifs
    · rw [htake, yamlcppQueue_eq scalar_escape (by decide)]
      simp [YamlUnit.text, YamlUnit.codePoints]
    · rw [htake]
      simp [YamlUnit.text, YamlUnit.codePoints]
    · rw [flatMap_raw_text]

lemma run_sanitizeRound (text : Bytes) :
    run sanitizeRound text = (sanitizeUnits text).flatMap YamlUnit.text :=
  advances_unitsRound.run_flatMap (fun text _ => sanitizeRound_eq text) text

lemma sanitizeUnits_bytes (text : Bytes) : (sanitizeUnits text).flatMap YamlUnit.bytes = text := by
  refine advances_unitsRound.run_inverse (fun text _ => ?_) text
  unfold unitsRound
  cases h : utf8Decode text with
  | none => exact flatMap_raw_bytes _
  | some p =>
    obtain ⟨n, cp⟩ := p
    obtain ⟨-, htake, -, -⟩ := utf8_of_decode h
    dsimp only
    split_ifs
    · simp [YamlUnit.bytes, htake]
    · simp [YamlUnit.bytes, htake]
    · exact flatMap_raw_bytes _

lemma sanitizeUnits_ok (text : Bytes) : ∀ u ∈ sanitizeUnits text, u.Ok := by
  have hraw : ∀ s : Bytes, ∀ u ∈ s.map YamlUnit.raw, u.Ok := by
    intro s u hu
    obtain ⟨b, -, rfl⟩ := List.mem_map.mp hu
    exact trivial
  refine advances_unitsRound.run_forall (fun text _ => ?_) text
  unfold unitsRound
  cases h : utf8Decode text with
  | none => exact hraw _
  | some p =>
    obtain ⟨n, cp⟩ := p
    obtain ⟨hscalar, -⟩ := utf8_of_decode h
    dsimp only
    split_ifs with hescape hplain
    · simpa [YamlUnit.Ok] using hescape
    · intro u hu
      rw [List.mem_singleton.mp hu]
      exact ⟨hscalar, hplain, by simpa using hescape⟩
    · exact hraw _

lemma YamlUnit.Ok.plain {u : YamlUnit} (h : u.Ok) :
    ∀ cp ∈ u.codePoints, Scalar cp ∧ yamlPlainOk cp = true := by
  cases u with
  | plain cp => simpa [codePoints] using ⟨h.1, h.2.1⟩
  | raw b =>
    have := b.toNat_lt
    simp only [codePoints, List.mem_singleton, forall_eq]
    exact ⟨scalar_raw b, plainOk_of_astral (by unfold ysRawBase; omega)⟩
  | escaped cp =>
    have hcp := yamlNeedsEscape_iff.mp h
    simp only [codePoints, List.mem_cons, List.not_mem_nil, or_false, forall_eq_or_imp, forall_eq]
    exact ⟨⟨scalar_escape, by decide⟩, scalar_of_needsEscape h, plainOk_of_astral (by omega)⟩

/-! ### Unsanitizing -/

lemma length_utf8_astral (h : Scalar cp) (h' : 0x10000 ≤ cp) : (Rfc8259.utf8 cp).length = 4 := by
  rw [← putUtf8_eq h, putUtf8_nat h.1, if_neg (by omega), if_neg (by omega), if_neg (by omega)]
  rfl

/-- The ways a round of `yaml_unsanitize` goes on behind a code point. -/
lemma unsanitizeRound_some {rest : Bytes} {len : ℕ} (h : utf8Decode rest = some (len, cp)) :
    (∃ nl next, len = 4 ∧ cp = ysEscape ∧ 4 < rest.length ∧
        utf8Decode (rest.drop 4) = some (nl, next) ∧
        unsanitizeRound rest = ((rest.drop 4).take nl, 4 + nl)) ∨
      (len = 4 ∧ ysRawBase ≤ cp ∧ cp ≤ ysRawBase + 0xFF ∧
        unsanitizeRound rest = ([(cp - ysRawBase).toUInt8], 4)) ∨
      unsanitizeRound rest = (rest.take len, len) := by
  unfold unsanitizeRound
  rw [h]
  dsimp only
  split
  · rename_i nl next hnext
    split_ifs at hnext with hescape
    exact .inl ⟨nl, next, hescape.1, hescape.2.1, hescape.2.2, hnext, rfl⟩
  · split_ifs with hraw
    · exact .inr (.inl ⟨hraw.1, hraw.2.1, hraw.2.2, rfl⟩)
    · exact .inr (.inr rfl)

lemma shrinks_unsanitizeRound : Shrinks unsanitizeRound := by
  suffices hround : ∀ l, l ≠ [] → 0 < (unsanitizeRound l).2 ∧
      (unsanitizeRound l).1.length ≤ (unsanitizeRound l).2 ∧ (unsanitizeRound l).2 ≤ l.length from
    ⟨fun l hl => (hround l hl).1, fun l hl => (hround l hl).2.1, fun l hl => (hround l hl).2.2⟩
  intro l hl
  have hpos : 0 < l.length := List.length_pos_of_ne_nil hl
  cases h : utf8Decode l with
  | none =>
    have hround : unsanitizeRound l = (l.take 1, 1) := by rw [unsanitizeRound, h]
    rw [hround]
    exact ⟨one_pos, List.length_take_le _ _, hpos⟩
  | some p =>
    obtain ⟨len, cp⟩ := p
    obtain ⟨-, -, hlen, hle⟩ := utf8_of_decode h
    rcases unsanitizeRound_some h with ⟨nl, next, rfl, -, hlt, hnext, hround⟩ | ⟨rfl, -, -, hround⟩ |
      hround
    · obtain ⟨-, -, hnl, hle'⟩ := utf8_of_decode hnext
      rw [List.length_drop] at hle'
      rw [hround]
      have := List.length_take_le nl (l.drop 4)
      refine ⟨?_, ?_, ?_⟩ <;> dsimp only <;> omega
    · rw [hround]
      exact ⟨by simp, by simp, hle⟩
    · rw [hround]
      exact ⟨hlen, List.length_take_le _ _, hle⟩

lemma utf8_ne_nil (h : Scalar cp) : Rfc8259.utf8 cp ≠ [] := by
  rw [← putUtf8_eq h]
  exact Utf8.char_ne_nil (putUtf8_char h)

lemma YamlUnit.Ok.text_ne_nil {u : YamlUnit} (h : u.Ok) : u.text ≠ [] := by
  have hne : u.codePoints ≠ [] := by cases u <;> simp [codePoints]
  obtain ⟨cp, cps, hcps⟩ := List.exists_cons_of_ne_nil hne
  have hscalar := (h.plain cp (by simp [hcps])).1
  rw [text, hcps, List.flatMap_cons]
  exact List.append_ne_nil_of_left_ne_nil (utf8_ne_nil hscalar) _

/-- A unit is one round, whatever follows. -/
lemma unsanitizeRound_unit {u : YamlUnit} (h : u.Ok) (rest : Bytes) :
    unsanitizeRound (u.text ++ rest) = (u.bytes, u.text.length) := by
  cases u with
  | plain cp =>
    obtain ⟨hscalar, -, hno⟩ := h
    have hno' : ¬ ((0xF0000 ≤ cp ∧ cp ≤ 0xF00FF) ∨ cp = 0xF0100) := by
      rw [← yamlNeedsEscape_iff, hno]
      exact Bool.false_ne_true
    have htext : (YamlUnit.plain cp).text = Rfc8259.utf8 cp := by
      simp [YamlUnit.text, YamlUnit.codePoints]
    rw [htext]
    rcases unsanitizeRound_some (utf8Decode_utf8 hscalar rest) with
      ⟨nl, next, -, hcp, -⟩ | ⟨-, hlow, hhigh, -⟩ | hround
    · exact absurd (.inr hcp) hno'
    · exact absurd (.inl ⟨hlow, hhigh⟩) hno'
    · rw [hround, List.take_left]
      rfl
  | raw b =>
    have hb := b.toNat_lt
    have htext : (YamlUnit.raw b).text = Rfc8259.utf8 (ysRawBase + b.toNat) := by
      simp [YamlUnit.text, YamlUnit.codePoints]
    have hlen := length_utf8_astral (scalar_raw b) (by unfold ysRawBase; omega)
    have hbyte : (ysRawBase + b.toNat - ysRawBase).toUInt8 = b := by
      rw [Nat.add_sub_cancel_left]
      exact UInt8.ofNat_toNat
    rw [htext, unsanitizeRound, utf8Decode_utf8 (scalar_raw b), hlen]
    dsimp only
    rw [if_neg (by unfold ysRawBase ysEscape; omega)]
    dsimp only
    rw [if_pos (by omega), hbyte]
    rfl
  | escaped cp =>
    have hscalar := scalar_of_needsEscape h
    have htext : (YamlUnit.escaped cp).text = Rfc8259.utf8 ysEscape ++ Rfc8259.utf8 cp := by
      simp [YamlUnit.text, YamlUnit.codePoints]
    have hlen := length_utf8_astral scalar_escape (by decide)
    have hcp : 0 < (Rfc8259.utf8 cp).length := List.length_pos_of_ne_nil (utf8_ne_nil hscalar)
    have hdrop : (Rfc8259.utf8 ysEscape ++ (Rfc8259.utf8 cp ++ rest)).drop 4 =
        Rfc8259.utf8 cp ++ rest := by rw [← hlen, List.drop_left]
    rw [htext, List.append_assoc, unsanitizeRound, utf8Decode_utf8 scalar_escape, hlen, hdrop]
    dsimp only
    rw [if_pos ⟨rfl, rfl, by simp only [List.length_append, hlen]; omega⟩, utf8Decode_utf8 hscalar]
    dsimp only
    rw [List.take_left, List.length_append, hlen]
    rfl

lemma yamlUnsanitize_units {us : List YamlUnit} (h : ∀ u ∈ us, u.Ok) :
    yamlUnsanitize (us.flatMap YamlUnit.text) = us.flatMap YamlUnit.bytes := by
  rw [yamlUnsanitize, shrinks_unsanitizeRound.inPlace_eq]
  exact shrinks_unsanitizeRound.advances.run_units fun u hu =>
    ⟨(h u hu).text_ne_nil, unsanitizeRound_unit (h u hu)⟩

lemma length_yamlUnsanitize_le (s : Bytes) : (yamlUnsanitize s).length ≤ s.length := by
  rw [yamlUnsanitize, shrinks_unsanitizeRound.inPlace_eq]
  exact shrinks_unsanitizeRound.length_run_le s

/-! ### Texts that need nothing -/

lemma sanitizeNeeded_false {fuel : ℕ} {text : Bytes} (hfuel : text.length ≤ fuel)
    (h : sanitizeNeeded fuel text = false) : ∃ cps : List ℕ, text = cps.flatMap Rfc8259.utf8 ∧
      ∀ cp ∈ cps, Scalar cp ∧ yamlPlainOk cp = true ∧ yamlNeedsEscape cp = false := by
  induction fuel generalizing text with
  | zero =>
    rw [List.length_eq_zero_iff.mp (Nat.le_zero.mp hfuel)]
    exact ⟨[], rfl, by simp⟩
  | succ fuel ih =>
    rw [sanitizeNeeded] at h
    split_ifs at h with hempty
    · rw [List.isEmpty_iff.mp hempty]
      exact ⟨[], rfl, by simp⟩
    · cases hd : utf8Decode text with
      | none => rw [hd] at h; cases h
      | some p =>
        obtain ⟨n, cp⟩ := p
        rw [hd] at h
        dsimp only at h
        split_ifs at h with hbad
        rw [Bool.or_eq_true, not_or, Bool.not_eq_true', Bool.not_eq_false, Bool.not_eq_true] at hbad
        obtain ⟨hscalar, htake, hn, -⟩ := utf8_of_decode hd
        obtain ⟨cps, hcps, hall⟩ := ih (by rw [List.length_drop]; omega) h
        refine ⟨cp :: cps, ?_, ?_⟩
        · rw [List.flatMap_cons, ← htake, ← hcps, List.take_append_drop]
        · rintro x (_ | ⟨_, hx⟩)
          · exact ⟨hscalar, hbad.1, hbad.2⟩
          · exact hall x hx

/-- What `yaml_sanitize` writes: code points that libyaml takes as they are, in units that can be
cut anywhere and read back piece by piece. -/
structure Sanitized (text out : Bytes) : Prop where
  plain : ∃ cps : List ℕ, out = cps.flatMap Rfc8259.utf8 ∧
    ∀ cp ∈ cps, Scalar cp ∧ yamlPlainOk cp = true
  inverse : yamlUnsanitize out = text
  units : out = (sanitizeUnits text).flatMap YamlUnit.text
  pieces : ∀ pieces : List (List YamlUnit), pieces.flatten = sanitizeUnits text →
    (pieces.flatMap fun us => yamlUnsanitize (us.flatMap YamlUnit.text)) = text ∧
    ∀ us ∈ pieces, (yamlUnsanitize (us.flatMap YamlUnit.text)).length ≤
      (us.flatMap YamlUnit.text).length

lemma sanitized_run (text : Bytes) : Sanitized text (run sanitizeRound text) where
  plain := by
    refine ⟨(sanitizeUnits text).flatMap YamlUnit.codePoints, ?_, fun cp hcp => ?_⟩
    · rw [run_sanitizeRound, List.flatMap_assoc]
      rfl
    · obtain ⟨u, hu, hmem⟩ := List.mem_flatMap.mp hcp
      exact (sanitizeUnits_ok text u hu).plain cp hmem
  inverse := by
    rw [run_sanitizeRound, yamlUnsanitize_units (sanitizeUnits_ok text), sanitizeUnits_bytes]
  units := run_sanitizeRound text
  pieces := by
    intro pieces hpieces
    refine ⟨?_, fun us _ => length_yamlUnsanitize_le _⟩
    have hok : ∀ us ∈ pieces, ∀ u ∈ us, u.Ok := fun us hus u hu =>
      sanitizeUnits_ok text u (hpieces ▸ List.mem_flatten_of_mem hus hu)
    calc (pieces.flatMap fun us => yamlUnsanitize (us.flatMap YamlUnit.text))
        = pieces.flatMap fun us => us.flatMap YamlUnit.bytes :=
          List.flatMap_congr fun us hus => yamlUnsanitize_units (hok us hus)
      _ = pieces.flatten.flatMap YamlUnit.bytes := by
          rw [List.flatten_eq_flatMap, List.flatMap_assoc]
          rfl
      _ = text := by rw [hpieces, sanitizeUnits_bytes]

/-- **Sanitizing**: a text that `yaml_sanitize` leaves alone is UTF-8 of code points that libyaml
takes as they are and that are no markers; from any other text it makes one of such code points,
which `yaml_unsanitize` turns back, whole or in pieces, without ever making a piece longer. -/
theorem yamlSanitize_exact (text : Bytes) :
    (yamlSanitize text = none → ∃ cps : List ℕ, text = cps.flatMap Rfc8259.utf8 ∧
      ∀ cp ∈ cps, Scalar cp ∧ yamlPlainOk cp = true ∧ yamlNeedsEscape cp = false) ∧
    ∀ out, yamlSanitize text = some out → Sanitized text out := by
  unfold yamlSanitize
  split_ifs with hneeded
  · refine ⟨nofun, fun out h => ?_⟩
    rw [← Option.some.inj h]
    exact sanitized_run text
  · exact ⟨fun _ => sanitizeNeeded_false le_rfl (by simpa using hneeded), nofun⟩

/-- A control character, a marker and a truncated sequence. -/
example : sanitizeUnits [0xC2, 0x85, 0x61, 0xF3, 0xB0, 0x80, 0x80, 0xE2, 0x82] =
    [.raw 0xC2, .raw 0x85, .plain 0x61, .escaped 0xF0000, .raw 0xE2, .raw 0x82] := by decide +kernel

end SbEasy.ProxyParser

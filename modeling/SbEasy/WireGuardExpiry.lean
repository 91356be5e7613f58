import SbEasy.WireGuardAddresses

/-!
When a peer expires: `sb_wireguard_peer_expired` reads an RFC 3339 text with the `get_time` of the
C++ library and compares nanoseconds in 64 bits.
-/

namespace SbEasy.WireGuard

open JsonParse

def leapYear (year : ℤ) : Bool := year % 4 == 0 && (year % 100 != 0 || year % 400 == 0)

def yearDays (year : ℤ) : ℤ := if leapYear year then 366 else 365

def monthDays (year : ℤ) : List ℤ :=
  [31, if leapYear year then 29 else 28, 31, 30, 31, 30, 31, 31, 30, 31, 30, 31]

/-- The days of a year before one of its months, counted from zero. -/
def monthStart (year : ℤ) (month : ℕ) : ℤ := ((monthDays year).take month).sum

/-- The days from the first day of the year 0 to a date. -/
def dayNumber (year month day : ℕ) : ℤ :=
  ((List.range year).map fun y : ℕ => yearDays y).sum + monthStart year (month - 1) + (day - 1)

/-! ### The code -/

/-- `struct tm` -/
structure Tm where
  year : ℤ := 0
  mon : ℕ := 0
  mday : ℕ := 0
  hour : ℕ := 0
  min : ℕ := 0
  sec : ℕ := 0
  deriving DecidableEq

/-- `timegm`: the seconds since the epoch, by the formula of POSIX. -/
def timegm (tm : Tm) : ℤ :=
  let yday := monthStart (tm.year + 1900) tm.mon + tm.mday - 1
  tm.sec + tm.min * 60 + tm.hour * 3600 + yday * 86400 + (tm.year - 70) * 31536000 +
    (tm.year - 69) / 4 * 86400 - (tm.year - 1) / 100 * 86400 + (tm.year + 299) / 400 * 86400

def cTolower (c : UInt8) : UInt8 := if 0x41 ≤ c ∧ c ≤ 0x5A then c + 0x20 else c
def cToupper (c : UInt8) : UInt8 := if 0x61 ≤ c ∧ c ≤ 0x7A then c - 0x20 else c

/-- The loop of `extract_num`: what is left of the text, the digits taken and the value. -/
def extractLoop (max : ℕ) : ℕ → Bytes → ℕ → ℕ → Bytes × ℕ × ℕ
  | 0, s, i, value => (s, i, value)
  | _ + 1, [], i, value => ([], i, value)
  | len + 1, c :: s, i, value =>
    if isDigit c then
      let value := value * 10 + (c - 0x30).toNat
      if value > max then (c :: s, i, value) else extractLoop max len s (i + 1) value
    else (c :: s, i, value)

/-- `extract_num` -/
def extractNum (min max len : ℕ) (s : Bytes) : Option (ℕ × Bytes) :=
  let (rest, i, value) := extractLoop max len s 0 0
  if i ≠ 0 ∧ min ≤ value ∧ value ≤ max then some (value, rest) else none

/-- The conversions of the format. -/
inductive Conv
  | Y | m | d | H | M | S
  deriving DecidableEq

/-- What a conversion hands to `extract_num`. -/
def Conv.limits : Conv → ℕ × ℕ × ℕ
  | .Y => (0, 9999, 4)
  | .m => (1, 12, 2)
  | .d => (1, 31, 2)
  | .H => (0, 23, 2)
  | .M => (0, 59, 2)
  | .S => (0, 60, 2)

def Tm.set (tm : Tm) (value : ℕ) : Conv → Tm
  | .Y => { tm with year := value - 1900 }
  | .m => { tm with mon := value - 1 }
  | .d => { tm with mday := value }
  | .H => { tm with hour := value }
  | .M => { tm with min := value }
  | .S => { tm with sec := value }

/-- The format `%Y-%m-%dT%H:%M:%S`. -/
def format : List (UInt8 ⊕ Conv) :=
  [.inr .Y, .inl 0x2D, .inr .m, .inl 0x2D, .inr .d, .inl 0x54, .inr .H, .inl 0x3A, .inr .M,
    .inl 0x3A, .inr .S]

/-- The loop of `get_time_rfc3339`; a text that ends after a conversion ends the loop. -/
def getTimeLoop : List (UInt8 ⊕ Conv) → Bytes → Tm → Option Tm
  | [], _, tm => some tm
  | _ :: _, [], _ => none
  | .inl f :: fs, c :: s, tm =>
    if cTolower c ≠ cTolower f ∧ cToupper c ≠ cToupper f then none else getTimeLoop fs s tm
  | .inr k :: fs, c :: s, tm =>
    let (min, max, len) := k.limits
    match extractNum min max len (if k = .d ∧ isSpace c = true then s else c :: s) with
    | none => none
    | some (value, rest) =>
      if rest.isEmpty then some (tm.set value k) else getTimeLoop fs rest (tm.set value k)

/-- `get_time_rfc3339` -/
def getTimeRfc3339 (s : Bytes) : Option Tm :=
  let s := s.dropWhile isSpace
  if s.isEmpty then none else getTimeLoop format s {}

def fromCharsLoop : ℤ → Bytes → Option ℤ
  | value, [] => some value
  | value, c :: s =>
    if isDigit c then
      let value := value * 10 + (c - 0x30).toNat
      if value > 2147483648 then none else fromCharsLoop value s
    else none

/-- `from_chars_int_exact` -/
def fromCharsIntExact (s : Bytes) : Option ℤ := do
  let negative := s.head? == some 0x2D
  let digits := if negative then s.tail else s
  if digits.isEmpty then none
  else
    let value ← fromCharsLoop 0 digits
    let value := if negative then -value else value
    if value < -2147483648 ∨ value > 2147483647 then none else some value

/-- `parse_rfc3339`; `zone` is the text from the first `Z`, `+` or `-` after index 19. -/
def parseRfc3339 (value : Bytes) : Option ℤ := do
  if value.length < 19 then none
  else
    let tm ← getTimeRfc3339 (value.take 19)
    let seconds := timegm tm
    let zone := (value.drop 19).dropWhile fun c => c != 0x5A && c != 0x2B && c != 0x2D
    if zone ≠ [] ∧ zone.head? ≠ some 0x5A ∧ 5 < zone.length ∧ zone[3]? = some 0x3A then
      let hours ← fromCharsIntExact ((zone.drop 1).take 2)
      let minutes ← fromCharsIntExact ((zone.drop 4).take 2)
      let offset := hours * 3600 + minutes * 60
      some (if zone.head? = some 0x2B then seconds - offset else seconds + offset)
    else some seconds

/-- A number of nanoseconds in `int64_t`, modulo 2^64. -/
def nanoseconds (x : ℤ) : ℤ := Int.bmod x (2 ^ 64)

/-- `sb_wireguard_peer_expired`, with the time that the clock has read. -/
def peerExpired (expireAt : Option Bytes) (tvSec tvNsec : ℤ) : Bool :=
  match expireAt with
  | none => false
  | some text =>
    if text.isEmpty then false
    else
      match parseRfc3339 text with
      | none => false
      | some seconds =>
        decide (nanoseconds (seconds * 1000000000) < nanoseconds (tvSec * 1000000000 + tvNsec))

/-- The zone of a timestamp; letters may be in lower case. -/
inductive Zone
  | utc (lower : Bool)
  | offset (minus : Bool) (hours : Fin 24) (minutes : Fin 60)

/-- A timestamp of RFC 3339 without a fraction; the last second of a day may be a leap second. -/
structure Timestamp where
  year : ℕ
  month : ℕ
  day : ℕ
  hour : ℕ
  minute : ℕ
  second : ℕ
  lower : Bool
  zone : Zone
  year_le : year ≤ 9999
  month_mem : 1 ≤ month ∧ month ≤ 12
  day_mem : 1 ≤ day ∧ day ≤ ((monthDays year)[month - 1]?).getD 0
  hour_le : hour ≤ 23
  minute_le : minute ≤ 59
  second_le : second ≤ 60

/-- The digits of a number, with leading zeros. -/
def paddedDigits : ℕ → ℕ → Bytes
  | 0, _ => []
  | width + 1, n => paddedDigits width (n / 10) ++ [0x30 + (n % 10).toUInt8]

def Zone.text : Zone → Bytes
  | .utc lower => [if lower then 0x7A else 0x5A]
  | .offset minus hours minutes =>
    (if minus then 0x2D else 0x2B) :: (paddedDigits 2 hours ++ 0x3A :: paddedDigits 2 minutes)

namespace Timestamp

variable (t : Timestamp)

/-- The date and the time of day. -/
def civil : Bytes :=
  paddedDigits 4 t.year ++ 0x2D :: (paddedDigits 2 t.month ++ 0x2D :: (paddedDigits 2 t.day ++
    (if t.lower then 0x74 else 0x54) :: (paddedDigits 2 t.hour ++ 0x3A ::
      (paddedDigits 2 t.minute ++ 0x3A :: paddedDigits 2 t.second))))

def text : Bytes := t.civil ++ t.zone.text

end Timestamp

/-- The seconds by which the local time is ahead. -/
def Zone.ahead : Zone → ℤ
  | .utc _ => 0
  | .offset minus hours minutes =>
    if minus then -(hours * 3600 + minutes * 60) else hours * 3600 + minutes * 60

/-- The instant a timestamp denotes, in seconds since the epoch. -/
def Timestamp.instant (t : Timestamp) : ℤ :=
  (dayNumber t.year t.month t.day - dayNumber 1970 1 1) * 86400 + t.hour * 3600 + t.minute * 60 +
    t.second - t.zone.ahead

/-! ### Reading a timestamp -/

lemma paddedDigits_spec (width n : ℕ) (h : n < 10 ^ width) :
    (∀ c ∈ paddedDigits width n, isDigit c = true) ∧ (paddedDigits width n).length = width ∧
      digitsValue (paddedDigits width n) = n := by
  induction width generalizing n with
  | zero =>
    obtain rfl : n = 0 := by simpa using h
    exact ⟨by simp [paddedDigits], rfl, rfl⟩
  | succ width ih =>
    obtain ⟨hdigit, hlength, hvalue⟩ := ih (n / 10) (by omega)
    obtain ⟨hd, hv, -⟩ := digit_facts (n % 10) (by omega)
    refine ⟨fun c hc => ?_, by simp [paddedDigits, hlength], ?_⟩
    · rcases List.mem_append.mp hc with hc | hc
      · exact hdigit c hc
      · rw [List.mem_singleton.mp hc]
        exact hd
    · rw [paddedDigits, digitsValue_snoc, hvalue, hv]
      omega

lemma extractLoop_digits {ds : Bytes} (hds : ∀ c ∈ ds, isDigit c = true) {max : ℕ} (value : ℕ)
    (hmax : ds.foldl (fun v c => v * 10 + (c - 0x30).toNat) value ≤ max) (rest : Bytes) (i : ℕ) :
    extractLoop max ds.length (ds ++ rest) i value =
      (rest, i + ds.length, ds.foldl (fun v c => v * 10 + (c - 0x30).toNat) value) := by
  induction ds generalizing value i with
  | nil => rfl
  | cons c ds ih =>
    rw [List.forall_mem_cons] at hds
    have hle := le_foldl_digits ds (value * 10 + (c - 0x30).toNat)
    rw [List.foldl_cons] at hmax ⊢
    rw [List.length_cons, List.cons_append, extractLoop, if_pos hds.1]
    dsimp only
    rw [if_neg (by omega), ih hds.2 _ hmax, Nat.add_right_comm, Nat.add_assoc]

lemma getTimeLoop_conv {k : Conv} {n : ℕ} (hlow : k.limits.1 ≤ n) (hhigh : n ≤ k.limits.2.1)
    (fs : List (UInt8 ⊕ Conv)) (rest : Bytes) (tm : Tm) :
    getTimeLoop (.inr k :: fs) (paddedDigits k.limits.2.2 n ++ rest) tm =
      if rest.isEmpty then some (tm.set n k) else getTimeLoop fs rest (tm.set n k) := by
  have hwidth : k.limits.2.1 < 10 ^ k.limits.2.2 ∧ k.limits.2.2 ≠ 0 := by cases k <;> decide
  obtain ⟨hdigit, hlength, hvalue⟩ := paddedDigits_spec k.limits.2.2 n (by omega)
  obtain ⟨ds, hds⟩ : ∃ ds, ds = paddedDigits k.limits.2.2 n := ⟨_, rfl⟩
  rw [← hds] at hdigit hlength hvalue ⊢
  have hnum : extractNum k.limits.1 k.limits.2.1 k.limits.2.2 (ds ++ rest) = some (n, rest) := by
    have hloop := extractLoop_digits hdigit 0 (hvalue.trans_le hhigh) rest 0
    rw [hlength] at hloop
    unfold extractNum
    rw [hloop, show ds.foldl _ 0 = n from hvalue]
    exact if_pos ⟨by omega, hlow, hhigh⟩
  cases ds with
  | nil => exact absurd hlength.symm hwidth.2
  | cons c ds =>
    have hspace := isSpace_digit (hdigit c (by simp))
    rw [List.cons_append] at hnum ⊢
    rw [getTimeLoop]
    simp only [hspace, Bool.false_eq_true, and_false, if_false, hnum]

lemma length_civil (t : Timestamp) : t.civil.length = 19 := by simp [Timestamp.civil, paddedDigits]

lemma Timestamp.day_le (t : Timestamp) : t.day ≤ 31 := by
  have hmonth : ∀ x ∈ monthDays t.year, x ≤ 31 := by
    unfold monthDays
    split_ifs <;> decide
  have hday := t.day_mem.2
  cases hget : (monthDays t.year)[t.month - 1]? with
  | none =>
    rw [hget, Option.getD_none] at hday
    omega
  | some x =>
    have hx := hmonth x (List.mem_of_getElem? hget)
    rw [hget, Option.getD_some] at hday
    omega

lemma getTimeLoop_field {k : Conv} {n : ℕ} (hlow : k.limits.1 ≤ n) (hhigh : n ≤ k.limits.2.1)
    {c f : UInt8} (hc : cToupper c = cToupper f) (fs : List (UInt8 ⊕ Conv)) (s : Bytes) (tm : Tm) :
    getTimeLoop (.inr k :: .inl f :: fs) (paddedDigits k.limits.2.2 n ++ c :: s) tm =
      getTimeLoop fs s (tm.set n k) := by
  rw [getTimeLoop_conv hlow hhigh, List.isEmpty_cons, if_neg (by simp), getTimeLoop,
    if_neg fun hne => hne.2 hc]

lemma getTimeRfc3339_civil (t : Timestamp) : getTimeRfc3339 t.civil =
    some ⟨t.year - 1900, t.month - 1, t.day, t.hour, t.minute, t.second⟩ := by
  have hfirst := isSpace_digit (digit_facts (t.year / 10 / 10 / 10 % 10) (by omega)).1
  have hspace : t.civil.dropWhile isSpace = t.civil := by
    rw [Timestamp.civil, paddedDigits, paddedDigits, paddedDigits, paddedDigits, paddedDigits]
    exact List.dropWhile_cons_of_neg (by rw [hfirst]; simp)
  unfold getTimeRfc3339
  rw [hspace]
  refine (if_neg (by simp [Timestamp.civil])).trans ?_
  refine (getTimeLoop_field (k := .Y) (Nat.zero_le _) t.year_le rfl _ _ _).trans ?_
  refine (getTimeLoop_field (k := .m) t.month_mem.1 t.month_mem.2 rfl _ _ _).trans ?_
  refine (getTimeLoop_field (k := .d) t.day_mem.1 t.day_le (by split_ifs <;> rfl) _ _ _).trans ?_
  refine (getTimeLoop_field (k := .H) (Nat.zero_le _) t.hour_le rfl _ _ _).trans ?_
  refine (getTimeLoop_field (k := .M) (Nat.zero_le _) t.minute_le rfl _ _ _).trans ?_
  have hlast := getTimeLoop_conv (k := .S) (Nat.zero_le _) t.second_le [] []
  rw [List.append_nil] at hlast
  exact hlast _

lemma sum_yearDays (year : ℕ) : ((List.range year).map fun y : ℕ => yearDays y).sum =
    365 * year + ((year + 3) / 4 - (year + 99) / 100 + (year + 399) / 400 : ℤ) := by
  induction year with
  | zero => rfl
  | succ year ih =>
    rw [List.range_succ, List.map_append, List.sum_append, ih, List.map_singleton,
      List.sum_singleton, yearDays]
    split_ifs with hleap
    · simp only [leapYear, Bool.and_eq_true, Bool.or_eq_true, beq_iff_eq, bne_iff_ne] at hleap
      push_cast
      omega
    · simp only [leapYear, Bool.and_eq_true, Bool.or_eq_true, beq_iff_eq, bne_iff_ne, not_and, not_or,
        not_not] at hleap
      push_cast
      omega

lemma timegm_civil (t : Timestamp) :
    timegm ⟨t.year - 1900, t.month - 1, t.day, t.hour, t.minute, t.second⟩ =
      t.instant + t.zone.ahead := by
  have hepoch : dayNumber 1970 1 1 = 719528 := by
    rw [dayNumber, sum_yearDays]
    rfl
  unfold timegm Timestamp.instant
  rw [hepoch, dayNumber, sum_yearDays]
  dsimp only
  rw [show (t.year - 1900 + 1900 : ℤ) = t.year by omega]
  omega

lemma fromCharsIntExact_padded : ∀ n : ℕ, n < 60 →
    fromCharsIntExact (paddedDigits 2 n) = some (n : ℤ) := by
  decide +kernel

lemma parseRfc3339_text (t : Timestamp) : parseRfc3339 t.text = some t.instant := by
  unfold parseRfc3339
  rw [Timestamp.text, List.take_left' (length_civil t), List.drop_left' (length_civil t),
    if_neg (by rw [List.length_append, length_civil]; omega), getTimeRfc3339_civil]
  dsimp only [Option.bind_eq_bind, Option.bind_some]
  rw [timegm_civil]
  cases hzone : t.zone with
  | utc lower => cases lower <;> simp [Zone.text, Zone.ahead]
  | offset minus hours minutes =>
    have hhours := fromCharsIntExact_padded hours (by omega)
    have hminutes := fromCharsIntExact_padded minutes minutes.isLt
    obtain ⟨a, b, hab⟩ : ∃ a b, paddedDigits 2 hours = [a, b] := ⟨_, _, rfl⟩
    obtain ⟨c, d, hcd⟩ : ∃ c d, paddedDigits 2 minutes = [c, d] := ⟨_, _, rfl⟩
    rw [hab] at hhours
    rw [hcd] at hminutes
    cases minus <;> simp [Zone.text, Zone.ahead, hab, hcd, hhours, hminutes]
    omega

/-- How often a number of nanoseconds wraps around. -/
def era (x : ℤ) : ℤ := (x + 2 ^ 63) / 2 ^ 64

lemma nanoseconds_eq (x : ℤ) : nanoseconds x = x - era x * 2 ^ 64 := by
  unfold nanoseconds era
  rw [Int.bmod_def]
  split_ifs <;> omega

lemma peerExpired_iff (t : Timestamp) (tvSec tvNsec : ℤ) :
    peerExpired (some t.text) tvSec tvNsec = true ↔
      nanoseconds (t.instant * 1000000000) < nanoseconds (tvSec * 1000000000 + tvNsec) := by
  have hne : ¬ t.text.isEmpty = true := by simp [Timestamp.text, Timestamp.civil]
  rw [peerExpired, if_neg hne, parseRfc3339_text]
  exact decide_eq_true_iff

/-- **Expiry**: the instant of a timestamp and the time of the clock are compared modulo 2^64
nanoseconds, as signed numbers; as long as both are in the same of these spans, the peer has
expired just when the instant is before the time. -/
theorem peerExpired_text (t : Timestamp) (tvSec tvNsec : ℤ) :
    (peerExpired (some t.text) tvSec tvNsec = true ↔
      nanoseconds (t.instant * 1000000000) < nanoseconds (tvSec * 1000000000 + tvNsec)) ∧
    (era (t.instant * 1000000000) = era (tvSec * 1000000000 + tvNsec) →
      (peerExpired (some t.text) tvSec tvNsec = true ↔
        t.instant * 1000000000 < tvSec * 1000000000 + tvNsec)) := by
  have hexpired := peerExpired_iff t tvSec tvNsec
  refine ⟨hexpired, fun hera => hexpired.trans ?_⟩
  rw [nanoseconds_eq, nanoseconds_eq, hera]
  omega

/-- The last second that has a timestamp. -/
def lastSecond : Timestamp where
  year := 9999
  month := 12
  day := 31
  hour := 23
  minute := 59
  second := 59
  lower := false
  zone := .utc false
  year_le := le_rfl
  month_mem := by decide
  day_mem := by decide
  hour_le := le_rfl
  minute_le := le_rfl
  second_le := by decide

/-- It has expired on the first of January 2026. -/
theorem peerExpired_lastSecond :
    peerExpired (some lastSecond.text) 1767225600 0 = true ∧
      ¬ lastSecond.instant * 1000000000 < 1767225600 * 1000000000 + 0 := by
  have hinstant : lastSecond.instant = 253402300799 := by
    rw [Timestamp.instant, dayNumber, dayNumber, sum_yearDays, sum_yearDays]
    decide +kernel
  rw [peerExpired_iff, hinstant]
  decide +kernel

end SbEasy.WireGuard

import SbEasy.Base64Url

/-!
Structured URIs of the subscription parser: `scheme://user@host:port?key=value&...#fragment`, split
at its delimiters first and decoded afterwards.
-/

namespace SbEasy.ProxyParser

open JsonParse

/-- `sv_find` -/
def svFind (v : Bytes) (c : UInt8) : Option ℕ := v.findIdx? (· == c)

/-- `sv_rfind` -/
def svRfind (v : Bytes) (c : UInt8) : Option ℕ :=
  (v.reverse.findIdx? (· == c)).map fun i => v.length - 1 - i

/-- `sv_sub` -/
def svSub (v : Bytes) (off len : ℕ) : Bytes := (v.drop off).take len

/-- `sv_from` -/
def svFrom (v : Bytes) (off : ℕ) : Bytes := v.drop off

/-- `sv_starts` -/
def svStarts (v s : Bytes) : Bool := v.length ≥ s.length && v.take s.length == s

/-! ### The parser -/

/-- `hex_value`, nothing where the source returns -1. -/
def hexValue (c : UInt8) : Option UInt8 :=
  if 0x30 ≤ c ∧ c ≤ 0x39 then some (c - 0x30)
  else if 0x61 ≤ c ∧ c ≤ 0x66 then some (10 + c - 0x61)
  else if 0x41 ≤ c ∧ c ≤ 0x46 then some (10 + c - 0x41)
  else none

/-- A byte that is no escape. -/
def decodedPlain (plusAsSpace : Bool) (c : UInt8) : UInt8 :=
  if plusAsSpace && c == 0x2B then 0x20 else c

/-- `percent_decode` -/
def percentDecode (plusAsSpace : Bool) : Bytes → Bytes
  | [] => []
  | [c] => [decodedPlain plusAsSpace c]
  | [c, d] => [decodedPlain plusAsSpace c, decodedPlain plusAsSpace d]
  | c :: h :: l :: v =>
    match c == 0x25, hexValue h, hexValue l with
    | true, some hi, some lo => (hi <<< 4 ||| lo) :: percentDecode plusAsSpace v
    | _, _, _ => decodedPlain plusAsSpace c :: percentDecode plusAsSpace (h :: l :: v)

def uintMax : ℕ := 4294967295

/-- The loop of `parse_port`. -/
def parsePortLoop (port : ℕ) : Bytes → Option ℕ
  | [] => some port
  | c :: v =>
    if c < 0x30 ∨ c > 0x39 then none
    else
      let port := port * 10 + (c - 0x30).toNat
      if port > uintMax then none else parsePortLoop port v

/-- `parse_port` -/
def parsePort (v : Bytes) : Option ℕ :=
  if v.length = 0 then none
  else (parsePortLoop 0 v).filter fun port => !(port == 0 || port > 65535)

/-- `parse_host_port` -/
def parseHostPort (v : Bytes) (defaultPort : ℕ) : Option (Bytes × ℕ) :=
  if v.length = 0 then none
  else if v.head? = some 0x5B then
    match svFind v 0x5D with
    | none => none
    | some close =>
      if close = 1 then none
      else if close + 1 = v.length then some (svSub v 1 (close - 1), defaultPort)
      else if v[close + 1]? ≠ some 0x3A then none
      else (parsePort (svFrom v (close + 2))).map fun port => (svSub v 1 (close - 1), port)
  else
    match svRfind v 0x3A with
    | none => some (v, defaultPort)
    | some colon =>
      match parsePort (svFrom v (colon + 1)) with
      | none => none
      | some port => if colon = 0 then none else some (svSub v 0 colon, port)

/-- `suri` -/
structure Suri where
  userInfo : Bytes
  host : Bytes
  fragment : Bytes
  port : ℕ
  query : List (Bytes × Bytes)
  deriving DecidableEq

/-- One pair of the query. -/
def queryPair (pair : Bytes) : Bytes × Bytes :=
  match svFind pair 0x3D with
  | none => (percentDecode true pair, [])
  | some eq => (percentDecode true (svSub pair 0 eq), percentDecode true (svFrom pair (eq + 1)))

/-- The loop over the query, with fuel for as many pairs as it has bytes. -/
def queryPairs : ℕ → Bytes → List (Bytes × Bytes)
  | 0, _ => []
  | fuel + 1, query =>
    if query.length = 0 then []
    else
      match svFind query 0x26 with
      | none => [queryPair query]
      | some amp => queryPair (svSub query 0 amp) :: queryPairs fuel (svFrom query (amp + 1))

/-- The text that `snprintf` leaves in a buffer of 32 bytes. -/
def schemePrefixText (scheme : Bytes) : Bytes := (Sbj.cstr scheme ++ lit "://").take 31

/-- `parse_structured_uri` -/
def parseStructuredUri (uri scheme : Bytes) (defaultPort : ℕ) : Option Suri :=
  if svStarts uri (schemePrefixText scheme) then
    let uri := svFrom uri (schemePrefixText scheme).length
    let (fragment, uri) :=
      match svFind uri 0x23 with
      | some hash => (percentDecode false (svFrom uri (hash + 1)), svSub uri 0 hash)
      | none => ([], uri)
    let (query, uri) :=
      match svFind uri 0x3F with
      | some q => (svFrom uri (q + 1), svSub uri 0 q)
      | none => ([], uri)
    let uri :=
      match svFind uri 0x2F with
      | some slash => svSub uri 0 slash
      | none => uri
    match svRfind uri 0x40 with
    | none => none
    | some at_ =>
      match parseHostPort (svFrom uri (at_ + 1)) defaultPort with
      | none => none
      | some (host, port) =>
        some ⟨percentDecode false (svSub uri 0 at_), host, fragment, port,
          queryPairs query.length query⟩
  else none

/-- `query_value`; the key is a C string. -/
def queryValue (u : Suri) (key : Bytes) : Bytes :=
  ((u.query.reverse.find? fun p => p.1 == Sbj.cstr key).map Prod.snd).getD []

section

variable {a b : Bytes} {c : UInt8}

lemma svFind_append (h : c ∉ a) (b : Bytes) : svFind (a ++ c :: b) c = some a.length := by
  unfold svFind
  induction a with
  | nil => simp [List.findIdx?_cons]
  | cons x a ih =>
    rw [List.mem_cons, not_or] at h
    have hx : (x == c) = false := beq_false_of_ne (Ne.symm h.1)
    rw [List.cons_append, List.findIdx?_cons, hx, ih h.2]
    rfl

lemma svFind_none (h : c ∉ a) : svFind a c = none := by
  rw [svFind, List.findIdx?_eq_none_iff]
  intro x hx
  exact beq_false_of_ne fun he => h (he ▸ hx)

lemma svRfind_append (a : Bytes) (h : c ∉ b) : svRfind (a ++ c :: b) c = some a.length := by
  have hrev : c ∉ b.reverse := by rwa [List.mem_reverse]
  have hfind := svFind_append hrev a.reverse
  rw [svFind] at hfind
  rw [svRfind, List.reverse_append, List.reverse_cons, List.append_assoc, List.singleton_append,
    hfind, Option.map_some]
  congr 1
  simp only [List.length_append, List.length_cons, List.length_reverse]
  omega

@[simp] lemma svSub_append (a b : Bytes) : svSub (a ++ b) 0 a.length = a := by
  simp [svSub]

lemma svStarts_append (a b : Bytes) : svStarts (a ++ b) a = true := by
  simp [svStarts]

@[simp] lemma svFrom_append (a b : Bytes) (c : UInt8) : svFrom (a ++ c :: b) (a.length + 1) = b := by
  simp [svFrom]

end

lemma parsePortLoop_digits {v : Bytes} (hv : ∀ c ∈ v, isDigit c = true) {port : ℕ}
    (hle : v.foldl (fun n c => n * 10 + (c - 0x30).toNat) port ≤ uintMax) :
    parsePortLoop port v = some (v.foldl (fun n c => n * 10 + (c - 0x30).toNat) port) := by
  induction v generalizing port with
  | nil => rfl
  | cons c v ih =>
    have hc := hv c (by simp)
    simp only [isDigit, Bool.and_eq_true, decide_eq_true_eq] at hc
    have hbound := (le_foldl_digits v _).trans hle
    have hdigit : ¬ (c < 0x30 ∨ c > 0x39) := by
      rintro (h | h)
      · exact UInt8.not_le.mpr h hc.1
      · exact UInt8.not_le.mpr h hc.2
    rw [parsePortLoop, if_neg hdigit]
    dsimp only
    rw [if_neg (not_lt.mpr hbound)]
    exact ih (fun x hx => hv x (by simp [hx])) hle

lemma parsePort_decimal {port : ℕ} (h : 1 ≤ port ∧ port ≤ 65535) :
    parsePort (decimal port) = some port := by
  have hd := decimal_digits port
  have hvalue := hd.value
  rw [digitsValue] at hvalue
  obtain ⟨d, ds, hs, -⟩ := hd.first
  have hloop : parsePortLoop 0 (decimal port) = some port := by
    rw [parsePortLoop_digits hd.digit (by rw [hvalue]; unfold uintMax; omega), hvalue]
  rw [parsePort, hloop, if_neg (by rw [hs]; simp)]
  simp only [Option.filter_some]
  rw [if_pos]
  simp only [Bool.not_eq_true', Bool.or_eq_false_iff, beq_eq_false_iff_ne, decide_eq_false_iff_not]
  omega

/-- The bytes that are written as they are. -/
def unreserved (c : UInt8) : Bool := isAlnum c || c == 0x2D || c == 0x5F || c == 0x2E || c == 0x7E

/-- Percent-encoding, with a choice of the hexadecimal digits. -/
def percentEncode (hex : UInt8 → UInt8) (s : Bytes) : Bytes :=
  s.flatMap fun c => if unreserved c then [c] else [0x25, hex (c >>> 4), hex (c &&& 0x0F)]

/-- The digits are hexadecimal digits of their value. -/
def HexDigits (hex : UInt8 → UInt8) : Prop := ∀ n, n < 16 → hexValue (hex n) = some n

lemma forall_byte {P : UInt8 → Prop} (h : ∀ n < 256, P (UInt8.ofNat n)) (c : UInt8) : P c := by
  have hc := h c.toNat c.toNat_lt
  rwa [UInt8.ofNat_toNat] at hc

lemma hexDigits_upper : HexDigits upperHexDigit := by
  unfold HexDigits
  exact forall_byte (by decide +kernel)

lemma nibbles : ∀ c : UInt8,
    c >>> 4 < 16 ∧ c &&& 0x0F < 16 ∧ (c >>> 4) <<< 4 ||| (c &&& 0x0F) = c :=
  forall_byte (by decide +kernel)

lemma unreserved_ne : ∀ c, unreserved c = true → c ≠ 0x25 ∧ c ≠ 0x2B :=
  forall_byte (by decide +kernel)

lemma unreserved_of_hexValue : ∀ c n, hexValue c = some n → unreserved c = true := by
  have hall : ∀ c, (hexValue c).isSome = true → unreserved c = true :=
    forall_byte (by decide +kernel)
  exact fun c n h => hall c (by rw [h]; rfl)

variable {c : UInt8}

lemma percentDecode_plain {plus : Bool} (h : c ≠ 0x25) (v : Bytes) :
    percentDecode plus (c :: v) = decodedPlain plus c :: percentDecode plus v := by
  match v with
  | [] => rfl
  | [d] => rfl
  | x :: y :: v => simp only [percentDecode, beq_false_of_ne h]

variable {hex : UInt8 → UInt8}

/-- Decoding inverts encoding, whatever follows. -/
lemma percentDecode_encode (hhex : HexDigits hex) (plus : Bool) (s : Bytes) :
    percentDecode plus (percentEncode hex s) = s := by
  induction s with
  | nil => rfl
  | cons c s ih =>
    rw [percentEncode, List.flatMap_cons, ← percentEncode]
    split_ifs with hc
    · obtain ⟨hne, hplus⟩ := unreserved_ne c hc
      rw [List.singleton_append, percentDecode_plain hne, ih, decodedPlain,
        beq_false_of_ne hplus, Bool.and_false]
      rfl
    · obtain ⟨hhi, hlo, hc⟩ := nibbles c
      simp only [List.cons_append, List.nil_append, percentDecode, hhex _ hhi, hhex _ hlo,
        beq_self_eq_true, hc, ih]

lemma mem_percentEncode (hhex : HexDigits hex) {s : Bytes}
    (h : c ∈ percentEncode hex s) : unreserved c = true ∨ c = 0x25 := by
  obtain ⟨x, -, hx⟩ := List.mem_flatMap.mp h
  split_ifs at hx with hu
  · rw [List.mem_singleton.mp hx]
    exact .inl hu
  · obtain ⟨hhi, hlo, -⟩ := nibbles x
    simp only [List.mem_cons, List.not_mem_nil, or_false] at hx
    rcases hx with rfl | rfl | rfl
    · exact .inr rfl
    · exact .inl (unreserved_of_hexValue _ _ (hhex _ hhi))
    · exact .inl (unreserved_of_hexValue _ _ (hhex _ hlo))

/-- The delimiters that the parser looks for. -/
def delimiters : Bytes := lit "#?/@&="

lemma delimiter_notMem (hhex : HexDigits hex) (hc : c ∈ delimiters) (s : Bytes) :
    c ∉ percentEncode hex s := by
  intro h
  rcases mem_percentEncode hhex h with hu | rfl
  · revert hu
    have hall : ∀ x ∈ delimiters, unreserved x = false := by decide
    rw [hall c hc]
    exact Bool.false_ne_true
  · revert hc
    decide

/-! ### The text of a URI -/

/-- The ways to write a host. -/
inductive HostText : Bytes → Bytes → Prop
  | plain {host : Bytes} (nonempty : host ≠ []) (chars : ∀ c ∈ lit "/?#@:[", c ∉ host) :
      HostText host host
  | bracketed {host : Bytes} (nonempty : host ≠ []) (chars : ∀ c ∈ lit "/?#@]", c ∉ host) :
      HostText host (0x5B :: host ++ [0x5D])

def pairText (hex : UInt8 → UInt8) (p : Bytes × Bytes) : Bytes :=
  percentEncode hex p.1 ++ 0x3D :: percentEncode hex p.2

/-- The pairs, with `&` between them. -/
def queryText (hex : UInt8 → UInt8) : List (Bytes × Bytes) → Bytes
  | [] => []
  | [p] => pairText hex p
  | p :: q :: ps => pairText hex p ++ 0x26 :: queryText hex (q :: ps)

/-- `scheme://user@host:port?key=value&...#fragment` -/
def uriText (hex : UInt8 → UInt8) (scheme hostText : Bytes) (u : Suri) : Bytes :=
  scheme ++ lit "://" ++ (percentEncode hex u.userInfo ++ 0x40 :: (hostText ++ 0x3A :: decimal u.port) ++
    0x3F :: queryText hex u.query ++ 0x23 :: percentEncode hex u.fragment)

lemma parseHostPort_text {host text : Bytes} (h : HostText host text) {port : ℕ}
    (hport : 1 ≤ port ∧ port ≤ 65535) (defaultPort : ℕ) :
    parseHostPort (text ++ 0x3A :: decimal port) defaultPort = some (host, port) := by
  have hcolon : (0x3A : UInt8) ∉ decimal port := decimal_notMem (by decide) port
  cases h with
  | plain hne hchars =>
    obtain ⟨x, t, rfl⟩ := List.exists_cons_of_ne_nil hne
    have hx : x ≠ 0x5B := fun he => hchars 0x5B (by decide) (by simp [he])
    rw [parseHostPort, if_neg (by simp), if_neg (by simpa using hx), svRfind_append _ hcolon]
    simp only [svFrom_append, parsePort_decimal hport, svSub_append]
    rw [if_neg (by simp)]
  | bracketed hne hchars =>
    have hclose : (0x5D : UInt8) ∉ 0x5B :: host := by
      rw [List.mem_cons, not_or]
      exact ⟨by decide, hchars 0x5D (by decide)⟩
    have htext : 0x5B :: host ++ [0x5D] ++ 0x3A :: decimal port =
        (0x5B :: host) ++ 0x5D :: 0x3A :: decimal port := by simp
    have hlen : host.length ≠ 0 := fun he => hne (List.length_eq_zero_iff.mp he)
    rw [htext, parseHostPort, if_neg (by simp), if_pos (by simp), svFind_append hclose]
    simp only [List.length_cons]
    rw [if_neg (by omega), if_neg (by simp), if_neg (by simp)]
    have hrest : svFrom ((0x5B :: host) ++ 0x5D :: 0x3A :: decimal port) (host.length + 1 + 2) =
        decimal port := by simp [svFrom]
    rw [hrest, parsePort_decimal hport, Option.map_some]
    simp [svSub]

lemma queryPair_text (hhex : HexDigits hex) (p : Bytes × Bytes) : queryPair (pairText hex p) = p := by
  have heq : (0x3D : UInt8) ∈ delimiters := by decide
  rw [queryPair, pairText, svFind_append (delimiter_notMem hhex heq p.1)]
  simp only [svSub_append, svFrom_append, percentDecode_encode hhex]

lemma ampersand_notMem_pairText (hhex : HexDigits hex) (p : Bytes × Bytes) :
    0x26 ∉ pairText hex p := by
  have hamp : (0x26 : UInt8) ∈ delimiters := by decide
  rw [pairText, List.mem_append, List.mem_cons]
  rintro (h | h | h)
  · exact delimiter_notMem hhex hamp _ h
  · cases h
  · exact delimiter_notMem hhex hamp _ h

lemma queryPairs_text (hhex : HexDigits hex) (ps : List (Bytes × Bytes)) {fuel : ℕ}
    (hfuel : (queryText hex ps).length ≤ fuel) : queryPairs fuel (queryText hex ps) = ps := by
  induction ps using queryText.induct generalizing fuel with
  | case1 => cases fuel <;> rfl
  | case2 p =>
    rw [queryText] at hfuel ⊢
    have hpos : (pairText hex p).length ≠ 0 := by simp [pairText]
    obtain ⟨fuel, rfl⟩ := Nat.exists_eq_succ_of_ne_zero (by omega : fuel ≠ 0)
    rw [queryPairs, if_neg hpos, svFind_none (ampersand_notMem_pairText hhex p)]
    simp only [queryPair_text hhex]
  | case3 p q ps ih =>
    rw [queryText] at hfuel ⊢
    rw [List.length_append, List.length_cons] at hfuel
    obtain ⟨fuel, rfl⟩ := Nat.exists_eq_succ_of_ne_zero (by omega : fuel ≠ 0)
    rw [queryPairs, if_neg (by simp), svFind_append (ampersand_notMem_pairText hhex p)]
    simp only [svSub_append, svFrom_append, queryPair_text hhex]
    rw [ih (by omega)]

lemma notMem_queryText (hhex : HexDigits hex) (hc : c ∈ lit "#?/@")
    (ps : List (Bytes × Bytes)) : c ∉ queryText hex ps := by
  have hdelim : c ∈ delimiters := by
    revert c
    decide
  have hother : c ≠ 0x3D ∧ c ≠ 0x26 := by
    revert c
    decide
  have hpair : ∀ p, c ∉ pairText hex p := by
    intro p
    rw [pairText, List.mem_append, List.mem_cons]
    rintro (h | h | h)
    · exact delimiter_notMem hhex hdelim _ h
    · exact hother.1 h
    · exact delimiter_notMem hhex hdelim _ h
  induction ps using queryText.induct with
  | case1 => exact List.not_mem_nil
  | case2 p => exact hpair p
  | case3 p q ps ih =>
    rw [queryText, List.mem_append, List.mem_cons]
    rintro (h | h | h)
    · exact hpair p h
    · exact hother.2 h
    · exact ih h

lemma notMem_hostText {host text : Bytes} (h : HostText host text)
    (hc : c ∈ lit "#?/@") (port : ℕ) : c ∉ text ++ 0x3A :: decimal port := by
  have hplain : c ∈ lit "/?#@:[" ∧ c ∈ lit "/?#@]" ∧ c ∉ lit "[]:" ∧ isDigit c = false := by
    revert c
    decide
  have htext : c ∉ text := by
    cases h with
    | plain _ hchars => exact hchars c hplain.1
    | bracketed _ hchars =>
      intro hmem
      simp only [List.cons_append, List.mem_cons, List.mem_append, List.not_mem_nil, or_false] at hmem
      rcases hmem with rfl | hmem | rfl
      · exact hplain.2.2.1 (by decide)
      · exact hchars c hplain.2.1 hmem
      · exact hplain.2.2.1 (by decide)
  rw [List.mem_append, List.mem_cons]
  rintro (hmem | rfl | hmem)
  · exact htext hmem
  · exact hplain.2.2.1 (by decide)
  · exact decimal_notMem hplain.2.2.2 port hmem

lemma schemePrefixText_eq {scheme : Bytes} (h0 : 0 ∉ scheme) (hlen : scheme.length ≤ 28) :
    schemePrefixText scheme = scheme ++ lit "://" := by
  have hlit : (lit "://").length = 3 := rfl
  rw [schemePrefixText, Sbj.cstr_eq_self h0, List.take_of_length_le]
  rw [List.length_append, hlit]
  omega

/-- The value of the last pair with a key. -/
structure LastValue (u : Suri) (key value : Bytes) : Prop where
  last : ∀ front v back, u.query = front ++ (key, v) :: back → (∀ p ∈ back, p.1 ≠ key) → value = v
  none : (∀ p ∈ u.query, p.1 ≠ key) → value = []

lemma queryValue_last (u : Suri) {key : Bytes} (h : 0 ∉ key) : LastValue u key (queryValue u key) := by
  have hno : ∀ l : List (Bytes × Bytes), (∀ p ∈ l, p.1 ≠ key) →
      l.reverse.find? (fun p => p.1 == key) = none := by
    intro l hl
    rw [List.find?_eq_none]
    intro p hp
    simpa using hl p (List.mem_reverse.mp hp)
  unfold queryValue
  rw [Sbj.cstr_eq_self h]
  constructor
  · intro front v back hquery hback
    rw [hquery, List.reverse_append, List.reverse_cons, List.append_assoc, List.find?_append,
      hno back hback]
    simp
  · intro hall
    rw [hno _ hall]
    rfl

/-- **Round trip**: a URI whose parts are percent-encoded is parsed into these parts, whatever bytes
they have, and a key has the value of its last pair. -/
theorem parseStructuredUri_text (hhex : HexDigits hex) {scheme text : Bytes}
    (hscheme : 0 ∉ scheme ∧ scheme.length ≤ 28) {u : Suri} (hhost : HostText u.host text)
    (hport : 1 ≤ u.port ∧ u.port ≤ 65535) (defaultPort : ℕ) :
    parseStructuredUri (uriText hex scheme text u) scheme defaultPort = some u ∧
      ∀ key, 0 ∉ key → LastValue u key (queryValue u key) := by
  refine ⟨?_, fun key hkey => queryValue_last u hkey⟩
  set user := percentEncode hex u.userInfo with huserEq
  set authority := text ++ 0x3A :: decimal u.port with hauthorityEq
  have huser : ∀ c ∈ lit "#?/@", c ∉ user := fun c hc =>
    delimiter_notMem hhex (by revert c; decide) _
  have hauthority : ∀ c ∈ lit "#?/@", c ∉ authority := fun c hc => notMem_hostText hhost hc u.port
  have hlogin : ∀ c ∈ lit "#?/", c ∉ user ++ 0x40 :: authority := by
    intro c hc
    have hc' : c ∈ lit "#?/@" ∧ c ≠ 0x40 := by
      revert c
      decide
    rw [List.mem_append, List.mem_cons]
    rintro (h | h | h)
    · exact huser c hc'.1 h
    · exact hc'.2 h
    · exact hauthority c hc'.1 h
  -- The parser cuts at '#', then at '?', then at '/', then at the last '@'.
  have hhash : 0x23 ∉ user ++ 0x40 :: authority ++ 0x3F :: queryText hex u.query := by
    rw [List.mem_append, List.mem_cons]
    rintro (h | h | h)
    · exact hlogin 0x23 (by decide) h
    · cases h
    · exact notMem_queryText hhex (by decide) _ h
  have hstarts : svStarts (uriText hex scheme text u) (schemePrefixText scheme) = true := by
    rw [schemePrefixText_eq hscheme.1 hscheme.2, uriText]
    exact svStarts_append _ _
  have hrest : svFrom (uriText hex scheme text u) (schemePrefixText scheme).length =
      user ++ 0x40 :: authority ++ 0x3F :: queryText hex u.query ++
        0x23 :: percentEncode hex u.fragment := by
    rw [schemePrefixText_eq hscheme.1 hscheme.2, uriText, svFrom, List.drop_left]
  unfold parseStructuredUri
  rw [if_pos hstarts, hrest]
  simp only [svFind_append hhash, svFrom_append, svSub_append]
  simp only [svFind_append (hlogin 0x3F (by decide)), svFrom_append, svSub_append]
  simp only [svFind_none (hlogin 0x2F (by decide)),
    svRfind_append user (hauthority 0x40 (by decide)), svFrom_append, svSub_append]
  rw [hauthorityEq, parseHostPort_text hhost hport, huserEq]
  simp only [percentDecode_encode hhex, queryPairs_text hhex u.query le_rfl]

/-- A URI with an encoded user, a bracketed address and two values of one key. -/
theorem parseStructuredUri_text_vless :
    let u : Suri := ⟨lit "p@ss/#", lit "::1", lit "a&b", 8443, [(lit "k=", lit "1+"), (lit "k=", [0])]⟩
    parseStructuredUri (uriText upperHexDigit (lit "vless") (lit "[::1]") u) (lit "vless") 443 =
      some u ∧ queryValue u (lit "k=") = [0] := by
  intro u
  have hhost : HostText u.host (lit "[::1]") := .bracketed (by decide) (by decide)
  have hscheme : 0 ∉ lit "vless" ∧ (lit "vless").length ≤ 28 := by decide
  obtain ⟨hparse, hvalue⟩ := parseStructuredUri_text hexDigits_upper hscheme hhost (by decide) 443
  exact ⟨hparse, (hvalue (lit "k=") (by decide)).last [(lit "k=", lit "1+")] [0] [] rfl (by simp)⟩

/-- A scheme that does not fit the buffer, and a delimiter between brackets. -/
theorem parseStructuredUri_cut :
    (∃ (scheme : Bytes) (u : Suri), 0 ∉ scheme ∧ scheme.length = 29 ∧ HostText u.host u.host ∧
      parseStructuredUri (uriText upperHexDigit scheme u.host u) scheme 443 = none) ∧
    ∃ u : Suri, u.host ≠ [] ∧ 0x5D ∉ u.host ∧ 0x2F ∈ u.host ∧
      parseStructuredUri (uriText upperHexDigit (lit "vless") (0x5B :: u.host ++ [0x5D]) u)
        (lit "vless") 443 = none := by
  refine ⟨⟨List.replicate 29 0x61, ⟨[], lit "h", [], 443, []⟩, by decide, by decide,
    .plain (by decide) (by decide), by decide +kernel⟩, ⟨[], lit "a/b", [], 443, []⟩, by decide,
    by decide, by decide, by decide +kernel⟩

end SbEasy.ProxyParser

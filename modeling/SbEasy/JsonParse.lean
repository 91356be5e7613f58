import SbEasy.Json

/-!
The parser of `json.c`: `sbj_parse` and `sbj_parse_strict`.

The parser state is the rest of the text; the offset of an error is read off its length.
Recursion is bounded by fuel that the length of the text provides.
-/

namespace SbEasy.JsonParse

/-- What `perr` records: the message, and how much of the text is left. -/
structure ParseError where
  msg : String
  left : ℕ

def isWs (c : UInt8) : Bool := c == 0x20 || c == 0x09 || c == 0x0A || c == 0x0D
def isDigit (c : UInt8) : Bool := 0x30 ≤ c && c ≤ 0x39

/-- `skip_ws` -/
def skipWs (s : Bytes) : Bytes := s.dropWhile isWs

/-- The rest behind a byte that has to come next. -/
def eat (c : UInt8) : Bytes → Option Bytes
  | [] => none
  | d :: s => if d = c then some s else none

def hexValue (c : UInt8) : Option ℕ :=
  if 0x30 ≤ c ∧ c ≤ 0x39 then some (c - 0x30).toNat
  else if 0x61 ≤ c ∧ c ≤ 0x66 then some ((c - 0x61).toNat + 10)
  else if 0x41 ≤ c ∧ c ≤ 0x46 then some ((c - 0x41).toNat + 10)
  else none

def hexLoop : ℕ → ℕ → Bytes → Except ℕ (ℕ × Bytes)
  | 0, v, s => .ok (v, s)
  | _ + 1, _, [] => .error 0
  | n + 1, v, c :: s =>
    match hexValue c with
    | some d => hexLoop n ((v <<< 4) ||| d) s
    | none => .error s.length

/-- `hex4`: four hexadecimal digits, or the length left where they fail. -/
def hex4 (s : Bytes) : Except ℕ (ℕ × Bytes) :=
  if s.length < 4 then .error s.length else hexLoop 4 0 s

/-- `put_utf8` -/
def putUtf8 (cp : ℕ) : Bytes :=
  if cp < 0x80 then [cp.toUInt8]
  else if cp < 0x800 then [(0xC0 ||| (cp >>> 6)).toUInt8, (0x80 ||| (cp &&& 0x3F)).toUInt8]
  else if cp < 0x10000 then
    [(0xE0 ||| (cp >>> 12)).toUInt8, (0x80 ||| ((cp >>> 6) &&& 0x3F)).toUInt8,
      (0x80 ||| (cp &&& 0x3F)).toUInt8]
  else
    [(0xF0 ||| (cp >>> 18)).toUInt8, (0x80 ||| ((cp >>> 12) &&& 0x3F)).toUInt8,
      (0x80 ||| ((cp >>> 6) &&& 0x3F)).toUInt8, (0x80 ||| (cp &&& 0x3F)).toUInt8]

/-- The escapes of one letter. -/
def unescape (e : UInt8) : Option UInt8 :=
  if e = 0x22 then some 0x22
  else if e = 0x5C then some 0x5C
  else if e = 0x2F then some 0x2F
  else if e = 0x62 then some 0x08
  else if e = 0x66 then some 0x0C
  else if e = 0x6E then some 0x0A
  else if e = 0x72 then some 0x0D
  else if e = 0x74 then some 0x09
  else none

/-- The code point behind `\u`, both halves of a surrogate pair together. -/
def unicode (s : Bytes) : Except ParseError (ℕ × Bytes) :=
  match hex4 s with
  | .error left => .error ⟨"invalid \\u escape", left⟩
  | .ok (cp, s) =>
    if 0xD800 ≤ cp ∧ cp ≤ 0xDBFF then
      match (eat 0x5C s).bind (eat 0x75) with
      | none => .error ⟨"unpaired surrogate", s.length⟩
      | some s =>
        match hex4 s with
        | .error left => .error ⟨"invalid surrogate pair", left⟩
        | .ok (lo, s) =>
          if lo < 0xDC00 ∨ lo > 0xDFFF then .error ⟨"invalid surrogate pair", s.length⟩
          else .ok (0x10000 + ((cp - 0xD800) <<< 10) + (lo - 0xDC00), s)
    else if 0xDC00 ≤ cp ∧ cp ≤ 0xDFFF then .error ⟨"unpaired surrogate", s.length⟩
    else .ok (cp, s)

/-- The loop of `parse_string_raw`, with the bytes decoded so far. -/
def stringLoop : ℕ → Bytes → Bytes → Except ParseError (Bytes × Bytes)
  | 0, _, _ => .error ⟨"unterminated string", 0⟩
  | _ + 1, _, [] => .error ⟨"unterminated string", 0⟩
  | fuel + 1, b, c :: s =>
    if c = 0x22 then .ok (b, s)
    else if c < 0x20 then .error ⟨"control character in string", s.length + 1⟩
    else if c = 0x5C then
      match s with
      | [] => .error ⟨"unterminated string", 0⟩
      | e :: s =>
        match unescape e with
        | some d => stringLoop fuel (b ++ [d]) s
        | none =>
          if e = 0x75 then
            match unicode s with
            | .error err => .error err
            | .ok (cp, s) => stringLoop fuel (b ++ putUtf8 cp) s
          else .error ⟨"invalid escape", s.length⟩
    else
      let n := Utf8.seq (c :: s)
      if n = 0 then .error ⟨"invalid UTF-8", s.length + 1⟩
      else stringLoop fuel (b ++ (c :: s).take n) ((c :: s).drop n)

/-- `parse_string_raw`, behind the opening quote. -/
def parseString (s : Bytes) : Except ParseError (Bytes × Bytes) := stringLoop (s.length + 1) [] s

/-- A run of at least one digit. -/
def skipDigits : Bytes → Except ℕ Bytes
  | [] => .error 0
  | c :: s => if isDigit c then .ok (s.dropWhile isDigit) else .error (s.length + 1)

def skipInt : Bytes → Except ℕ Bytes
  | [] => .error 0
  | c :: s =>
    if c = 0x30 then .ok s
    else if 0x31 ≤ c ∧ c ≤ 0x39 then .ok (s.dropWhile isDigit)
    else .error (s.length + 1)

/-- The fraction, and whether there is one. -/
def skipFrac (s : Bytes) : Except ℕ (Bool × Bytes) :=
  match eat 0x2E s with
  | none => .ok (false, s)
  | some r => (skipDigits r).map fun r => (true, r)

/-- The exponent, and whether there is one. -/
def skipExp (s : Bytes) : Except ℕ (Bool × Bytes) :=
  match (eat 0x65 s).or (eat 0x45 s) with
  | none => .ok (false, s)
  | some r => (skipDigits (((eat 0x2B r).or (eat 0x2D r)).getD r)).map fun r => (true, r)

/-- The first half of `parse_number`: whether the literal is a float, and what follows it. -/
def scanNumber (s : Bytes) : Except ℕ (Bool × Bytes) := do
  let r ← skipInt ((eat 0x2D s).getD s)
  let (frac, r) ← skipFrac r
  let (exp, r) ← skipExp r
  pure (frac || exp, r)

def digitsValue (s : Bytes) : ℕ := s.foldl (fun v c => v * 10 + (c - 0x30).toNat) 0

lemma le_foldl_digits (s : Bytes) (value : ℕ) :
    value ≤ s.foldl (fun v c => v * 10 + (c - 0x30).toNat) value := by
  induction s generalizing value with
  | nil => exact le_rfl
  | cons c s ih => exact le_trans (by dsimp only; omega) (ih _)

/-- The value of a literal: `strtoll` or `strtoull`, and `strtod` where they are out of
range. -/
def numberValue [Platform] (num : Bytes) (isFloat : Bool) : Sbj :=
  if isFloat then .float (Platform.strtod num)
  else
    match eat 0x2D num with
    | some d =>
      if int64Min ≤ -(digitsValue d : ℤ) then .int (-(digitsValue d : ℤ))
      else .float (Platform.strtod num)
    | none =>
      if (digitsValue num : ℤ) ≤ uint64Max then Sbj.ofUint (digitsValue num)
      else .float (Platform.strtod num)

/-- `parse_number` -/
def parseNumber [Platform] (s : Bytes) : Except ParseError (Sbj × Bytes) :=
  match scanNumber s with
  | .error left => .error ⟨"invalid number", left⟩
  | .ok (isFloat, r) => .ok (numberValue (s.take (s.length - r.length)) isFloat, r)

/-! ### Values -/

def maxDepth : ℕ := 512

/-- `match_lit` -/
def matchLit (l s : Bytes) : Option Bytes := if l <+: s then some (s.drop l.length) else none

/-- The values that are neither containers nor strings. -/
def parseScalar [Platform] (s : Bytes) : Except ParseError (Sbj × Bytes) :=
  match matchLit (lit "true") s, matchLit (lit "false") s, matchLit (lit "null") s with
  | some r, _, _ => .ok (.bool true, r)
  | _, some r, _ => .ok (.bool false, r)
  | _, _, some r => .ok (.null, r)
  | _, _, _ =>
    if s.head?.any fun c => c == 0x2D || isDigit c then parseNumber s
    else .error ⟨"unexpected character", s.length⟩

mutual
/-- `parse_value`; `strict` rejects duplicate keys. -/
def parseValue [Platform] (strict : Bool) :
    ℕ → ℕ → Bytes → Except ParseError (Sbj × Bytes)
  | 0, _, s => .error ⟨"unexpected end of input", s.length⟩
  | fuel + 1, depth, s =>
    match skipWs s with
    | [] => .error ⟨"unexpected end of input", 0⟩
    | c :: r =>
      if c = 0x7B then
        if depth + 1 > maxDepth then .error ⟨"nesting too deep", r.length + 1⟩
        else
          match eat 0x7D (skipWs r) with
          | some r => .ok (.obj [], r)
          | none => parseMembers strict fuel (depth + 1) [] (skipWs r)
      else if c = 0x5B then
        if depth + 1 > maxDepth then .error ⟨"nesting too deep", r.length + 1⟩
        else
          match eat 0x5D (skipWs r) with
          | some r => .ok (.arr [], r)
          | none => parseItems strict fuel (depth + 1) [] (skipWs r)
      else if c = 0x22 then (parseString r).map fun (b, r) => (.str b, r)
      else parseScalar (c :: r)
/-- The loop over the members of an object. -/
def parseMembers [Platform] (strict : Bool) :
    ℕ → ℕ → List (Bytes × Sbj) → Bytes → Except ParseError (Sbj × Bytes)
  | 0, _, _, s => .error ⟨"expected object key", s.length⟩
  | fuel + 1, depth, o, s =>
    match eat 0x22 (skipWs s) with
    | none => .error ⟨"expected object key", (skipWs s).length⟩
    | some r =>
      match parseString r with
      | .error err => .error err
      | .ok (key, r) =>
        if strict && (SortedAssoc.get o key).isSome then .error ⟨"duplicate object key", r.length⟩
        else
          match eat 0x3A (skipWs r) with
          | none => .error ⟨"expected ':'", (skipWs r).length⟩
          | some r =>
            match parseValue strict fuel depth r with
            | .error err => .error err
            | .ok (val, r) =>
              match eat 0x2C (skipWs r), eat 0x7D (skipWs r) with
              | some r, _ => parseMembers strict fuel depth (SortedAssoc.set o key val) r
              | none, some r => .ok (.obj (SortedAssoc.set o key val), r)
              | none, none => .error ⟨"expected ',' or '\x7d'", (skipWs r).length⟩
/-- The loop over the items of an array. -/
def parseItems [Platform] (strict : Bool) :
    ℕ → ℕ → List Sbj → Bytes → Except ParseError (Sbj × Bytes)
  | 0, _, _, s => .error ⟨"unexpected end of input", s.length⟩
  | fuel + 1, depth, a, s =>
    match parseValue strict fuel depth s with
    | .error err => .error err
    | .ok (val, r) =>
      match eat 0x2C (skipWs r), eat 0x5D (skipWs r) with
      | some r, _ => parseItems strict fuel depth (a ++ [val]) r
      | none, some r => .ok (.arr (a ++ [val]), r)
      | none, none => .error ⟨"expected ',' or ']'", (skipWs r).length⟩
end

/-- `parse_document` -/
def parseDocument [Platform] (strict : Bool) (text : Bytes) : Except ParseError Sbj :=
  match parseValue strict (2 * text.length + 1) 0 text with
  | .error err => .error err
  | .ok (v, r) =>
    if skipWs r = [] then .ok v else .error ⟨"trailing characters", (skipWs r).length⟩

def ParseError.text (len : ℕ) (e : ParseError) : String :=
  e.msg ++ " at offset " ++ toString (len - e.left)

/-- `sbj_parse` -/
def sbjParse [Platform] (text : Bytes) : Except String Sbj :=
  (parseDocument false text).mapError (ParseError.text text.length)

/-- `sbj_parse_strict` -/
def sbjParseStrict [Platform] (text : Bytes) : Except String Sbj :=
  match parseDocument true text with
  | .error e => .error (e.text text.length)
  | .ok v => (v.validateUtf8.mapError Utf8.Fault.text).map fun _ => v

end SbEasy.JsonParse

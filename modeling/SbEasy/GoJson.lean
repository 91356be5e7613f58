import SbEasy.JsonSound

/-!
JSON as the engine decodes it: `encoding/json` on one bounded value, and the three passes of
`proxyDecode` over it.

A decoded value is a tree that keeps the members of an object in the order of the text.
Number literals follow the same grammar as in `json.c`.
-/

namespace SbEasy

open JsonParse

/-- A JSON value of `encoding/json`; a number is its literal, a `json.Number`. -/
inductive GoVal
  | null
  | bool (b : Bool)
  | num (text : Bytes)
  | str (s : Bytes)
  | arr (items : List GoVal)
  | obj (members : List (Bytes × GoVal))

namespace GoVal

/-- `utf8.RuneError` -/
def runeError : Bytes := [0xEF, 0xBF, 0xBD]

/-- `getu4`, behind `\u`. -/
def getu4 (s : Bytes) : Option (ℕ × Bytes) := (hex4 s).toOption

/-- The rune of an escape: a surrogate pair is joined, a surrogate alone is replaced. -/
def rune (cp : ℕ) (s : Bytes) : ℕ × Bytes :=
  if 0xD800 ≤ cp ∧ cp ≤ 0xDFFF then
    match ((eat 0x5C s).bind (eat 0x75)).bind getu4 with
    | some (lo, r) =>
      if cp ≤ 0xDBFF ∧ 0xDC00 ≤ lo ∧ lo ≤ 0xDFFF then
        (0x10000 + ((cp - 0xD800) <<< 10) + (lo - 0xDC00), r)
      else (0xFFFD, s)
    | none => (0xFFFD, s)
  else (cp, s)

/-- A string behind its opening quote, with the bytes decoded so far. -/
def stringLoop : ℕ → Bytes → Bytes → Option (Bytes × Bytes)
  | 0, _, _ => none
  | _ + 1, _, [] => none
  | fuel + 1, b, c :: s =>
    if c = 0x22 then some (b, s)
    else if c < 0x20 then none
    else if c = 0x5C then
      match s with
      | [] => none
      | e :: s =>
        match unescape e with
        | some d => stringLoop fuel (b ++ [d]) s
        | none =>
          if e = 0x75 then
            match getu4 s with
            | none => none
            | some (cp, s) => stringLoop fuel (b ++ putUtf8 (rune cp s).1) (rune cp s).2
          else none
    else if Utf8.seq (c :: s) = 0 then stringLoop fuel (b ++ runeError) s
    else stringLoop fuel (b ++ (c :: s).take (Utf8.seq (c :: s))) ((c :: s).drop (Utf8.seq (c :: s)))

def readString (s : Bytes) : Option (Bytes × Bytes) := stringLoop (s.length + 1) [] s

def readScalar (s : Bytes) : Option (GoVal × Bytes) :=
  match matchLit (lit "true") s, matchLit (lit "false") s, matchLit (lit "null") s with
  | some r, _, _ => some (.bool true, r)
  | _, some r, _ => some (.bool false, r)
  | _, _, some r => some (.null, r)
  | _, _, _ =>
    match scanNumber s with
    | .error _ => none
    | .ok (_, r) => some (.num (s.take (s.length - r.length)), r)

mutual
def readValue : ℕ → Bytes → Option (GoVal × Bytes)
  | 0, _ => none
  | fuel + 1, s =>
    match skipWs s with
    | [] => none
    | c :: r =>
      if c = 0x7B then
        match eat 0x7D (skipWs r) with
        | some r => some (.obj [], r)
        | none => readMembers fuel [] (skipWs r)
      else if c = 0x5B then
        match eat 0x5D (skipWs r) with
        | some r => some (.arr [], r)
        | none => readItems fuel [] (skipWs r)
      else if c = 0x22 then (readString r).map fun (b, r) => (.str b, r)
      else readScalar (c :: r)
def readMembers : ℕ → List (Bytes × GoVal) → Bytes → Option (GoVal × Bytes)
  | 0, _, _ => none
  | fuel + 1, o, s => do
    let (key, r) ← (eat 0x22 (skipWs s)).bind readString
    let (v, r) ← (eat 0x3A (skipWs r)).bind (readValue fuel)
    match eat 0x2C (skipWs r), eat 0x7D (skipWs r) with
    | some r, _ => readMembers fuel (o ++ [(key, v)]) r
    | none, some r => some (.obj (o ++ [(key, v)]), r)
    | none, none => none
def readItems : ℕ → List GoVal → Bytes → Option (GoVal × Bytes)
  | 0, _, _ => none
  | fuel + 1, a, s => do
    let (v, r) ← readValue fuel s
    match eat 0x2C (skipWs r), eat 0x5D (skipWs r) with
    | some r, _ => readItems fuel (a ++ [v]) r
    | none, some r => some (.arr (a ++ [v]), r)
    | none, none => none
end

/-- Exactly one value, and white space around it. -/
def read (text : Bytes) : Option GoVal := do
  let (v, r) ← readValue (2 * text.length + 1) text
  if skipWs r = [] then some v else none

mutual
/-- `walk`: no key twice in an object, and no value deeper than 12. -/
def walk : ℕ → GoVal → Bool
  | depth, .obj m => decide (depth ≤ 12) && decide (m.map Prod.fst).Nodup && walkMembers (depth + 1) m
  | depth, .arr l => decide (depth ≤ 12) && walkItems (depth + 1) l
  | depth, _ => decide (depth ≤ 12)
def walkItems : ℕ → List GoVal → Bool
  | _, [] => true
  | depth, v :: l => walk depth v && walkItems depth l
def walkMembers : ℕ → List (Bytes × GoVal) → Bool
  | _, [] => true
  | depth, (_, v) :: m => walk depth v && walkMembers depth m
end

/-- The types that are decoded into, as far as `reflect` tells them apart here. -/
inductive GoType
  | scalar
  | pointer (t : GoType)
  | slice (t : GoType)
  | struct (fields : List (Bytes × GoType))

mutual
/-- `proxyRequiredShape`: every field of a struct is there under its exact name, and no
other. -/
def requiredShape : GoType → GoVal → Bool
  | .scalar, _ => true
  | .pointer t, v =>
    match v with
    | .null => true
    | v => requiredShape t v
  | .slice t, v =>
    match v with
    | .null => true
    | .arr l => l.all (requiredShape t)
    | _ => false
  | .struct fields, v =>
    match v with
    | .obj m => m.length == fields.length && requiredFields fields m
    | _ => false
def requiredFields : List (Bytes × GoType) → List (Bytes × GoVal) → Bool
  | [], _ => true
  | (name, t) :: fields, m => (m.lookup name).any (requiredShape t) && requiredFields fields m
end

/-- `strconv.ParseInt` to 64 bits. -/
def parseInt (text : Bytes) : Option ℤ :=
  match eat 0x2D text with
  | some d =>
    if d ≠ [] ∧ d.all isDigit ∧ int64Min ≤ -(digitsValue d : ℤ) then some (-(digitsValue d : ℤ))
    else none
  | none =>
    if text ≠ [] ∧ text.all isDigit ∧ (digitsValue text : ℤ) ≤ int64Max then some (digitsValue text)
    else none

/-- A string field; `null` leaves it as it is. -/
def string : GoVal → Option Bytes
  | .null => some []
  | .str s => some s
  | _ => none

def int : GoVal → Option ℤ
  | .null => some 0
  | .num text => parseInt text
  | _ => none

def pointer {α : Type} (f : GoVal → Option α) : GoVal → Option (Option α)
  | .null => some none
  | v => (f v).map some

/-- A slice; `null` is the nil slice. -/
def slice {α : Type} (f : GoVal → Option α) : GoVal → Option (Option (List α))
  | .null => some none
  | .arr l => (l.mapM f).map some
  | _ => none

/-- A field of a struct, left at its zero value when the object does not have it. -/
def field {α : Type} (zero : α) (f : GoVal → Option α) (m : List (Bytes × GoVal)) (name : Bytes) :
    Option α :=
  match m.lookup name with
  | some v => f v
  | none => some zero

/-- The members of an object that is decoded with `DisallowUnknownFields`. A name that
differs in case would be matched here and refused by `proxyRequiredShape`. -/
def fields (names : List Bytes) : GoVal → Option (List (Bytes × GoVal))
  | .null => some []
  | .obj m => if m.all fun p => names.contains p.1 then some m else none
  | _ => none

end GoVal

/-- `proxyDecode` into a type given by its decoder and its shape. -/
def proxyDecode {α : Type} (decode : GoVal → Option α) (shape : GoVal.GoType) (data : Bytes) :
    Option α := do
  if data.length = 0 ∨ data.length > 4 * 1024 * 1024 then none
  let v ← GoVal.read data
  if !v.walk 0 then none
  let out ← decode v
  if GoVal.requiredShape shape v then some out else none

/-- `C.GoString`: up to the first NUL byte. -/
def goString (s : Bytes) : Bytes := s.takeWhile (· != 0)

end SbEasy

import Mathlib.Data.List.TakeWhile
import SbEasy.Utf8
import SbEasy.SortedAssoc

/-!
The `sbj` JSON value, its accessors and its two directions of text: `sbj_dump`, and
`sbj_parse` with its strict variant.

An object is its list of members, kept sorted by the byte order of the keys. A double is
its bit pattern; reading and shortest printing of doubles belong to the platform.
-/

namespace SbEasy

/-- What the program takes from the libraries it is linked with, and `grisu2` of `json_grisu.inc`. -/
class Platform where
  /-- `strtod` of a number literal, as the bits of the double. -/
  strtod : Bytes → UInt64
  /-- The digits and the decimal exponent that `grisu2` finds for a positive double. -/
  grisu2 : UInt64 → Bytes × ℤ
  /-- A double as an integer, if it is finite. -/
  truncate : UInt64 → Option ℤ
  /-- The digest of a text, in hexadecimal. -/
  sha256 : Bytes → Bytes
  /-- Whether `inet_pton` reads the text as an IPv4 or IPv6 address. -/
  inetPton : Bytes → Bool
  /-- The zone of the address `netip.ParseAddr` reads. -/
  parseAddr : Bytes → Option Bytes

/-- A small platform, to run the code on. -/
abbrev Platform.sample : Platform where
  strtod _ := 0
  grisu2 _ := (lit "1", 0)
  truncate _ := none
  sha256 s := s
  inetPton s := s == lit "127.0.0.1"
  parseAddr s := if s = lit "127.0.0.1" then some [] else none

inductive Sbj
  | null
  | bool (b : Bool)
  | int (i : ℤ)
  | uint (u : ℕ)
  | float (bits : UInt64)
  | str (s : Bytes)
  | arr (items : List Sbj)
  | obj (members : List (Bytes × Sbj))

def int64Max : ℤ := 9223372036854775807
def int64Min : ℤ := -9223372036854775808
def uint64Max : ℤ := 18446744073709551615

namespace Sbj

/-- `sbj_uint` -/
def ofUint (u : ℕ) : Sbj := if (u : ℤ) ≤ int64Max then .int u else .uint u

def isNull : Option Sbj → Bool
  | none => true
  | some .null => true
  | _ => false

def isBool : Option Sbj → Bool
  | some (.bool _) => true
  | _ => false

def isString : Option Sbj → Bool
  | some (.str _) => true
  | _ => false

def isArray : Option Sbj → Bool
  | some (.arr _) => true
  | _ => false

def isObject : Option Sbj → Bool
  | some (.obj _) => true
  | _ => false

def isInteger : Option Sbj → Bool
  | some (.int _) => true
  | some (.uint _) => true
  | _ => false

/-- A C string ends at its first NUL byte. -/
def cstr (s : Bytes) : Bytes := s.takeWhile (· != 0)

lemma cstr_eq_self {s : Bytes} (h : 0 ∉ s) : cstr s = s :=
  List.takeWhile_eq_self_iff.mpr fun c hc => by simpa using fun he : c = 0 => h (he ▸ hc)

/-- `sbj_as_str`: the caller gets a C string. -/
def asStr (v : Option Sbj) (fallback : Bytes) : Bytes :=
  match v with
  | some (.str s) => cstr s
  | _ => fallback

/-- `sbj_as_int`: an unsigned value is reinterpreted as signed. -/
def asInt [Platform] (v : Option Sbj) (fallback : ℤ) : ℤ :=
  match v with
  | some (.int i) => i
  | some (.uint u) => Int.bmod u (2 ^ 64)
  | some (.float f) => (Platform.truncate f).getD fallback
  | _ => fallback

/-- `sbj_as_bool` -/
def asBool (v : Option Sbj) (fallback : Bool) : Bool :=
  match v with
  | some (.bool b) => b
  | _ => fallback

/-- The items of an array; `sbj_arr_len` and `sbj_arr_at` read anything else as empty. -/
def items : Option Sbj → List Sbj
  | some (.arr l) => l
  | _ => []

/-- The members of an object; `sbj_obj_len` reads anything else as empty. -/
def members : Option Sbj → List (Bytes × Sbj)
  | some (.obj m) => m
  | _ => []

/-- `sbj_get` and `sbj_getn` -/
def get (o : Option Sbj) (k : Bytes) : Option Sbj := SortedAssoc.get (members o) k

/-- `sbj_set` and `sbj_setn` -/
def set (o : Sbj) (k : Bytes) (v : Sbj) : Sbj :=
  match o with
  | .obj m => .obj (SortedAssoc.set m k v)
  | o => o

/-- `sbj_get_str`, `sbj_get_int`, `sbj_get_bool` -/
def getStr (o : Option Sbj) (k fallback : Bytes) : Bytes := asStr (get o k) fallback
def getInt [Platform] (o : Option Sbj) (k : Bytes) (fallback : ℤ) : ℤ := asInt (get o k) fallback
def getBool (o : Option Sbj) (k : Bytes) (fallback : Bool) : Bool := asBool (get o k) fallback

/-- `sbj_string_is` -/
def stringIs (v : Option Sbj) (s : Bytes) : Bool :=
  match v with
  | some (.str t) => t == s
  | _ => false

mutual
/-- `sbj_validate_utf8`, in serialisation order. -/
def validateUtf8 : Sbj → Except Utf8.Fault Unit
  | .str s => Utf8.check s
  | .arr l => validateItems l
  | .obj m => validateMembers m
  | _ => .ok ()
def validateItems : List Sbj → Except Utf8.Fault Unit
  | [] => .ok ()
  | v :: l => do validateUtf8 v; validateItems l
def validateMembers : List (Bytes × Sbj) → Except Utf8.Fault Unit
  | [] => .ok ()
  | (k, v) :: m => do Utf8.check k; validateUtf8 v; validateMembers m
end

end Sbj

def hexDigit (n : UInt8) : UInt8 := if n < 10 then 0x30 + n else 0x57 + n

/-- The escape of a byte inside a string, if it needs one. -/
def escape (c : UInt8) : Option Bytes :=
  if c = 0x22 then some (lit "\\\"")
  else if c = 0x5C then some (lit "\\\\")
  else if c = 0x08 then some (lit "\\b")
  else if c = 0x0C then some (lit "\\f")
  else if c = 0x0A then some (lit "\\n")
  else if c = 0x0D then some (lit "\\r")
  else if c = 0x09 then some (lit "\\t")
  else if c < 0x20 then some (lit "\\u00" ++ [hexDigit (c >>> 4), hexDigit (c &&& 0x0F)])
  else none

/-- The loop of `dump_string`: `run` is the stretch of plain bytes not yet written. -/
def dumpRun : Bytes → Bytes → Bytes → Bytes
  | [], run, out => out ++ run
  | c :: s, run, out =>
    match escape c with
    | some e => dumpRun s [] (out ++ run ++ e)
    | none => dumpRun s (run ++ [c]) out

/-- `dump_string` -/
def dumpString (s : Bytes) : Bytes := 0x22 :: dumpRun s [] [] ++ [0x22]

def decimalLoop : ℕ → ℕ → Bytes → Bytes
  | 0, _, acc => acc
  | fuel + 1, n, acc =>
    if n < 10 then (0x30 + n.toUInt8) :: acc
    else decimalLoop fuel (n / 10) ((0x30 + (n % 10).toUInt8) :: acc)

/-- `%llu` -/
def decimal (n : ℕ) : Bytes := decimalLoop (n + 1) n []

/-- `%lld` -/
def decimalInt (i : ℤ) : Bytes := if i < 0 then 0x2D :: decimal i.natAbs else decimal i.natAbs

/-- `dump_float` -/
def dumpFloat [Platform] (x : UInt64) : Bytes :=
  if (x >>> 52) &&& 0x7FF = 0x7FF then lit "null"
  else
    let sign := if x >>> 63 = 1 then [0x2D] else []
    let a := x &&& 0x7FFFFFFFFFFFFFFF
    if a = 0 then sign ++ lit "0.0"
    else
      let d := (Platform.grisu2 a).1
      let k : ℤ := d.length
      let n := k + (Platform.grisu2 a).2
      sign ++
        if k ≤ n ∧ n ≤ 15 then d ++ List.replicate (n - k).toNat 0x30 ++ lit ".0"
        else if 0 < n ∧ n ≤ 15 then d.take n.toNat ++ [0x2E] ++ d.drop n.toNat
        else if -4 < n ∧ n ≤ 0 then lit "0." ++ List.replicate (-n).toNat 0x30 ++ d
        else
          d.take 1 ++ (if k > 1 then 0x2E :: d.drop 1 else []) ++ [0x65] ++
            [if n - 1 < 0 then 0x2D else 0x2B] ++
            (if (n - 1).natAbs < 10 then [0x30] else []) ++ decimal (n - 1).natAbs

/-- The line break and the indentation in front of an item at a level. -/
def newline (indent : ℤ) (level : ℕ) : Bytes :=
  if indent ≥ 0 then 0x0A :: List.replicate (indent.toNat * level) 0x20 else []

mutual
/-- `dump_value` -/
def dumpValue [Platform] (indent : ℤ) : ℕ → Sbj → Bytes
  | _, .null => lit "null"
  | _, .bool b => if b then lit "true" else lit "false"
  | _, .int i => decimalInt i
  | _, .uint u => decimal u
  | _, .float f => dumpFloat f
  | _, .str s => dumpString s
  | _, .arr [] => lit "[]"
  | level, .arr (v :: l) =>
    0x5B :: (newline indent (level + 1) ++ dumpValue indent (level + 1) v ++
      dumpItems indent (level + 1) l ++ newline indent level ++ [0x5D])
  | _, .obj [] => [0x7B, 0x7D]
  | level, .obj ((k, v) :: m) =>
    0x7B :: (newline indent (level + 1) ++ dumpString k ++ (if indent ≥ 0 then lit ": " else lit ":") ++
      dumpValue indent (level + 1) v ++
      dumpMembers indent (level + 1) m ++ newline indent level ++ [0x7D])
/-- The items after the first, each behind its comma. -/
def dumpItems [Platform] (indent : ℤ) : ℕ → List Sbj → Bytes
  | _, [] => []
  | level, v :: l =>
    0x2C :: (newline indent level ++ dumpValue indent level v ++ dumpItems indent level l)
def dumpMembers [Platform] (indent : ℤ) : ℕ → List (Bytes × Sbj) → Bytes
  | _, [] => []
  | level, (k, v) :: m =>
    0x2C :: (newline indent level ++ dumpString k ++ (if indent ≥ 0 then lit ": " else lit ":") ++
      dumpValue indent level v ++ dumpMembers indent level m)
end

/-- `sbj_dump` -/
def dump [Platform] (v : Sbj) (indent : ℤ) : Bytes := dumpValue indent 0 v

end SbEasy

import SbEasy.Utf8

/-!
The grammar of JSON texts, RFC 8259, over the bytes of a UTF-8 text.

A rule relates what it derives to its text. Where the grammar has a range of code points,
the text has the UTF-8 form of one of them. A string derives the bytes it decodes to, so
the escapes of surrogates stand here as the pairs they have to come in.
-/

namespace SbEasy.Rfc8259

/-- A JSON text as a tree. Strings and keys are decoded, a number is its literal, and the
members of an object are in the order of the text. -/
inductive Tree
  | null
  | bool (b : Bool)
  | number (literal : Bytes)
  | string (s : Bytes)
  | array (items : List Tree)
  | object (members : List (Bytes × Tree))

/-- `ws` -/
def Ws (w : Bytes) : Prop := ∀ c ∈ w, c = 0x20 ∨ c = 0x09 ∨ c = 0x0A ∨ c = 0x0D

def Digit (c : UInt8) : Prop := 0x30 ≤ c ∧ c ≤ 0x39

/-- `1*DIGIT` -/
def Digits (s : Bytes) : Prop := s ≠ [] ∧ ∀ c ∈ s, Digit c

/-- `int` -/
inductive Int : Bytes → Prop
  | zero : Int [0x30]
  | positive {c : UInt8} {s : Bytes} : 0x31 ≤ c → c ≤ 0x39 → (∀ d ∈ s, Digit d) → Int (c :: s)

/-- `[ frac ]` -/
inductive Frac : Bytes → Prop
  | none : Frac []
  | some {s : Bytes} : Digits s → Frac (0x2E :: s)

/-- `[ exp ]` -/
inductive Exp : Bytes → Prop
  | none : Exp []
  | some {e : UInt8} {sign s : Bytes} : e = 0x65 ∨ e = 0x45 →
      sign = [] ∨ sign = [0x2B] ∨ sign = [0x2D] → Digits s → Exp (e :: (sign ++ s))

/-- `number` -/
inductive Number : Bytes → Prop
  | mk {minus int frac exp : Bytes} : minus = [] ∨ minus = [0x2D] → Int int → Frac frac →
      Exp exp → Number (minus ++ (int ++ (frac ++ exp)))

/-- A literal with a fraction or an exponent. -/
def isFloat (literal : Bytes) : Bool := literal.any fun c => c == 0x2E || c == 0x65 || c == 0x45

/-- `HEXDIG` -/
def hexDigit (c : UInt8) : Option ℕ :=
  if 0x30 ≤ c ∧ c ≤ 0x39 then some (c.toNat - 0x30)
  else if 0x41 ≤ c ∧ c ≤ 0x46 then some (c.toNat - 0x41 + 10)
  else if 0x61 ≤ c ∧ c ≤ 0x66 then some (c.toNat - 0x61 + 10)
  else none

/-- `4HEXDIG` -/
inductive Hex4 : ℕ → Bytes → Prop
  | mk {a b c d : UInt8} {w x y z : ℕ} : hexDigit a = some w → hexDigit b = some x →
      hexDigit c = some y → hexDigit d = some z →
      Hex4 (w * 4096 + x * 256 + y * 16 + z) [a, b, c, d]

/-- The escapes of one letter: quotation mark, reverse solidus, solidus, `b`, `f`, `n`, `r`
and `t`. -/
def escapes : List (UInt8 × UInt8) :=
  [(0x22, 0x22), (0x5C, 0x5C), (0x2F, 0x2F), (0x62, 0x08), (0x66, 0x0C), (0x6E, 0x0A),
    (0x72, 0x0D), (0x74, 0x09)]

def High (n : ℕ) : Prop := 0xD800 ≤ n ∧ n ≤ 0xDBFF
def Low (n : ℕ) : Prop := 0xDC00 ≤ n ∧ n ≤ 0xDFFF

/-- The UTF-8 form of a code point. -/
def utf8 (n : ℕ) : Bytes := String.utf8EncodeChar (Char.ofNat n)

/-- `*char`: the decoded bytes, and the text. -/
inductive Chars : Bytes → Bytes → Prop
  | nil : Chars [] []
  /-- `unescaped`, the code points from U+0020 on without the quotation mark and the
  reverse solidus -/
  | plain {c b s : Bytes} : Utf8.char c = true → (∀ x ∈ c, 0x20 ≤ x ∧ x ≠ 0x22 ∧ x ≠ 0x5C) →
      Chars b s → Chars (c ++ b) (c ++ s)
  | escape {e d : UInt8} {b s : Bytes} : (e, d) ∈ escapes → Chars b s →
      Chars (d :: b) (0x5C :: e :: s)
  | unicode {n : ℕ} {h b s : Bytes} : Hex4 n h → ¬ High n → ¬ Low n → Chars b s →
      Chars (utf8 n ++ b) (0x5C :: 0x75 :: (h ++ s))
  | pair {n m : ℕ} {h l b s : Bytes} : Hex4 n h → High n → Hex4 m l → Low m → Chars b s →
      Chars (utf8 (0x10000 + (n - 0xD800) * 0x400 + (m - 0xDC00)) ++ b)
        (0x5C :: 0x75 :: (h ++ (0x5C :: 0x75 :: (l ++ s))))

mutual
/-- `value` -/
inductive Value : Tree → Bytes → Prop
  | null : Value .null (lit "null")
  | true : Value (.bool true) (lit "true")
  | false : Value (.bool false) (lit "false")
  | number {s : Bytes} : Number s → Value (.number s) s
  | string {b s : Bytes} : Chars b s → Value (.string b) (0x22 :: (s ++ [0x22]))
  | emptyArray {w : Bytes} : Ws w → Value (.array []) (0x5B :: (w ++ [0x5D]))
  | array {ts : List Tree} {w s w' : Bytes} : Ws w → Items ts s → Ws w' →
      Value (.array ts) (0x5B :: (w ++ (s ++ (w' ++ [0x5D]))))
  | emptyObject {w : Bytes} : Ws w → Value (.object []) (0x7B :: (w ++ [0x7D]))
  | object {ms : List (Bytes × Tree)} {w s w' : Bytes} : Ws w → Members ms s → Ws w' →
      Value (.object ms) (0x7B :: (w ++ (s ++ (w' ++ [0x7D]))))
/-- `value *( value-separator value )` -/
inductive Items : List Tree → Bytes → Prop
  | last {t : Tree} {s : Bytes} : Value t s → Items [t] s
  | more {t : Tree} {ts : List Tree} {s w w' s' : Bytes} : Value t s → Ws w → Ws w' →
      Items ts s' → Items (t :: ts) (s ++ (w ++ (0x2C :: (w' ++ s'))))
/-- `member *( value-separator member )` -/
inductive Members : List (Bytes × Tree) → Bytes → Prop
  | last {k : Bytes} {t : Tree} {s : Bytes} : Member k t s → Members [(k, t)] s
  | more {k : Bytes} {t : Tree} {ms : List (Bytes × Tree)} {s w w' s' : Bytes} :
      Member k t s → Ws w → Ws w' → Members ms s' →
      Members ((k, t) :: ms) (s ++ (w ++ (0x2C :: (w' ++ s'))))
/-- `member` -/
inductive Member : Bytes → Tree → Bytes → Prop
  | mk {k q w w' s : Bytes} {t : Tree} : Chars k q → Ws w → Ws w' → Value t s →
      Member k t (0x22 :: (q ++ (0x22 :: (w ++ (0x3A :: (w' ++ s))))))
end

/-- `JSON-text` -/
def Text (t : Tree) (text : Bytes) : Prop :=
  ∃ w s w', text = w ++ (s ++ w') ∧ Ws w ∧ Value t s ∧ Ws w'

namespace Tree

mutual
/-- How deep the containers are nested. -/
def depth : Tree → ℕ
  | .array ts => depthItems ts + 1
  | .object ms => depthMembers ms + 1
  | _ => 0
def depthItems : List Tree → ℕ
  | [] => 0
  | t :: ts => max t.depth (depthItems ts)
def depthMembers : List (Bytes × Tree) → ℕ
  | [] => 0
  | m :: ms => max m.2.depth (depthMembers ms)
end

mutual
/-- No object at any level has two members with one key. -/
def DistinctKeys : Tree → Prop
  | .array ts => DistinctItems ts
  | .object ms => (ms.map Prod.fst).Nodup ∧ DistinctMembers ms
  | _ => True
def DistinctItems : List Tree → Prop
  | [] => True
  | t :: ts => t.DistinctKeys ∧ DistinctItems ts
def DistinctMembers : List (Bytes × Tree) → Prop
  | [] => True
  | m :: ms => m.2.DistinctKeys ∧ DistinctMembers ms
end

end Tree
end SbEasy.Rfc8259

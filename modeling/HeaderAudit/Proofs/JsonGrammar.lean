import HeaderAudit.Json.Basic

/-!
# JsonGrammar — which texts are JSON, and what they stand for

Reports are written in one layout, but whoever reads one goes by the grammar of JSON, which knows
nothing of layouts: blanks may stand around every token, every character of a string may be written
by its code, and a number may have a sign, a fraction and a power of ten.  This file defines:

* `Json.Value` — what a text stands for;
* `Json.IsNumber` and `Json.IsString` — the written forms of a number and of a string;
* `Json.Derives` — the grammar, one rule for each of its productions;
* `Json.IsText` — the texts that stand for a value as a whole.
-/

namespace HeaderAudit
namespace Json

/-- What a text stands for.  A number is a whole number times a power of ten, as it is written, and
an object has its members in order. -/
inductive Value
  | null
  | boolean (b : Bool)
  | number (mantissa exponent : Int)
  | text (s : String)
  | array (items : List Value)
  | object (members : List (String × Value))

/-! ## Blanks -/

def isSpace (c : Char) : Bool :=
  c = ' ' || c = '\t' || c = '\n' || c = '\r'

def IsSpace (w : List Char) : Prop :=
  ∀ c ∈ w, isSpace c

/-! ## Numbers -/

def decimal (digits : List Char) : Nat :=
  Nat.ofDigitChars 10 digits 0

def signed (negative : Bool) (n : Nat) : Int :=
  if negative then -n else n

def IsDigits (s : List Char) : Prop :=
  s ≠ [] ∧ ∀ c ∈ s, c.isDigit

inductive IsSign : Bool → List Char → Prop
  | absent : IsSign false []
  | minus : IsSign true ['-']

/-- Before the point no zero stands in front of another digit. -/
inductive IsWhole : List Char → Prop
  | zero : IsWhole ['0']
  | digits {d : Char} {s : List Char} :
      d.isDigit → d ≠ '0' → (∀ c ∈ s, c.isDigit) → IsWhole (d :: s)

/-- The digits behind the point, and how they are written. -/
inductive IsFraction : List Char → List Char → Prop
  | absent : IsFraction [] []
  | point {s : List Char} : IsDigits s → IsFraction s ('.' :: s)

inductive IsPowerSign : Bool → List Char → Prop
  | absent : IsPowerSign false []
  | plus : IsPowerSign false ['+']
  | minus : IsPowerSign true ['-']

inductive IsPower : Int → List Char → Prop
  | absent : IsPower 0 []
  | power {e : Char} {negative : Bool} {a s : List Char} :
      e = 'e' ∨ e = 'E' → IsPowerSign negative a → IsDigits s →
        IsPower (signed negative (decimal s)) (e :: a ++ s)

/-- Every digit behind the point makes the power of ten smaller by one. -/
inductive IsNumber : Int → Int → List Char → Prop
  | mk {negative : Bool} {n : Int} {a s f b p : List Char} :
      IsSign negative a → IsWhole s → IsFraction f b → IsPower n p →
        IsNumber (signed negative (decimal (s ++ f))) (n - f.length) (a ++ s ++ b ++ p)

/-! ## Strings -/

/-- The letters behind a backslash, and the characters that they stand for. -/
def shortEscapes : List (Char × Char) :=
  [('"', '"'), ('\\', '\\'), ('/', '/'), ('b', '\x08'), ('f', '\x0c'), ('n', '\n'), ('r', '\r'),
    ('t', '\t')]

/-- The code that four hexadecimal digits give. -/
def code? : List Char → Option Nat
  | [a, b, c, d] =>
      match Hex.digit? a, Hex.digit? b, Hex.digit? c, Hex.digit? d with
      | some a, some b, some c, some d => some (((a * 16 + b) * 16 + c) * 16 + d)
      | _, _, _, _ => none
  | _ => none

def isHighHalf (n : Nat) : Bool :=
  0xD800 ≤ n && n < 0xDC00

def isLowHalf (n : Nat) : Bool :=
  0xDC00 ≤ n && n < 0xE000

/-- The code point that two halves make together. -/
def joinHalves (high low : Nat) : Nat :=
  0x10000 + (high - 0xD800) * 0x400 + (low - 0xDC00)

/-- A character of a string, as itself or behind a backslash.  A code of four digits that is no half
is a character of its own, and a character beyond them has two halves. -/
inductive IsChar : Char → List Char → Prop
  | plain {c : Char} : 0x20 ≤ c.toNat → c ≠ '"' → c ≠ '\\' → IsChar c [c]
  | short {letter c : Char} : (letter, c) ∈ shortEscapes → IsChar c ['\\', letter]
  | code {c : Char} {digits : List Char} :
      code? digits = some c.toNat → IsChar c ('\\' :: 'u' :: digits)
  | halves {c : Char} {digits digits' : List Char} {high low : Nat} :
      code? digits = some high → isHighHalf high → code? digits' = some low → isLowHalf low →
        c.toNat = joinHalves high low → IsChar c ('\\' :: 'u' :: digits ++ '\\' :: 'u' :: digits')

inductive IsChars : List Char → List Char → Prop
  | nil : IsChars [] []
  | cons {c : Char} {cs s t : List Char} :
      IsChar c s → IsChars cs t → IsChars (c :: cs) (s ++ t)

inductive IsString : String → List Char → Prop
  | quoted {text : String} {s : List Char} :
      IsChars text.toList s → IsString text ('"' :: s ++ ['"'])

/-! ## Values -/

/-- What a rule of the grammar is about.  An element is a value with the blanks around it. -/
inductive Part
  | value (v : Value)
  | element (v : Value)
  | elements (vs : List Value)
  | member (name : String) (v : Value)
  | members (ms : List (String × Value))

inductive Derives : Part → List Char → Prop
  | null : Derives (.value .null) ['n', 'u', 'l', 'l']
  | yes : Derives (.value (.boolean true)) ['t', 'r', 'u', 'e']
  | no : Derives (.value (.boolean false)) ['f', 'a', 'l', 's', 'e']
  | number {m n : Int} {s : List Char} : IsNumber m n s → Derives (.value (.number m n)) s
  | text {t : String} {s : List Char} : IsString t s → Derives (.value (.text t)) s
  | emptyArray {w : List Char} : IsSpace w → Derives (.value (.array [])) ('[' :: w ++ [']'])
  | array {vs : List Value} {s : List Char} :
      Derives (.elements vs) s → Derives (.value (.array vs)) ('[' :: s ++ [']'])
  | emptyObject {w : List Char} : IsSpace w → Derives (.value (.object [])) ('{' :: w ++ ['}'])
  | object {ms : List (String × Value)} {s : List Char} :
      Derives (.members ms) s → Derives (.value (.object ms)) ('{' :: s ++ ['}'])
  | element {v : Value} {w s w' : List Char} :
      IsSpace w → Derives (.value v) s → IsSpace w' → Derives (.element v) (w ++ s ++ w')
  | lastElement {v : Value} {s : List Char} :
      Derives (.element v) s → Derives (.elements [v]) s
  | moreElements {v : Value} {vs : List Value} {s t : List Char} :
      Derives (.element v) s → Derives (.elements vs) t →
        Derives (.elements (v :: vs)) (s ++ ',' :: t)
  | member {name : String} {v : Value} {w k w' s : List Char} :
      IsSpace w → IsString name k → IsSpace w' → Derives (.element v) s →
        Derives (.member name v) (w ++ k ++ w' ++ ':' :: s)
  | lastMember {name : String} {v : Value} {s : List Char} :
      Derives (.member name v) s → Derives (.members [(name, v)]) s
  | moreMembers {name : String} {v : Value} {ms : List (String × Value)} {s t : List Char} :
      Derives (.member name v) s → Derives (.members ms) t →
        Derives (.members ((name, v) :: ms)) (s ++ ',' :: t)

/-- The text stands for the value, with nothing else in it. -/
def IsText (v : Value) (text : String) : Prop :=
  Derives (.element v) text.toList

end Json
end HeaderAudit

import HeaderAudit.Text.Hex

/-!
# Json — values and their written form

This file defines JSON values as far as reports need them, where numbers are counters, and
`Json.pretty`, the written form with an indentation of two blanks per level.  A string escapes the
quote, the backslash and the characters below `U+0020`, and leaves everything else as it is.  An
empty array or object is written without a line break.
-/

namespace HeaderAudit

inductive Json
  | null
  | number (n : Nat)
  | text (s : String)
  | array (items : List Json)
  | object (members : List (String × Json))
deriving Repr

namespace Json

/-! ## Strings -/

def escapeChar (c : Char) : List Char :=
  if c = '"' then ['\\', '"']
  else if c = '\\' then ['\\', '\\']
  else if c = '\x08' then ['\\', 'b']
  else if c = '\x0c' then ['\\', 'f']
  else if c = '\n' then ['\\', 'n']
  else if c = '\r' then ['\\', 'r']
  else if c = '\t' then ['\\', 't']
  else if c.toNat < 0x20 then ['\\', 'u', '0', '0'] ++ Hex.byte c.toNat
  else [c]

def quote (s : String) : List Char :=
  '"' :: s.toList.flatMap escapeChar ++ ['"']

/-! ## Layout -/

/-- A new line at the given level. -/
def newline (level : Nat) : List Char :=
  '\n' :: List.replicate (2 * level) ' '

mutual

/-- A value whose closing bracket, if it has one on a line of its own, stands at the given level. -/
def pretty (level : Nat) : Json → List Char
  | .null => ['n', 'u', 'l', 'l']
  | .number n => Nat.toDigits 10 n
  | .text s => quote s
  | .array [] => ['[', ']']
  | .array (item :: items) =>
      '[' :: newline (level + 1) ++ pretty (level + 1) item ++ prettyItems (level + 1) items ++
        newline level ++ [']']
  | .object [] => ['{', '}']
  | .object ((key, value) :: members) =>
      '{' :: newline (level + 1) ++ quote key ++ [':', ' '] ++ pretty (level + 1) value ++
        prettyMembers (level + 1) members ++ newline level ++ ['}']

/-- The items after the first, each behind a comma and on a line of its own. -/
def prettyItems (level : Nat) : List Json → List Char
  | [] => []
  | item :: items => ',' :: newline level ++ pretty level item ++ prettyItems level items

/-- The members after the first, each behind a comma and on a line of its own. -/
def prettyMembers (level : Nat) : List (String × Json) → List Char
  | [] => []
  | (key, value) :: members =>
      ',' :: newline level ++ quote key ++ [':', ' '] ++ pretty level value ++
        prettyMembers level members

end

/-- A whole document, without a line feed at its end. -/
def render (value : Json) : String :=
  String.ofList (pretty 0 value)

end Json
end HeaderAudit

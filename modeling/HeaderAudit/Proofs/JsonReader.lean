import HeaderAudit.Proofs.JsonGrammar

/-!
# JsonReader — reading JSON text from left to right

The reader takes a text character by character and keeps what has begun and not ended: the arrays
and objects around the place it has reached, and the token it is in the middle of.  This file
defines:

* `Json.Token`, `Json.Frame` and `Json.Stage` — what is read, what is around it, and what may come
  next; `Stage.take` is the step for one token;
* `Json.Reader` — a stage together with a token that has begun; `Reader.step` is the step for one
  character;
* `Json.read?` — the value of a whole text.

No part of the text is looked at twice, and nothing bounds how deep it may be nested.
-/

namespace HeaderAudit
namespace Json

/-! ## Tokens -/

inductive Mark
  | openArray
  | closeArray
  | openObject
  | closeObject
  | comma
  | colon
deriving DecidableEq, Repr

def Mark.ofChar? : Char → Option Mark
  | '[' => some .openArray
  | ']' => some .closeArray
  | '{' => some .openObject
  | '}' => some .closeObject
  | ',' => some .comma
  | ':' => some .colon
  | _ => none

inductive Token
  | mark (m : Mark)
  | text (s : String)
  /-- A value that is one word. -/
  | word (v : Value)

/-- An array or object around the place that is reached, with what it holds so far. -/
inductive Frame
  | items (before : List Value)
  | members (before : List (String × Value)) (name : String)

/-- What the token to come may be. -/
inductive Stage
  /-- A value.  Where an array has nothing in it yet, its end may come as well. -/
  | value (stack : List Frame)
  /-- A key.  Where an object has nothing in it yet, its end may come as well. -/
  | key (before : List (String × Value)) (stack : List Frame)
  | colon (before : List (String × Value)) (name : String) (stack : List Frame)
  /-- Behind a value only what ends or continues the innermost frame. -/
  | after (v : Value) (stack : List Frame)

def Stage.take : Stage → Token → Option Stage
  | .value stack, .word v => some (.after v stack)
  | .value stack, .text s => some (.after (.text s) stack)
  | .value stack, .mark .openArray => some (.value (.items [] :: stack))
  | .value stack, .mark .openObject => some (.key [] stack)
  | .value (.items [] :: stack), .mark .closeArray => some (.after (.array []) stack)
  | .key before stack, .text name => some (.colon before name stack)
  | .key [] stack, .mark .closeObject => some (.after (.object []) stack)
  | .colon before name stack, .mark .colon => some (.value (.members before name :: stack))
  | .after v (.items before :: stack), .mark .comma =>
      some (.value (.items (before ++ [v]) :: stack))
  | .after v (.items before :: stack), .mark .closeArray =>
      some (.after (.array (before ++ [v])) stack)
  | .after v (.members before name :: stack), .mark .comma =>
      some (.key (before ++ [(name, v)]) stack)
  | .after v (.members before name :: stack), .mark .closeObject =>
      some (.after (.object (before ++ [(name, v)])) stack)
  | _, _ => none

/-! ## Words -/

/-- What neither is a blank nor has a meaning of its own belongs to a word. -/
def isWordChar (c : Char) : Bool :=
  !isSpace c && c ≠ '"' && (Mark.ofChar? c).isNone

/-- The digits behind a point, if there is one, and what is left. -/
def fraction? : List Char → Option (List Char × List Char)
  | '.' :: rest =>
      let digits := rest.takeWhile Char.isDigit
      if digits = [] then none else some (digits, rest.dropWhile Char.isDigit)
  | rest => some ([], rest)

def powerSign : List Char → Bool × List Char
  | '+' :: rest => (false, rest)
  | '-' :: rest => (true, rest)
  | rest => (false, rest)

def power? : List Char → Option Int
  | [] => some 0
  | e :: rest =>
      let digits := (powerSign rest).2
      if (e = 'e' ∨ e = 'E') ∧ digits ≠ [] ∧ digits.all Char.isDigit then
        some (signed (powerSign rest).1 (decimal digits))
      else none

/-- A zero stands before the point only if it is alone there. -/
def isWhole (digits : List Char) : Bool :=
  digits = ['0'] || (digits ≠ [] && digits.head? ≠ some '0')

def sign : List Char → Bool × List Char
  | '-' :: rest => (true, rest)
  | rest => (false, rest)

def number? (word : List Char) : Option Value :=
  let whole := (sign word).2.takeWhile Char.isDigit
  if isWhole whole then
    match fraction? ((sign word).2.dropWhile Char.isDigit) with
    | none => none
    | some (fraction, rest) =>
        match power? rest with
        | none => none
        | some n =>
            some (.number (signed (sign word).1 (decimal (whole ++ fraction)))
              (n - fraction.length))
  else none

def word? (word : List Char) : Option Value :=
  match number? word with
  | some v => some v
  | none =>
      if word = ['n', 'u', 'l', 'l'] then some .null
      else if word = ['t', 'r', 'u', 'e'] then some (.boolean true)
      else if word = ['f', 'a', 'l', 's', 'e'] then some (.boolean false)
      else none

/-! ## Strings -/

/-- Where a reader stands in a string. -/
inductive Escape
  | none
  /-- Behind a backslash, and a first half before it if there was one. -/
  | begun (high : Option Nat)
  /-- Among the four digits of a code. -/
  | code (high : Option Nat) (digits : List Char)
  /-- Behind a first half. -/
  | second (high : Nat)

inductive Lexeme
  | between
  | word (read : List Char)
  | text (read : List Char) (escape : Escape)

/-- What a code adds to a string. -/
def addCode (read : List Char) : Option Nat → Nat → Option Lexeme
  | none, n =>
      if isHighHalf n then some (.text read (.second n))
      else if isLowHalf n then none
      else some (.text (read ++ [Char.ofNat n]) .none)
  | some high, n =>
      if isLowHalf n then some (.text (read ++ [Char.ofNat (joinHalves high n)]) .none) else none

/-- One character inside of a string, the quote that ends it apart. -/
def textStep (read : List Char) : Escape → Char → Option Lexeme
  | .none, c =>
      if c = '\\' then some (.text read (.begun none))
      else if c.toNat < 0x20 then none
      else some (.text (read ++ [c]) .none)
  | .begun high, c =>
      if c = 'u' then some (.text read (.code high []))
      else if high = none then
        (shortEscapes.lookup c).map fun d => .text (read ++ [d]) .none
      else none
  | .code high digits, c =>
      if digits.length < 3 then some (.text read (.code high (digits ++ [c])))
      else (code? (digits ++ [c])).bind (addCode read high)
  | .second high, c => if c = '\\' then some (.text read (.begun (some high))) else none

/-! ## The reader -/

structure Reader where
  stage : Stage
  lexeme : Lexeme

namespace Reader

def take (stage : Stage) (token : Token) : Option Reader :=
  (stage.take token).map (⟨·, .between⟩)

/-- A character where no token has begun. -/
def start (stage : Stage) (c : Char) : Option Reader :=
  if isSpace c then some ⟨stage, .between⟩
  else if c = '"' then some ⟨stage, .text [] .none⟩
  else match Mark.ofChar? c with
    | some m => take stage (.mark m)
    | none => some ⟨stage, .word [c]⟩

/-- A word ends at the first character that does not belong to it. -/
def step (r : Reader) (c : Char) : Option Reader :=
  match r.lexeme with
  | .between => start r.stage c
  | .word read =>
      if isWordChar c then some ⟨r.stage, .word (read ++ [c])⟩
      else (word? read).bind fun v => (r.stage.take (.word v)).bind fun stage => start stage c
  | .text read .none =>
      if c = '"' then take r.stage (.text (String.ofList read))
      else (textStep read .none c).map (⟨r.stage, ·⟩)
  | .text read escape => (textStep read escape c).map (⟨r.stage, ·⟩)

/-- At the end one value has to be there, with nothing around it. -/
def whole? : Stage → Option Value
  | .after v [] => some v
  | _ => none

def finish (r : Reader) : Option Value :=
  match r.lexeme with
  | .between => whole? r.stage
  | .word read => (word? read).bind fun v => (r.stage.take (.word v)).bind whole?
  | .text _ _ => none

def run : Reader → List Char → Option Value
  | r, [] => r.finish
  | r, c :: rest =>
      match r.step c with
      | none => none
      | some next => run next rest

end Reader

/-- The value of a whole text. -/
def read? (text : String) : Option Value :=
  Reader.run ⟨.value [], .between⟩ text.toList

end Json
end HeaderAudit

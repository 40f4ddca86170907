import HeaderAudit.Diagnostic.Pattern
import HeaderAudit.Diagnostic.Severity
import HeaderAudit.Text.Utf8

/-!
# Directive — one rule of a log filter

A directive sets a threshold for the components whose target begins with its own.  It may also ask
for a span that the event stands in, and for a field with a certain value.  Events of this program
stand in no span, and all they carry is a message whose value is not looked at, so only two kinds of
directives ever decide: those that ask for nothing and those that ask for a message.

This file defines:

* `Directive` and `Directive.appliesTo` — the rule, and the components that it speaks for;
* `Directive.threshold?` — the written form of a threshold;
* `Directive.parse?` — the written form of a directive.

A directive is cut into parts at marks that are looked for behind the blanks in front of it, but the
parts are taken from the same positions of the whole text.  So blanks in front shift every part.
-/

namespace HeaderAudit

/-- A field by its name, and the value asked for, if any. -/
structure FieldTest where
  name : List Char
  value : Option (List Char)
deriving DecidableEq, Repr

/-- The empty target stands for every component. -/
structure Directive where
  target : List Char
  span : Option (List Char)
  field : Option FieldTest
  threshold : Threshold
deriving DecidableEq, Repr

/-- Every event carries this field. -/
def FieldTest.messageName : List Char :=
  "message".toList

/-- The test holds of every event, whatever its message. -/
def FieldTest.isMet (test : FieldTest) : Bool :=
  test.name = messageName && test.value.isNone

namespace Directive

def ofThreshold (threshold : Threshold) : Directive :=
  ⟨[], none, none, threshold⟩

def appliesTo (d : Directive) (target : List Char) : Bool :=
  d.target.isPrefixOf target && d.span.isNone && d.field.all FieldTest.isMet

/-- A longer target counts for more, and between equals a field does. -/
def specificity (d : Directive) : Nat :=
  2 * d.target.length + (if d.field.isSome then 1 else 0)

/-! ## Thresholds -/

/-- A decimal numeral, which may have a plus sign in front. -/
def numeral? (word : List Char) : Option Nat :=
  let digits := match word with
    | '+' :: rest => rest
    | _ => word
  if digits ≠ [] ∧ digits.all Char.isDigit then
    some (digits.foldl (fun n c => 10 * n + (c.toNat - '0'.toNat)) 0)
  else none

/-- A threshold by number, from 0 for nothing to 5 for everything. -/
def thresholdOfNumber? : Nat → Option Threshold
  | 0 => some none
  | 1 => some (some .error)
  | 2 => some (some .warn)
  | 3 => some (some .info)
  | 4 => some (some .debug)
  | 5 => some (some .trace)
  | _ => none

/-- A threshold by name, in either case. -/
def thresholdOfName? (word : List Char) : Option Threshold :=
  let lower := word.map Char.toLower
  if lower = "off".toList then some none
  else (Severity.all.find? fun severity => severity.name.toList = lower).map some

def threshold? (word : List Char) : Option Threshold :=
  ((numeral? word).bind thresholdOfNumber?).or (thresholdOfName? word)

/-! ## Fields -/

/-- What follows a sign, if there is one. -/
def unsigned (word : List Char) : List Char :=
  match word with
  | '+' :: rest => rest
  | '-' :: rest => rest
  | _ => word

def isExponent (word : List Char) : Bool :=
  match word with
  | [] => true
  | c :: rest => (c = 'e' || c = 'E') && unsigned rest ≠ [] && (unsigned rest).all Char.isDigit

/-- A decimal number, with or without a fraction and an exponent. -/
def isDecimal (word : List Char) : Bool :=
  let whole := word.takeWhile Char.isDigit
  match word.dropWhile Char.isDigit with
  | '.' :: rest =>
      (whole ≠ [] || (rest.head?.any Char.isDigit)) && isExponent (rest.dropWhile Char.isDigit)
  | rest => whole ≠ [] && isExponent rest

def isNumber (word : List Char) : Bool :=
  isDecimal (unsigned word) ||
    ["inf", "infinity", "nan"].any fun name => name.toList = (unsigned word).map Char.toLower

/-- A name, or a name and a value, which is a number or a well formed pattern.  What stands behind a
second equals sign does not count. -/
def fieldTest? (word : List Char) : Option FieldTest :=
  let name := word.takeWhile (· ≠ '=')
  if word = [] then none
  else match word.dropWhile (· ≠ '=') with
    | [] => some ⟨name, none⟩
    | _ :: rest =>
        let value := rest.takeWhile (· ≠ '=')
        if isNumber value || Pattern.isWellFormed value then some ⟨name, some value⟩ else none

/-! ## Parts of the written form -/

def equals : UInt8 := 0x3D

def openBracket : UInt8 := 0x5B

def closeBracket : UInt8 := 0x5D

def openBrace : UInt8 := 0x7B

def closeBrace : UInt8 := 0x7D

/-- The text between two positions.  There is none where a position lies inside of a character. -/
def part? (source : Bytes) (start stop : Nat) : Option (List Char) :=
  (Utf8.decode? ((source.take stop).drop start)).map String.toList

/-- The text from a position on. -/
def rest? (source : Bytes) (start : Nat) : Option (List Char) :=
  part? source start source.length

/-- A threshold from a position on, where no text lets everything pass. -/
def thresholdFrom? (source : Bytes) (start : Nat) : Option Threshold :=
  (rest? source start).bind fun word => if word = [] then some (some .trace) else threshold? word

/-- A word alone is a threshold for everything, or else a target for which everything passes. -/
def ofWord (word : List Char) : Directive :=
  match threshold? word with
  | some threshold => ofThreshold threshold
  | none => ⟨word, none, none, some .trace⟩

/-- What may stand behind the closing bracket: nothing, or a threshold. -/
def ending? (source : Bytes) (position : Nat) (text : Bytes) : Option Threshold :=
  match text.drop position with
  | [] => some (some .trace)
  | b :: _ => if b = equals then thresholdFrom? source (position + 1) else none

/-- A span in brackets, and in them a field in braces.  A field needs no span. -/
def bracketed? (source : Bytes) (target : List Char) (start : Nat) (text : Bytes) :
    Option Directive := do
  let inside := text.drop start
  let stop := start + (inside.takeWhile fun b => b ≠ closeBracket ∧ b ≠ openBrace).length
  let span ← part? source start stop
  match text.drop stop with
  | [] => none
  | b :: inBraces =>
      if b = closeBracket then
        return ⟨target, some span, none, ← ending? source (stop + 1) text⟩
      else
        let close := stop + 1 + (inBraces.takeWhile (· ≠ closeBrace)).length
        let test ← (part? source (stop + 1) close).bind fieldTest?
        if (text.drop close).take 2 = [closeBrace, closeBracket] then
          let threshold ← ending? source (close + 2) text
          return ⟨target, if span = [] then none else some span, some test, threshold⟩
        else none

/-! ## The written form -/

/-- The characters with which a target or a threshold may begin. -/
def opensWord (c : Char) : Bool :=
  c = '-' || c = ':' || c = '_' || Alphanumeric.isAlphanumeric c

/-- A target up to the mark that ends it, and what the mark announces. -/
def targeted? (source : Bytes) (text : Bytes) : Option Directive :=
  let stop := (text.takeWhile fun b => b ≠ equals ∧ b ≠ openBracket).length
  match text.drop stop with
  | [] => (rest? source 0).map ofWord
  | b :: _ =>
      (part? source 0 stop).bind fun target =>
        if b = equals then (thresholdFrom? source (stop + 1)).map (⟨target, none, none, ·⟩)
        else bracketed? source target (stop + 1) text

/-- The text without blanks around it, in which the marks are looked for. -/
def bare (piece : List Char) : List Char :=
  ((piece.dropWhile Blank.isWhiteSpace).reverse.dropWhile Blank.isWhiteSpace).reverse

def parse? (piece : List Char) : Option Directive :=
  let source := Utf8.encode (String.ofList piece)
  let text := Utf8.encode (String.ofList (bare piece))
  match (bare piece).head? with
  | none => none
  | some first =>
      if first = '[' then bracketed? source [] 1 text
      else if opensWord first then targeted? source text
      else none

end Directive
end HeaderAudit

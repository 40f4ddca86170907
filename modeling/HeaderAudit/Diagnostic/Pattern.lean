import HeaderAudit.Text.Alphanumeric
import HeaderAudit.Text.Blank
import HeaderAudit.Text.Hex

/-!
# Pattern — which regular expressions are well formed

A log filter may ask for the value of a field by a regular expression.  Whether the filter is valid
hangs on the expression, so this file decides which expressions are well formed; it matches none.

The expression is read once from left to right.  What has to be remembered is small: the flags, the
flags outside of each open group, whether something stands before that can be repeated, and how many
classes are open.  This file defines:

* `Pattern.State` and `Pattern.step?` — what is remembered, and one step, which may take in several
  characters;
* `Pattern.isWellFormed` — no step fails, and at the end every group and class is closed.

Classes are known by their code points alone.  So the named classes, word boundaries and the folding
of case are there for ASCII only, behind `(?-u)`, where in turn nothing outside ASCII can be meant.
A count in braces is never well formed, because the field that holds the expression ends at the
closing brace.
-/

namespace HeaderAudit
namespace Pattern

/-! ## Flags -/

structure Flags where
  ignoreCase : Bool
  unicode : Bool
  /-- Blanks and comments do not count. -/
  spaced : Bool
deriving DecidableEq, Repr

namespace Flags

def standard : Flags :=
  ⟨false, true, false⟩

/-- The letters of all flags, and the dash that switches off those behind it. -/
def letters : List Char :=
  ['i', 'm', 's', 'U', 'u', 'R', 'x', '-']

/-- No letter comes twice, and the dash has something behind it. -/
def areValid (word : List Char) : Bool :=
  word.all letters.contains && word.Nodup && word.getLast? ≠ some '-'

def switch (word : List Char) (letter : Char) (current : Bool) : Bool :=
  if letter ∈ word.takeWhile (· ≠ '-') then true
  else if letter ∈ word then false
  else current

def set (flags : Flags) (word : List Char) : Flags :=
  ⟨switch word 'i' flags.ignoreCase, switch word 'u' flags.unicode, switch word 'x' flags.spaced⟩

end Flags

/-! ## Blanks and comments -/

/-- How many characters in front are blanks or comments, which begin with `#` and end with their
line. -/
def gapFrom : Bool → List Char → Nat
  | _, [] => 0
  | true, c :: rest => 1 + gapFrom (c ≠ '\n') rest
  | false, c :: rest =>
      if c = '#' then 1 + gapFrom true rest
      else if Blank.isWhiteSpace c then 1 + gapFrom false rest
      else 0

def gap (flags : Flags) (s : List Char) : Nat :=
  if flags.spaced then gapFrom false s else 0

/-! ## Single characters and escapes -/

inductive Atom
  /-- One character, which may be given as the value of a byte. -/
  | literal (c : Char) (byte : Bool)
  /-- A class with a name of one letter. -/
  | named (negated : Bool)
  | wordBoundary
  | textBoundary
deriving DecidableEq, Repr

/-- The character whose code point is given by exactly so many digits. -/
def codePoint? (digits : Nat) (s : List Char) : Option Char :=
  if s.length < digits then none
  else
    match (s.take digits).foldlM (fun n c => (Hex.digit? c).map (16 * n + ·)) 0 with
    | none => none
    | some n => if n.isValidChar then some (Char.ofNat n) else none

/-- What stands behind a backslash, and its length.  ASCII punctuation stands for itself. -/
def escape? : List Char → Option (Atom × Nat)
  | [] => none
  | c :: rest =>
      match c with
      | 'x' => (codePoint? 2 rest).map (.literal · true, 3)
      | 'u' => (codePoint? 4 rest).map (.literal · false, 5)
      | 'U' => (codePoint? 8 rest).map (.literal · false, 9)
      | 'd' => some (.named false, 1)
      | 's' => some (.named false, 1)
      | 'w' => some (.named false, 1)
      | 'D' => some (.named true, 1)
      | 'S' => some (.named true, 1)
      | 'W' => some (.named true, 1)
      | 'b' => some (.wordBoundary, 1)
      | 'B' => some (.wordBoundary, 1)
      | '<' => some (.wordBoundary, 1)
      | '>' => some (.wordBoundary, 1)
      | 'A' => some (.textBoundary, 1)
      | 'z' => some (.textBoundary, 1)
      | 'a' => some (.literal '\x07' false, 1)
      | 'f' => some (.literal '\x0c' false, 1)
      | 'n' => some (.literal '\n' false, 1)
      | 'r' => some (.literal '\r' false, 1)
      | 't' => some (.literal '\t' false, 1)
      | 'v' => some (.literal '\x0b' false, 1)
      | _ => if c.toNat < 0x80 ∧ !c.isAlphanum then some (.literal c false, 1) else none

/-- A character or an escape, and its length. -/
def atom? : List Char → Option (Atom × Nat)
  | [] => none
  | '\\' :: rest => (escape? rest).map fun found => (found.1, found.2 + 1)
  | c :: _ => some (.literal c false, 1)

/-- The atom has a meaning outside of classes. -/
def isAllowed (flags : Flags) : Atom → Bool
  | .literal c byte =>
      if flags.unicode then !flags.ignoreCase else !(byte && 0x80 ≤ c.toNat)
  | .named negated => !flags.unicode && !negated
  | .wordBoundary => !flags.unicode
  | .textBoundary => true

/-- The atom has a meaning inside of classes. -/
def isAllowedInClass (flags : Flags) : Atom → Bool
  | .literal c _ => flags.unicode || c.toNat < 0x80
  | .named negated => !flags.unicode && !negated
  | .wordBoundary => false
  | .textBoundary => false

/-! ## Groups -/

structure State where
  flags : Flags
  /-- The flags outside of each open group, the innermost first. -/
  outer : List Flags
  repeatable : Bool
  /-- How many classes are open. -/
  depth : Nat
  /-- The names that groups have been given. -/
  names : List (List Char)
deriving DecidableEq, Repr

namespace State

def start : State :=
  ⟨.standard, [], false, 0, []⟩

def openGroup (st : State) (flags : Flags) : State :=
  { st with outer := st.flags :: st.outer, flags := flags, repeatable := false }

def closeGroup? (st : State) : Option State :=
  match st.outer with
  | [] => none
  | flags :: outer => some { st with outer := outer, flags := flags, repeatable := true }

end State

def isName (name : List Char) : Bool :=
  match name with
  | [] => false
  | first :: rest =>
      (first = '_' || Alphanumeric.isAlphabetic first) &&
        rest.all fun c =>
          c = '_' || c = '.' || c = '[' || c = ']' || Alphanumeric.isAlphanumeric c

/-- A step: the state after it, and how many more characters it takes in. -/
abbrev Step := Option (State × Nat)

/-- A group with a name, whose name begins the given text. -/
def namedGroup? (st : State) (s : List Char) (before : Nat) : Step :=
  let name := s.takeWhile (· ≠ '>')
  if name.length < s.length ∧ isName name ∧ name ∉ st.names then
    some ({ st.openGroup st.flags with names := name :: st.names }, before + name.length + 1)
  else none

/-- Flags for a group or, where the bracket closes at once, for the rest of the group around. -/
def flagged? (st : State) (s : List Char) (before : Nat) : Step :=
  let word := s.takeWhile fun c => c ≠ ':' ∧ c ≠ ')'
  let length := before + word.length + 1
  if Flags.areValid word then
    match s.drop word.length with
    | [] => none
    | ':' :: _ => some (st.openGroup (st.flags.set word), length)
    | _ :: _ =>
        if word = [] then none
        else some ({ st with flags := st.flags.set word, repeatable := false }, length)
  else none

/-- What an opening parenthesis begins.  Nothing can be asked about the text around a match. -/
def group? (st : State) (rest : List Char) : Step :=
  let before := gap st.flags rest
  match rest.drop before with
  | '?' :: '=' :: _ => none
  | '?' :: '!' :: _ => none
  | '?' :: '<' :: '=' :: _ => none
  | '?' :: '<' :: '!' :: _ => none
  | '?' :: '<' :: s => namedGroup? st s (before + 2)
  | '?' :: 'P' :: '<' :: s => namedGroup? st s (before + 3)
  | '?' :: s => flagged? st s (before + 1)
  | _ => some (st.openGroup st.flags, before)

/-! ## Classes -/

/-- The names between colons, all of ASCII classes. -/
def classNames : List String :=
  ["alnum", "alpha", "ascii", "blank", "cntrl", "digit", "graph", "lower", "print", "punct",
    "space", "upper", "word", "xdigit"]

/-- A name between colons and its closing bracket: whether it is negated, and the length. -/
def colonName? : List Char → Option (Bool × Nat)
  | ':' :: s =>
      let negated := s.head? = some '^'
      let before := if negated then 2 else 1
      let name := (s.drop (before - 1)).takeWhile (· ≠ ':')
      match s.drop (before - 1 + name.length) with
      | ':' :: ']' :: _ =>
          if classNames.any fun known => known.toList = name then
            some (negated, before + name.length + 2)
          else none
      | _ => none
  | _ => none

/-- What an opening bracket begins.  Dashes in front stand for themselves, and so does a closing
bracket, since no class is empty. -/
def openClass? (st : State) (rest : List Char) : Step :=
  let before := gap st.flags rest
  let negated := (rest.drop before).head? = some '^'
  let afterCaret := if negated then before + 1 else before
  let front := afterCaret + (if negated then gap st.flags (rest.drop afterCaret) else 0)
  let dashes := ((rest.drop front).takeWhile (· = '-')).length
  let bracket := if dashes = 0 ∧ (rest.drop front).head? = some ']' then 1 else 0
  if st.flags.unicode && st.flags.ignoreCase then none
  else if negated ∧ !st.flags.unicode then none
  else some ({ st with depth := st.depth + 1 }, front + dashes + bracket)

/-- A range runs upwards between two single characters. -/
def isRange (flags : Flags) : Atom → Atom → Bool
  | .literal low lowByte, .literal high highByte =>
      low ≤ high && isAllowedInClass flags (.literal low lowByte) &&
        isAllowedInClass flags (.literal high highByte)
  | _, _ => false

/-- An item of a class, alone or as the lower end of a range. -/
def classItem? (st : State) (s : List Char) : Step :=
  match atom? s with
  | none => none
  | some (low, length) =>
      let before := length + gap st.flags (s.drop length)
      let alone : Step := if isAllowedInClass st.flags low then some (st, length - 1) else none
      match s.drop before with
      | '-' :: rest =>
          let space := gap st.flags rest
          match rest.drop space with
          | ']' :: _ => alone
          | '-' :: _ => alone
          | upper =>
              match atom? upper with
              | none => none
              | some (high, width) =>
                  if isRange st.flags low high then some (st, before + space + width) else none
      | _ => alone

/-- A step inside of a class.  Two equal signs in a row combine classes. -/
def classStep? (st : State) (c : Char) (rest : List Char) : Step :=
  if c = '[' then
    match colonName? rest with
    | some (negated, length) =>
        if negated ∧ !st.flags.unicode then none else some (st, length)
    | none => openClass? st rest
  else if c = ']' then
    some ({ st with depth := st.depth - 1, repeatable := true }, 0)
  else if (c = '&' ∨ c = '-' ∨ c = '~') ∧ rest.head? = some c then some (st, 1)
  else classItem? st (c :: rest)

/-! ## The whole expression -/

def item (st : State) (length : Nat) : Step :=
  some ({ st with repeatable := true }, length)

/-- A step outside of classes. -/
def groupStep? (st : State) (c : Char) (rest : List Char) : Step :=
  match c with
  | '(' => group? st rest
  | ')' => st.closeGroup?.map (·, 0)
  | '|' => some ({ st with repeatable := false }, 0)
  | '[' => openClass? st rest
  | '{' => none
  | '.' => if st.flags.unicode then item st 0 else none
  | '^' => item st 0
  | '$' => item st 0
  | _ =>
      if c = '?' ∨ c = '*' ∨ c = '+' then
        if st.repeatable then some (st, if rest.head? = some '?' then 1 else 0) else none
      else
        match atom? (c :: rest) with
        | none => none
        | some (found, length) =>
            if isAllowed st.flags found then item st (length - 1) else none

def step? (st : State) (c : Char) (rest : List Char) : Step :=
  let space := gap st.flags (c :: rest)
  if 0 < space then some (st, space - 1)
  else if 0 < st.depth then classStep? st c rest
  else groupStep? st c rest

/-- Reads on after so many characters that belong to the last step. -/
def closes : State → Nat → List Char → Bool
  | st, _, [] => st.depth = 0 && st.outer.isEmpty
  | st, skipped + 1, _ :: rest => closes st skipped rest
  | st, 0, c :: rest =>
      match step? st c rest with
      | none => false
      | some (next, length) => closes next length rest

def isWellFormed (s : List Char) : Bool :=
  closes .start 0 s

end Pattern
end HeaderAudit

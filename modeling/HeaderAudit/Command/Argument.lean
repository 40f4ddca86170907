import HeaderAudit.Command.Usage
import HeaderAudit.Text.Utf8

/-!
# Argument — what a list of words asks for

A word beginning with two dashes is a long option, one beginning with a single dash is a cluster of
short options, a lone `--` makes paths of all words after it, and every other word is plain.  A long
option that takes a value finds it behind an equals sign or in the next word, if that is plain.

This file defines `Item`, one thing asked for, and `items`, all of them in order.  What the items
mean together is not decided here.
-/

namespace HeaderAudit

/-- Options without a value that a run keeps. -/
inductive Flag
  | allFamilies
  | keepGoing
  | verbose
  | quiet
deriving DecidableEq, Repr

/-- Options with a value. -/
inductive ValueOption
  | reportJson
  | colours
deriving DecidableEq, Repr

/-- What an option's name stands for. -/
inductive OptionName
  | flag (f : Flag)
  | help
  | version
  | valued (o : ValueOption)
deriving DecidableEq, Repr

inductive Item
  | path (word : Bytes)
  | flag (f : Flag)
  /-- A request for help, in full or as a summary. -/
  | help (full : Bool)
  | version
  /-- An option and its value, which may be joined to it in one word. -/
  | option (o : ValueOption) (joined : Bool) (value : Option Bytes)
  | refused (e : UsageError)
deriving DecidableEq, Repr

/-- How an option is spelled in a message. -/
def Flag.shown : Flag → String
  | .allFamilies => "--all-families"
  | .keepGoing => "--keep-going"
  | .verbose => "--verbose..."
  | .quiet => "--quiet"

def ValueOption.shown : ValueOption → String
  | .reportJson => "--report-json <OUTPUT>"
  | .colours => "--colors [<WHEN>]"

namespace OptionName

def shown : OptionName → String
  | .flag f => f.shown
  | .help => "--help"
  | .version => "--version"
  | .valued o => o.shown

def longNames : List (String × OptionName) :=
  [("all-families", .flag .allFamilies),
    ("keep-going", .flag .keepGoing),
    ("report-json", .valued .reportJson),
    ("verbose", .flag .verbose),
    ("quiet", .flag .quiet),
    ("colors", .valued .colours),
    ("help", .help),
    ("version", .version)]

/-- Names are not abbreviated. -/
def ofLong? (name : Bytes) : Option OptionName :=
  (longNames.find? fun entry => Utf8.encode entry.1 = name).map (·.2)

end OptionName

/-! ## Words -/

inductive Word
  | plain
  | separator
  | long (name : Bytes) (value : Option Bytes)
  | cluster (letters : Bytes)
deriving DecidableEq, Repr

namespace Word

def dash : UInt8 := 0x2D

def equals : UInt8 := 0x3D

/-- The name and the value of a long option, cut at the first equals sign. -/
def ofLong (body : Bytes) : Word :=
  match body.dropWhile (· ≠ equals) with
  | [] => .long body none
  | _ :: value => .long (body.takeWhile (· ≠ equals)) (some value)

/-- A single dash and the empty word are plain. -/
def of : Bytes → Word
  | first :: second :: rest =>
      if first ≠ dash then .plain
      else if second ≠ dash then .cluster (second :: rest)
      else if rest = [] then .separator
      else ofLong rest
  | _ => .plain

end Word

/-! ## Items -/

namespace Item

def unexpected (dashes : String) (name : String) : Item :=
  .refused (.unexpectedArgument (dashes ++ name))

/-- A short option. -/
def ofLetter? : Char → Option Item
  | 'v' => some (.flag .verbose)
  | 'q' => some (.flag .quiet)
  | 'h' => some (.help false)
  | 'V' => some .version
  | _ => none

/-- Short options in one word.  Bytes that are no text end the cluster. -/
def ofLetters : List (Option Char) → List Item
  | [] => []
  | some c :: rest =>
      match ofLetter? c with
      | some item => item :: ofLetters rest
      | none => [unexpected "-" (String.singleton c)]
  | none :: rest =>
      [unexpected "-" (String.ofList ((none :: rest).map fun c => c.getD '\uFFFD'))]

def ofCluster (letters : Bytes) : List Item :=
  ofLetters (Utf8.scan none letters)

/-- A long option that takes no value. -/
def ofSwitch (name : OptionName) (item : Item) (value : Option Bytes) : Item :=
  match value with
  | none => item
  | some value => .refused (.unexpectedValue name.shown (Utf8.decodeLossy value))

end Item

/-- All items of a command line, in order. -/
def items : List Bytes → List Item
  | [] => []
  | word :: rest =>
      match Word.of word with
      | .plain => .path word :: items rest
      | .separator => rest.map .path
      | .cluster letters => Item.ofCluster letters ++ items rest
      | .long name value =>
          match OptionName.ofLong? name with
          | none => Item.unexpected "--" (Utf8.decodeLossy name) :: items rest
          | some (.flag f) => Item.ofSwitch (.flag f) (.flag f) value :: items rest
          | some .help => Item.ofSwitch .help (.help true) value :: items rest
          | some .version => Item.ofSwitch .version .version value :: items rest
          | some (.valued o) =>
              match value with
              | some value => .option o true (some value) :: items rest
              | none =>
                  match rest with
                  | [] => [.option o false none]
                  | next :: others =>
                      if Word.of next = .plain then .option o false (some next) :: items others
                      else .option o false none :: items (next :: others)

end HeaderAudit

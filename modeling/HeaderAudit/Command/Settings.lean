import HeaderAudit.Command.Argument
import HeaderAudit.Console.Lines
import HeaderAudit.Run

/-!
# Settings — what a command line decides

The items of a command line are taken in order into a draft.  An error in a value that is a word of
its own, and a path that is not text, wait until the next option (for a value also until the next
path) or the end; an item that is refused outright comes before a waiting error.  Help and version
act where they stand.  Only at the end is it asked whether quiet and verbose were both given.

This file defines `Draft.take`, the effect of one item, and `Settings.parse`.
-/

namespace HeaderAudit

structure Settings where
  paths : List String
  options : RunOptions
  report : Option Path
  verbosity : Nat
  quiet : Bool
  colours : ColourChoice
deriving DecidableEq, Repr

/-- Why no run takes place. -/
inductive Stop
  | usage (e : UsageError)
  | help (full : Bool)
  | version
deriving DecidableEq, Repr

namespace Settings

def mode (s : Settings) : Loudness :=
  if 0 < s.verbosity then .verbose
  else if s.quiet then .quiet
  else .normal

/-- The severity that is logged when the environment does not say otherwise. -/
def severity (quiet : Bool) (verbosity : Nat) : Severity :=
  if quiet then .error
  else match verbosity with
    | 0 => .warn
    | 1 => .info
    | 2 => .debug
    | _ => .trace

end Settings

/-! ## Drafts -/

structure Draft where
  paths : List String
  allFamilies : Bool
  keepGoing : Bool
  quiet : Bool
  verbosity : Nat
  /-- The last request to be verbose came after the request to be quiet. -/
  quietFirst : Bool
  report : Option Path
  colours : Option ColourChoice
  /-- An error that waits for the next option or the end. -/
  waiting : Option UsageError
deriving DecidableEq, Repr

namespace Draft

def empty : Draft :=
  ⟨[], false, false, false, 0, false, none, none, none⟩

/-- Verbosity does not rise above this. -/
def verbosityLimit : Nat := 255

def setFlag (d : Draft) : Flag → Except UsageError Draft
  | .allFamilies =>
      if d.allFamilies then .error (.repeated Flag.allFamilies.shown)
      else .ok { d with allFamilies := true }
  | .keepGoing =>
      if d.keepGoing then .error (.repeated Flag.keepGoing.shown)
      else .ok { d with keepGoing := true }
  | .quiet =>
      if d.quiet then .error (.repeated Flag.quiet.shown)
      else .ok { d with quiet := true }
  | .verbose =>
      .ok { d with verbosity := min (d.verbosity + 1) verbosityLimit, quietFirst := d.quiet }

def setReport (d : Draft) : Option Bytes → Except UsageError Draft
  | none => .error (.valueRequired ValueOption.reportJson.shown)
  | some value =>
      if d.report.isSome then .error (.repeated ValueOption.reportJson.shown)
      else if value = [] then .error (.valueRequired ValueOption.reportJson.shown)
      else .ok { d with report := some ⟨value⟩ }

def colourChoice? (value : Bytes) : Option ColourChoice :=
  ColourChoice.all.find? fun choice => Utf8.encode choice.name = value

/-- Without a value colours are always used. -/
def setColours (d : Draft) (value : Option Bytes) : Except UsageError Draft :=
  if d.colours.isSome then .error (.repeated ValueOption.colours.shown)
  else match value with
    | none => .ok { d with colours := some .always }
    | some value =>
        if value = [] then .error (.valueRequired ValueOption.colours.shown)
        else match colourChoice? value with
          | some choice => .ok { d with colours := some choice }
          | none => .error (.invalidValue ValueOption.colours.shown (Utf8.decodeLossy value))

def setOption (d : Draft) : ValueOption → Option Bytes → Except UsageError Draft
  | .reportJson, value => d.setReport value
  | .colours, value => d.setColours value

/-- The draft, unless an error waits in it. -/
def settle (d : Draft) : Except UsageError Draft :=
  match d.waiting with
  | none => .ok d
  | some e => .error e

/-- Paths in a row are one group: after one that is not text the others are passed over. -/
def addPath (d : Draft) (word : Bytes) : Except UsageError Draft :=
  match d.waiting with
  | some .notText => .ok d
  | some e => .error e
  | none =>
      match Utf8.decode? word with
      | some path => .ok { d with paths := d.paths ++ [path] }
      | none => .ok { d with waiting := some .notText }

/-- An error in a value of its own waits, one in a joined value does not. -/
def addOption (d : Draft) (o : ValueOption) (joined : Bool) (value : Option Bytes) :
    Except UsageError Draft :=
  match d.settle with
  | .error e => .error e
  | .ok d =>
      match d.setOption o value with
      | .ok d => .ok d
      | .error e => if joined then .error e else .ok { d with waiting := some e }

/-- The request ends the reading of arguments, unless an error waits. -/
def stop (d : Draft) (reason : Stop) : Except Stop Draft :=
  match d.waiting with
  | none => .error reason
  | some e => .error (.usage e)

def take (d : Draft) : Item → Except Stop Draft
  | .path word => (d.addPath word).mapError .usage
  | .flag f => (d.settle.bind fun d => d.setFlag f).mapError .usage
  | .help full => d.stop (.help full)
  | .version => d.stop .version
  | .option o joined value => (d.addOption o joined value).mapError .usage
  | .refused e => .error (.usage e)

/-- The pair of options that exclude each other, in the order in which they were given last. -/
def conflict (d : Draft) : UsageError :=
  if d.quietFirst then .conflict Flag.quiet.shown Flag.verbose.shown
  else .conflict Flag.verbose.shown Flag.quiet.shown

def finish (d : Draft) : Except Stop Settings :=
  match d.waiting with
  | some e => .error (.usage e)
  | none =>
      if d.quiet ∧ 0 < d.verbosity then .error (.usage d.conflict)
      else .ok
        { paths := d.paths
          options := ⟨d.allFamilies, d.keepGoing⟩
          report := d.report
          verbosity := d.verbosity
          quiet := d.quiet
          colours := d.colours.getD .auto }

end Draft

def Settings.parse (words : List Bytes) : Except Stop Settings :=
  ((items words).foldlM Draft.take Draft.empty).bind Draft.finish

end HeaderAudit

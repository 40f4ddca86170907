import HeaderAudit.Console.Colour
import HeaderAudit.Finding

/-!
# Lines — what a run prints besides its log

Standard output carries one thing, the list of failing paths under a banner, and nothing at all when
no path fails.  Everything else goes to standard error and depends on how loud the run is.  This
file defines:

* `Loudness` — quiet, normal or verbose;
* `Console.failureList` and `Findings.listing` — the text on standard output;
* `Console.detail` and `Console.notice` — a line for verbose runs only, and one for all but quiet
  runs;
* `Console.tally` — the summary of a run, for verbose runs only.
-/

namespace HeaderAudit

inductive Loudness
  | normal
  | quiet
  | verbose
deriving DecidableEq, Repr

namespace Loudness

def showsDetails (mode : Loudness) : Bool :=
  mode = .verbose

def hidesNotices (mode : Loudness) : Bool :=
  mode = .quiet

end Loudness

namespace Console

/-! ## Standard output -/

def banner : String := "Missing license headers"

/-- Every line ends in a line feed. -/
def ofLines (lines : List String) : String :=
  String.join (lines.map (· ++ "\n"))

def failureList (paths : List String) : String :=
  match paths with
  | [] => ""
  | first :: rest => ofLines (banner :: first :: rest)

/-! ## Standard error -/

/-- A line that only verbose mode shows. -/
def detail (mode : Loudness) (message : String) : List String :=
  if mode.showsDetails then [message] else []

/-- A line that quiet mode leaves out. -/
def notice (mode : Loudness) (coloured : Bool) (message : String) : List String :=
  if mode.hidesNotices then [] else [Colour.yellow.paint coloured message]

def number (n : UInt64) : String :=
  toString n.toNat

/-- The count of missing headers stands out only when there is one. -/
def missingCount (coloured : Bool) (t : Tally) : String :=
  if 0 < t.missing then Colour.red.paint coloured (number t.missing) else number t.missing

def failingPart (coloured : Bool) (t : Tally) : String :=
  if 0 < t.failureCount then
    " (" ++ Colour.red.paint coloured (number t.failureCount ++ " failing") ++ ")"
  else ""

def tallyLine (coloured : Bool) (t : Tally) : String :=
  "Checked " ++ number t.total ++ (if t.total = 1 then " file: " else " files: ") ++
    Colour.green.paint coloured (number t.passed) ++ " passed, " ++
    Colour.dimmed.paint coloured (number t.excluded) ++ " excluded, " ++
    missingCount coloured t ++ " missing, " ++
    number t.unreadable ++ " unreadable" ++ failingPart coloured t

def tally (mode : Loudness) (coloured : Bool) (t : Tally) : List String :=
  detail mode (tallyLine coloured t)

end Console

/-- The text on standard output, if all of it arrives. -/
def Findings.listing (findings : List Finding) : String :=
  Console.failureList (failingPaths findings)

end HeaderAudit

import HeaderAudit.Diagnostic.Severity
import HeaderAudit.Disk.Fault
import HeaderAudit.Text.Hex
import HeaderAudit.Verdict

/-!
# Event — what a run has to say about its progress

Every event has a severity, a component that it comes from, and a message.  A log line is the
severity's label and the message, in which control characters that could drive a terminal are
written out.
-/

namespace HeaderAudit

/-- The parts of the program that speak. -/
inductive Component
  | command
  | run
  | judgement
  | exemption
deriving DecidableEq, Repr

/-- The name under which a log filter addresses a component. -/
def Component.target : Component → String
  | .command => "headercheck::cli::check"
  | .run => "headercheck::driver"
  | .judgement => "headercheck::checker"
  | .exemption => "headercheck::exclude"

inductive Event
  | resolvingAgainst (directory : Path)
  | exemptionCount (n : Nat)
  | covered (p : Path)
  | nothingOwed (p : Path)
  | judged (p : Path) (verdict : Verdict)
  | skipped (argument : String)
  | unreadable (u : Unreadable)
  | finished (checked arguments : Nat)
deriving DecidableEq, Repr

namespace Event

def severity : Event → Severity
  | .resolvingAgainst _ => .debug
  | .exemptionCount _ => .debug
  | .covered _ => .trace
  | .nothingOwed _ => .trace
  | .judged _ _ => .debug
  | .skipped _ => .trace
  | .unreadable _ => .warn
  | .finished _ _ => .debug

def component : Event → Component
  | .resolvingAgainst _ => .command
  | .exemptionCount _ => .command
  | .covered _ => .exemption
  | .nothingOwed _ => .judgement
  | .judged _ _ => .judgement
  | .skipped _ => .run
  | .unreadable _ => .run
  | .finished _ _ => .run

def verdictWord : Verdict → String
  | .pass => "Pass"
  | .exempt => "Excluded"
  | .missing => "Missing"

def message : Event → String
  | .resolvingAgainst directory => "Resolving excluded paths against " ++ directory.display
  | .exemptionCount n => toString n ++ " paths on the exclude list"
  | .covered p => p.display ++ " is on the exclude list"
  | .nothingOwed p => p.display ++ ": no header requirement"
  | .judged p verdict => p.display ++ ": " ++ verdictWord verdict
  | .skipped argument => "Skipping " ++ argument ++ ": not a checked suffix"
  | .unreadable u => u.message
  | .finished checked arguments =>
      "Checked " ++ toString checked ++ " of " ++ toString arguments ++ " arguments"

/-! ## The log line -/

/-- Control characters that a terminal may act on are written as their code. -/
def escapeChar (c : Char) : List Char :=
  let n := c.toNat
  if n = 0x1B ∨ n = 0x07 ∨ n = 0x08 ∨ n = 0x0C ∨ n = 0x7F then
    '\\' :: 'x' :: Hex.byte n
  else if 0x80 ≤ n ∧ n ≤ 0x9F then
    ['\\', 'u', '\x7b'] ++ Hex.byte n ++ ['\x7d']
  else
    [c]

def escape (s : String) : String :=
  String.ofList (s.toList.flatMap escapeChar)

def line (e : Event) : String :=
  e.severity.label ++ " " ++ escape e.message

end Event
end HeaderAudit

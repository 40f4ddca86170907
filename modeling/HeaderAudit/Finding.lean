import HeaderAudit.Verdict

/-!
# Finding — what a run records about each file

A finding names a path as it was given, its comment style, its status and, for an unreadable file,
the reason.  This file defines findings, the paths that fail, and `Tally`, the number of findings by
status in 64-bit counters.
-/

namespace HeaderAudit

inductive Status
  | judged (verdict : Verdict)
  | unreadable
deriving DecidableEq, Repr

namespace Status

def name : Status → String
  | .judged .pass => "pass"
  | .judged .exempt => "excluded"
  | .judged .missing => "missing"
  | .unreadable => "unreadable"

def all : List Status :=
  [.judged .pass, .judged .exempt, .judged .missing, .unreadable]

def fails : Status → Bool
  | .judged verdict => !verdict.acceptable
  | .unreadable => true

end Status

structure Finding where
  path : String
  style : Option CommentStyle
  status : Status
  error : Option String
deriving DecidableEq, Repr

namespace Finding

/-- A finding about a path, whose style is the one of the path. -/
def make (path : String) (status : Status) (error : Option String) : Finding :=
  ⟨path, CommentStyle.ofPath? (Path.ofString path), status, error⟩

def judged (path : String) (verdict : Verdict) : Finding :=
  make path (.judged verdict) none

def unreadable (path : String) (reason : String) : Finding :=
  make path .unreadable (some reason)

def fails (f : Finding) : Bool :=
  f.status.fails

end Finding

namespace Findings

/-- The paths that fail, in order and once per finding. -/
def failingPaths (findings : List Finding) : List String :=
  (findings.filter Finding.fails).map (·.path)

def anyFailure (findings : List Finding) : Bool :=
  findings.any Finding.fails

/-- What the program exits with when a run has failures. -/
def failureCode : UInt8 := 1

def exitCode (findings : List Finding) : UInt8 :=
  if anyFailure findings then failureCode else 0

end Findings

structure Tally where
  total : UInt64
  passed : UInt64
  excluded : UInt64
  missing : UInt64
  unreadable : UInt64
deriving DecidableEq, Repr

namespace Tally

def zero : Tally :=
  ⟨0, 0, 0, 0, 0⟩

/-- One more finding with the given status. -/
def add (t : Tally) : Status → Tally
  | .judged .pass => { t with total := t.total + 1, passed := t.passed + 1 }
  | .judged .exempt => { t with total := t.total + 1, excluded := t.excluded + 1 }
  | .judged .missing => { t with total := t.total + 1, missing := t.missing + 1 }
  | .unreadable => { t with total := t.total + 1, unreadable := t.unreadable + 1 }

def ofFindings (findings : List Finding) : Tally :=
  findings.foldl (fun t f => t.add f.status) zero

def failureCount (t : Tally) : UInt64 :=
  t.missing + t.unreadable

end Tally
end HeaderAudit

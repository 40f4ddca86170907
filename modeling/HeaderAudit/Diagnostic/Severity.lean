/-!
# Severity — how much a diagnostic matters

Five severities, ordered from `error` down to `trace`.  A threshold lets through every severity at
least as grave as itself, or nothing at all.  `allows_mono` says that a more talkative threshold
loses nothing.
-/

namespace HeaderAudit

inductive Severity
  | error
  | warn
  | info
  | debug
  | trace
deriving DecidableEq, Repr

/-- The least grave severity that is let through, `none` for nothing. -/
abbrev Threshold := Option Severity

namespace Severity

def rank : Severity → Nat
  | .error => 1
  | .warn => 2
  | .info => 3
  | .debug => 4
  | .trace => 5

def name : Severity → String
  | .error => "error"
  | .warn => "warn"
  | .info => "info"
  | .debug => "debug"
  | .trace => "trace"

/-- The severity in front of a log line, right-aligned in five columns. -/
def label : Severity → String
  | .error => "ERROR"
  | .warn => " WARN"
  | .info => " INFO"
  | .debug => "DEBUG"
  | .trace => "TRACE"

def all : List Severity :=
  [.error, .warn, .info, .debug, .trace]

end Severity

namespace Threshold

def rank : Threshold → Nat
  | none => 0
  | some severity => severity.rank

def allows (threshold : Threshold) (severity : Severity) : Bool :=
  severity.rank ≤ threshold.rank

theorem allows_mono {low high : Threshold} (h : low.rank ≤ high.rank) {severity : Severity}
    (hlow : low.allows severity) : high.allows severity := by
  simp only [allows, decide_eq_true_eq] at hlow ⊢
  exact Nat.le_trans hlow h

end Threshold
end HeaderAudit

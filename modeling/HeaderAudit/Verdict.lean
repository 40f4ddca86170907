import HeaderAudit.Exemption
import HeaderAudit.Notice

/-!
# Verdict — the outcome of looking at one readable file

Exemption comes first, then the question whether the path owes a notice at all, and only then the
content.  This file defines the three verdicts and `Verdict.of`.
-/

namespace HeaderAudit

inductive Verdict
  | pass
  | exempt
  | missing
deriving DecidableEq, Repr

namespace Verdict

def of (exemptions : Exemptions) (p : Path) (content : String) : Verdict :=
  if exemptions.covers p then .exempt
  else match CommentStyle.ofPath? p with
    | none => .pass
    | some style => if Notice.opens style content then .pass else .missing

/-- Only a missing notice is held against a file. -/
def acceptable : Verdict → Bool
  | .pass => true
  | .exempt => true
  | .missing => false

theorem of_eq_exempt_iff {exemptions : Exemptions} {p : Path} {content : String} :
    of exemptions p content = .exempt ↔ exemptions.covers p = true := by
  by_cases h : exemptions.covers p = true
  · simp only [of, h, if_true]
  · constructor
    · intro hof
      rw [of, if_neg h] at hof
      cases hstyle : CommentStyle.ofPath? p with
      | none => rw [hstyle] at hof; cases hof
      | some style =>
          rw [hstyle] at hof
          cases hopens : Notice.opens style content <;> simp [hopens] at hof
    · intro hcovers
      exact absurd hcovers h

end Verdict
end HeaderAudit

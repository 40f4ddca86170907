import HeaderAudit.Diagnostic.Event

/-!
# Examination — reading one file and judging it

The file is read before anything else is asked, so a file that cannot be read is reported whether or
not it is exempt or owes a notice.  `examine_outcome_eq_error_iff` says that failure to read is the
only failure, and that it does not depend on the exemptions.
-/

namespace HeaderAudit

/-- What looking at a file says on the way, and what comes of it. -/
structure Examination where
  events : List Event
  outcome : Except Unreadable Verdict

/-- What judging a path has to say before the verdict. -/
def remarks (exemptions : Exemptions) (p : Path) : List Event :=
  if exemptions.covers p then [.covered p]
  else if CommentStyle.ofPath? p = none then [.nothingOwed p]
  else []

def examine (read : Reader) (exemptions : Exemptions) (p : Path) : Examination :=
  match read.text p with
  | .error fault => ⟨[], .error ⟨p, fault⟩⟩
  | .ok content =>
      let verdict := Verdict.of exemptions p content
      ⟨remarks exemptions p ++ [.judged p verdict], .ok verdict⟩

theorem examine_outcome_eq_error_iff {read : Reader} {exemptions : Exemptions} {p : Path}
    {u : Unreadable} :
    (examine read exemptions p).outcome = .error u ↔ u.path = p ∧ read.text p = .error u.cause := by
  unfold examine
  cases read.text p with
  | error fault =>
      cases u
      simp only [Except.error.injEq, Unreadable.mk.injEq]
      exact ⟨fun h => ⟨h.1.symm, h.2⟩, fun h => ⟨h.1.symm, h.2⟩⟩
  | ok content => simp

theorem examine_outcome_eq_ok_iff {read : Reader} {exemptions : Exemptions} {p : Path}
    {verdict : Verdict} :
    (examine read exemptions p).outcome = .ok verdict ↔
      ∃ content, read.text p = .ok content ∧ Verdict.of exemptions p content = verdict := by
  unfold examine
  cases read.text p <;> simp

end HeaderAudit

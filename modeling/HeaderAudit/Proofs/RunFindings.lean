import HeaderAudit.Run

/-!
# RunFindings — what each argument adds to a run

A run takes its arguments one by one, and what it finds about one of them does not depend on the
others.  This file defines:

* `Run.forwarded` — the arguments that a run looks at;
* `Run.finding` — the finding about one such argument, whether it can be read or not.

`outcome_through_append` says that as long as nothing ends the run, its findings are those of the
forwarded arguments in order, and `outcome_through_of_error` what the run ends with otherwise.
-/

namespace HeaderAudit
namespace Run

def forwarded (everyStyle : Bool) (arguments : List String) : List String :=
  arguments.filter fun argument => forwards everyStyle (Path.ofString argument)

theorem forwarded_cons_of_forwards {everyStyle : Bool} {argument : String} (rest : List String)
    (h : forwards everyStyle (Path.ofString argument)) :
    forwarded everyStyle (argument :: rest) = argument :: forwarded everyStyle rest :=
  List.filter_cons_of_pos h

/-- What a run that keeps going records about a forwarded argument. -/
def finding (read : Reader) (exemptions : Exemptions) (argument : String) : Finding :=
  match (examine read exemptions (Path.ofString argument)).outcome with
  | .ok verdict => Finding.judged argument verdict
  | .error u => Finding.unreadable argument u.cause.message

section

variable {read : Reader} {exemptions : Exemptions} {options : RunOptions} {argument : String}

theorem path_finding : (finding read exemptions argument).path = argument := by
  unfold finding
  split <;> rfl

theorem finding_of_ok {verdict : Verdict}
    (h : (examine read exemptions (Path.ofString argument)).outcome = .ok verdict) :
    finding read exemptions argument = Finding.judged argument verdict := by
  simp [finding, h]

theorem finding_of_error {u : Unreadable}
    (h : (examine read exemptions (Path.ofString argument)).outcome = .error u) :
    finding read exemptions argument = Finding.unreadable argument u.cause.message := by
  simp [finding, h]

/-- The reason in a finding is the cause of the error that the same argument ends a run with. -/
theorem exists_of_unreadable_finding
    (h : (finding read exemptions argument).status = .unreadable) :
    ∃ u, (examine read exemptions (Path.ofString argument)).outcome = .error u ∧
      u.path = Path.ofString argument ∧
      (finding read exemptions argument).error = some u.cause.message := by
  cases houtcome : (examine read exemptions (Path.ofString argument)).outcome with
  | ok verdict =>
      have hstatus := congrArg Finding.status (finding_of_ok houtcome)
      rw [h] at hstatus
      cases hstatus
  | error u =>
      have hpath := (examine_outcome_eq_error_iff.1 houtcome).1
      exact ⟨u, rfl, hpath, congrArg Finding.error (finding_of_error houtcome)⟩

/-- An argument that does not end the run adds its finding in front of those of the rest. -/
theorem outcome_through_cons (rest : List String)
    (hforwards : forwards options.everyStyle (Path.ofString argument))
    (hgoes : options.keepGoing ∨ (finding read exemptions argument).status ≠ .unreadable) :
    (through read exemptions options (argument :: rest)).outcome =
      (through read exemptions options rest).outcome.map
        (finding read exemptions argument :: ·) := by
  -- The run goes on behind a verdict, and behind an error only if it keeps going.
  cases houtcome : (examine read exemptions (Path.ofString argument)).outcome with
  | ok verdict =>
      rw [through_cons_of_ok hforwards houtcome, finding_of_ok houtcome]
      rfl
  | error u =>
      have hkeeps : options.keepGoing = true := by
        rcases hgoes with hkeeps | hreadable
        · exact hkeeps
        · exact absurd (congrArg Finding.status (finding_of_error houtcome)) hreadable
      rw [through_cons_of_error hforwards houtcome, finding_of_error houtcome, if_pos hkeeps]
      rfl

/-- If nothing in the front part ends the run, the run goes on as if the rest were all of it, behind
the findings of the front part. -/
theorem outcome_through_append (front rest : List String)
    (hgoes : options.keepGoing ∨ ∀ argument ∈ forwarded options.everyStyle front,
      (finding read exemptions argument).status ≠ .unreadable) :
    (through read exemptions options (front ++ rest)).outcome =
      (through read exemptions options rest).outcome.map
        ((forwarded options.everyStyle front).map (finding read exemptions) ++ ·) := by
  -- The step is `outcome_through_cons` for a forwarded argument; the others leave no finding.
  induction front with
  | nil =>
      cases h : (through read exemptions options rest).outcome with
      | error u => simp [h, Except.map]
      | ok findings => simp [forwarded, h, Except.map]
  | cons argument front ih =>
      cases hforwards : forwards options.everyStyle (Path.ofString argument) with
      | false =>
          have hsame : forwarded options.everyStyle (argument :: front) =
              forwarded options.everyStyle front := by
            simp [forwarded, hforwards]
          rw [hsame] at hgoes ⊢
          rw [List.cons_append, through_cons_of_not_forwards hforwards]
          exact ih hgoes
      | true =>
          have hcons := forwarded_cons_of_forwards front hforwards
          have hgoes : options.keepGoing ∨
              ∀ other ∈ argument :: forwarded options.everyStyle front,
                (finding read exemptions other).status ≠ .unreadable := by
            simpa only [hcons] using hgoes
          have hfirst := hgoes.imp_right fun h => h argument (by simp)
          have hothers := hgoes.imp_right fun h other hmem =>
            h other (List.mem_cons_of_mem argument hmem)
          calc
            (through read exemptions options (argument :: (front ++ rest))).outcome
                = (through read exemptions options (front ++ rest)).outcome.map
                    (finding read exemptions argument :: ·) :=
                  outcome_through_cons (front ++ rest) hforwards hfirst
            _ = ((through read exemptions options rest).outcome.map
                  ((forwarded options.everyStyle front).map (finding read exemptions) ++ ·)).map
                    (finding read exemptions argument :: ·) :=
                  congrArg (Except.map _) (ih hothers)
            _ = (through read exemptions options rest).outcome.map
                  ((forwarded options.everyStyle (argument :: front)).map
                    (finding read exemptions) ++ ·) := by
                  cases (through read exemptions options rest).outcome with
                  | error u => rfl
                  | ok findings => simp [hcons, Except.map]

/-- A run that nothing ends has one finding for each forwarded argument, in order. -/
theorem outcome_through_eq_ok (arguments : List String)
    (hgoes : options.keepGoing ∨ ∀ argument ∈ forwarded options.everyStyle arguments,
      (finding read exemptions argument).status ≠ .unreadable) :
    (through read exemptions options arguments).outcome =
      .ok ((forwarded options.everyStyle arguments).map (finding read exemptions)) := by
  have hall := outcome_through_append arguments [] hgoes
  simpa [through, Except.map] using hall

/-- Behind arguments that can be read, the first that cannot ends a run that does not keep going,
and nothing behind it matters. -/
theorem outcome_through_of_error {front : List String} {u : Unreadable} (rest : List String)
    (hstops : options.keepGoing = false)
    (hfront : ∀ argument ∈ forwarded options.everyStyle front,
      (finding read exemptions argument).status ≠ .unreadable)
    (hforwards : forwards options.everyStyle (Path.ofString argument))
    (herror : (examine read exemptions (Path.ofString argument)).outcome = .error u) :
    (through read exemptions options (front ++ argument :: rest)).outcome = .error u := by
  have hend : (through read exemptions options (argument :: rest)).outcome = .error u := by
    rw [through_cons_of_error hforwards herror, if_neg (by simp [hstops])]
  rw [outcome_through_append front _ (Or.inr hfront), hend]
  rfl

end

end Run
end HeaderAudit

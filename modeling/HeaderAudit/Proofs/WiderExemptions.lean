import HeaderAudit.Proofs.Endings
import Mathlib.Data.List.Forall2

/-!
# WiderExemptions — the same run under more exemptions

Exempting more files lets some of them off and changes nothing else.  Every file is still read, so
one that cannot be read counts as before.  This file defines:

* `Exemptions.Within` and `Exemptions.Gains` — a list that lacks nothing of another, and the paths
  that only the other covers;
* `Finding.Eased` — what becomes of one finding under the longer list.

`Run.finding_eased` is the step: what a single argument adds.  `Run.outcome_eased` compares whole
runs, and `Run.outcome_under_wider_exemptions` draws the conclusions for failures and exit codes.
-/

namespace HeaderAudit

/-! ## Lists of exemptions -/

namespace Exemptions

/-- The second has the same root, and every route of the first. -/
structure Within (e e' : Exemptions) : Prop where
  root : e.root = e'.root
  routes : ∀ route ∈ e.routes, route ∈ e'.routes

/-- The path is covered by the second and not by the first. -/
def Gains (e e' : Exemptions) (p : Path) : Prop :=
  e.covers p = false ∧ e'.covers p = true

variable {e e' : Exemptions} {p : Path}

theorem Within.covers (h : e.Within e') (hp : e.covers p) : e'.covers p := by
  rcases covers_iff.1 hp with ⟨route, hroute, hlookup⟩
  refine covers_iff.2 ⟨route, h.routes route hroute, ?_⟩
  rw [← hlookup, lookupRoute?, lookupRoute?, h.root]

theorem Within.covers_eq (h : e.Within e') (hp : ¬ e.Gains e' p) : e'.covers p = e.covers p := by
  cases hcovers : e.covers p with
  | true => exact h.covers hcovers
  | false => exact Bool.eq_false_iff.2 fun hcovers' => hp ⟨hcovers, hcovers'⟩

theorem Within.ofPaths {paths paths' : List Path} (h : ∀ p ∈ paths, p ∈ paths') :
    (ofPaths paths).Within (ofPaths paths') where
  root := rfl
  routes := by
    intro route hroute
    rcases mem_routes_ofPaths.1 hroute with ⟨p, hp, rfl⟩
    exact mem_routes_ofPaths.2 ⟨p, h p hp, rfl⟩

theorem Within.under (h : e.Within e') (root : Path) : (e.under root).Within (e'.under root) where
  root := rfl
  routes := h.routes

end Exemptions

/-! ## Verdicts -/

namespace Verdict

variable {e e' : Exemptions} {p : Path}

theorem of_congr (h : e'.covers p = e.covers p) (content : String) :
    of e' p content = of e p content := by
  simp only [of, h]

theorem of_gains (h : e.Gains e' p) (content : String) :
    of e' p content = .exempt ∧ (of e p content = .pass ∨ of e p content = .missing) := by
  refine ⟨of_eq_exempt_iff.2 h.2, ?_⟩
  cases hverdict : of e p content with
  | pass => exact Or.inl rfl
  | missing => exact Or.inr rfl
  | exempt =>
      have hcovers := of_eq_exempt_iff.1 hverdict
      rw [h.1] at hcovers
      cases hcovers

end Verdict

/-! ## Findings -/

namespace Finding

/-- The second finding is the first one, or the file has become exempt. -/
structure Eased (e e' : Exemptions) (f f' : Finding) : Prop where
  path : f'.path = f.path
  style : f'.style = f.style
  error : f'.error = f.error
  kept : ¬ e.Gains e' (Path.ofString f.path) → f'.status = f.status
  eased : e.Gains e' (Path.ofString f.path) →
    (f.status = .unreadable ∧ f'.status = .unreadable) ∨
      f'.status = .judged .exempt ∧ (f.status = .judged .pass ∨ f.status = .judged .missing)

variable {e e' : Exemptions} {f f' : Finding}

/-- Whatever happens to the status, only an exemption can be new. -/
theorem Eased.status (h : Eased e e' f f') :
    f'.status = f.status ∨ f'.status = .judged .exempt ∧ f.status ≠ .unreadable := by
  by_cases hgains : e.Gains e' (Path.ofString f.path)
  · rcases h.eased hgains with ⟨hf, hf'⟩ | ⟨hf', hf | hf⟩
    · exact Or.inl (hf'.trans hf.symm)
    · exact Or.inr ⟨hf', by simp [hf]⟩
    · exact Or.inr ⟨hf', by simp [hf]⟩
  · exact Or.inl (h.kept hgains)

theorem Eased.fails (h : Eased e e' f f') (hf' : f'.fails) : f.fails := by
  rcases h.status with hsame | ⟨hexempt, _⟩
  · rwa [Finding.fails, ← hsame]
  · rw [Finding.fails, hexempt] at hf'
    cases hf'

theorem Eased.unreadable_iff (h : Eased e e' f f') :
    f'.status = .unreadable ↔ f.status = .unreadable := by
  rcases h.status with hsame | ⟨hexempt, hreadable⟩
  · rw [hsame]
  · simp [hexempt, hreadable]

/-- Of an unreadable file the whole finding stays. -/
theorem Eased.eq_of_unreadable (h : Eased e e' f f') (hf : f.status = .unreadable) : f' = f := by
  have hstatus : f'.status = f.status := (h.unreadable_iff.2 hf).trans hf.symm
  cases f
  cases f'
  simp only [mk.injEq]
  exact ⟨h.path, h.style, hstatus, h.error⟩

end Finding

namespace Findings

variable {e e' : Exemptions} {fs fs' : List Finding}

theorem failingPaths_sublist (h : List.Forall₂ (Finding.Eased e e') fs fs') :
    (failingPaths fs').Sublist (failingPaths fs) := by
  induction h with
  | nil => exact .slnil
  | @cons f f' fs fs' hfirst _ ih =>
      rw [failingPaths_cons, failingPaths_cons]
      -- A path that is still listed was listed before; one that was need not be any more.
      cases hfails' : f'.fails with
      | true =>
          rw [if_pos rfl, if_pos (hfirst.fails hfails'), hfirst.path]
          exact ih.cons_cons f.path
      | false =>
          cases f.fails with
          | true => exact ih.cons f.path
          | false => exact ih

theorem unreadable_eq (h : List.Forall₂ (Finding.Eased e e') fs fs') :
    fs'.filter (·.status = .unreadable) = fs.filter (·.status = .unreadable) := by
  induction h with
  | nil => rfl
  | @cons f f' fs fs' hfirst _ ih =>
      -- Either both are unreadable, and then they are the same finding, or neither is.
      by_cases hf : f.status = .unreadable
      · rw [hfirst.eq_of_unreadable hf]
        simp [hf, ih]
      · have hf' : f'.status ≠ .unreadable := fun h => hf (hfirst.unreadable_iff.1 h)
        simp [hf, hf', ih]

theorem exitCode_le (h : (failingPaths fs').Sublist (failingPaths fs)) :
    exitCode fs' ≤ exitCode fs := by
  unfold exitCode
  cases hfs : anyFailure fs with
  | true => split <;> decide
  | false =>
      -- A list without failures has no part that fails.
      have hnone : ¬ anyFailure fs' := by
        intro hany'
        have hany : anyFailure fs := by
          refine (anyFailure_iff fs).2 fun hnil => (anyFailure_iff fs').1 hany' ?_
          rw [hnil] at h
          exact List.sublist_nil.1 h
        rw [hfs] at hany
        cases hany
      rw [if_neg hnone]
      decide

end Findings

/-! ## Runs -/

namespace Run

variable {read : Reader} {e e' : Exemptions} {options : RunOptions} {argument : String}

theorem finding_of_text {content : String} (e : Exemptions)
    (h : read.text (Path.ofString argument) = .ok content) :
    finding read e argument =
      Finding.judged argument (Verdict.of e (Path.ofString argument) content) :=
  finding_of_ok (examine_outcome_eq_ok_iff.2 ⟨content, h, rfl⟩)

theorem finding_of_fault {fault : Fault} (e : Exemptions)
    (h : read.text (Path.ofString argument) = .error fault) :
    finding read e argument = Finding.unreadable argument fault.message :=
  finding_of_error (u := ⟨Path.ofString argument, fault⟩) (examine_outcome_eq_error_iff.2 ⟨rfl, h⟩)

theorem finding_eased (h : e.Within e') (argument : String) :
    (finding read e argument).Eased e e' (finding read e' argument) := by
  -- The file is read before the exemptions are asked, so both findings know the same text.
  cases htext : read.text (Path.ofString argument) with
  | error fault =>
      rw [finding_of_fault e htext, finding_of_fault e' htext]
      exact ⟨rfl, rfl, rfl, fun _ => rfl, fun _ => Or.inl ⟨rfl, rfl⟩⟩
  | ok content =>
      rw [finding_of_text e htext, finding_of_text e' htext]
      refine ⟨rfl, rfl, rfl, ?_, ?_⟩
      · intro hkept
        have hcovers := h.covers_eq hkept
        exact congrArg Status.judged (Verdict.of_congr hcovers content)
      · intro hgains
        rcases Verdict.of_gains hgains content with ⟨hexempt, hbefore⟩
        refine Or.inr ⟨congrArg Status.judged hexempt, ?_⟩
        exact hbefore.imp (congrArg Status.judged) (congrArg Status.judged)

/-- Both runs end at the same unreadable file, or both come to their end. -/
theorem outcome_eased (h : e.Within e') (arguments : List String) :
    (∃ u, (through read e options arguments).outcome = .error u ∧
      (through read e' options arguments).outcome = .error u) ∨
    ∃ fs fs', (through read e options arguments).outcome = .ok fs ∧
      (through read e' options arguments).outcome = .ok fs' ∧
      List.Forall₂ (Finding.Eased e e') fs fs' := by
  -- Whether an argument is looked at and whether it ends the run does not depend on the exemptions.
  induction arguments with
  | nil => exact Or.inr ⟨[], [], rfl, rfl, .nil⟩
  | cons argument rest ih =>
      cases hforwards : forwards options.everyStyle (Path.ofString argument) with
      | false =>
          rw [through_cons_of_not_forwards hforwards, through_cons_of_not_forwards hforwards]
          exact ih
      | true =>
          have heased : (finding read e argument).Eased e e' (finding read e' argument) :=
            finding_eased h argument
          -- Whatever ends the first run here ends the second one too, with the same error.
          by_cases hends : options.keepGoing = false ∧
              (finding read e argument).status = .unreadable
          · rcases status_finding_eq_unreadable_iff.1 hends.2 with ⟨fault, hfault⟩
            have hexamine (e : Exemptions) : (examine read e (Path.ofString argument)).outcome =
                .error ⟨Path.ofString argument, fault⟩ :=
              examine_outcome_eq_error_iff.2 ⟨rfl, hfault⟩
            refine Or.inl ⟨⟨Path.ofString argument, fault⟩, ?_, ?_⟩
            · simp [through_cons_of_error hforwards (hexamine e), hends.1]
            · simp [through_cons_of_error hforwards (hexamine e'), hends.1]
          · -- Both runs go on, so the rest decides, with one more pair of findings in front.
            have hgoes : options.keepGoing ∨ (finding read e argument).status ≠ .unreadable := by
              cases hkeeps : options.keepGoing with
              | true => exact Or.inl rfl
              | false => exact Or.inr fun hunreadable => hends ⟨hkeeps, hunreadable⟩
            have hgoes' : options.keepGoing ∨ (finding read e' argument).status ≠ .unreadable :=
              hgoes.imp_right fun hreadable hunreadable =>
                hreadable (heased.unreadable_iff.1 hunreadable)
            rw [outcome_through_cons rest hforwards hgoes,
              outcome_through_cons rest hforwards hgoes']
            rcases ih with ⟨u, hu, hu'⟩ | ⟨fs, fs', hfs, hfs', hall⟩
            · rw [hu, hu']
              exact Or.inl ⟨u, rfl, rfl⟩
            · rw [hfs, hfs']
              exact Or.inr ⟨_, _, rfl, rfl, .cons heased hall⟩

/-- Under exemptions that lack nothing of the first ones and have the same root, a run breaks off
with the same error, or it comes to its end with a finding for each of the first run's findings.
The two findings have the same path, style and error, and the same status too, unless only the
second exemptions cover the path: then, where the file can be read, the second status is that the
file is exempt, and the first that it passes or that its notice is missing.  So the failing paths
are some of the first run's, in their order, what is said about unreadable files stays as it was,
and the exit code does not rise. -/
theorem outcome_under_wider_exemptions (read : Reader) (options : RunOptions)
    (arguments : List String) (e e' : Exemptions) (h : e.Within e') :
    (∃ u, (ofArguments read e options arguments).outcome = .error u ∧
      (ofArguments read e' options arguments).outcome = .error u) ∨
    ∃ fs fs', (ofArguments read e options arguments).outcome = .ok fs ∧
      (ofArguments read e' options arguments).outcome = .ok fs' ∧
      List.Forall₂ (Finding.Eased e e') fs fs' ∧
      (Findings.failingPaths fs').Sublist (Findings.failingPaths fs) ∧
      fs'.filter (·.status = .unreadable) = fs.filter (·.status = .unreadable) ∧
      Findings.exitCode fs' ≤ Findings.exitCode fs := by
  rw [outcome_ofArguments, outcome_ofArguments]
  rcases outcome_eased h arguments with hends | ⟨fs, fs', hfs, hfs', hall⟩
  · exact Or.inl hends
  · have hfailing := Findings.failingPaths_sublist hall
    exact Or.inr ⟨fs, fs', hfs, hfs', hall, hfailing, Findings.unreadable_eq hall,
      Findings.exitCode_le hfailing⟩

/-- A script that becomes exempt under its absolute name, and one that is missing either way. -/
theorem outcome_under_exempt_script :
    let e := (Exemptions.ofPaths []).under (Path.ofString "/")
    let e' := (Exemptions.ofPaths [Path.ofString "a.ts"]).under (Path.ofString "/")
    e.Within e' ∧ e.Gains e' (Path.ofString "/a.ts") ∧
      ¬ e.Gains e' (Path.ofString "gone.ts") ∧
      ∃ fs fs', (ofArguments (oneScript.read []) e ⟨false, true⟩ ["/a.ts", "gone.ts"]).outcome =
          .ok fs ∧
        (ofArguments (oneScript.read []) e' ⟨false, true⟩ ["/a.ts", "gone.ts"]).outcome = .ok fs' ∧
        List.Forall₂ (Finding.Eased e e') fs fs' ∧
        (Findings.failingPaths fs').Sublist (Findings.failingPaths fs) := by
  intro e e'
  have hwithin : e.Within e' := (Exemptions.Within.ofPaths (by simp)).under (Path.ofString "/")
  refine ⟨hwithin, ⟨rfl, rfl⟩, fun hgains => Bool.noConfusion hgains.2, ?_⟩
  rcases outcome_under_wider_exemptions (oneScript.read []) ⟨false, true⟩ ["/a.ts", "gone.ts"] e e'
    hwithin with ⟨u, hu, _⟩ | ⟨fs, fs', hfs, hfs', hall, hfailing, _, _⟩
  · rw [outcome_ofArguments, outcome_through_eq_ok _ (Or.inl rfl)] at hu
    cases hu
  · exact ⟨fs, fs', hfs, hfs', hall, hfailing⟩

end Run
end HeaderAudit

import HeaderAudit.Proofs.Effects
import HeaderAudit.Proofs.RunFindings
import HeaderAudit.Proofs.Tallies
import HeaderAudit.Proofs.WrittenFile

/-!
# Endings — how an invocation can end

An invocation is refused, has no working directory, breaks off at a file that cannot be read, cannot
print the failing paths, comes to its end, or comes to its end and cannot store its report.  This
file defines:

* `Work.Aborts` — some file that is looked at cannot be read, and the run does not go on without it;
* `Work.findings` — what there is to be found about the files that are looked at.

`Work.exists_outcome_eq_error` and `Work.outcome_eq_ok` say which of the two outcomes a run has.
`effect_by_ending` gives the exit code, standard output and disk for each of these endings.
-/

namespace HeaderAudit

/-! ## Outcomes of a run -/

namespace Run

variable {read : Reader} {exemptions : Exemptions} {options : RunOptions}
  {arguments : List String} {argument : String}

/-- The finding is that a file cannot be read exactly where reading it as text fails. -/
theorem status_finding_eq_unreadable_iff :
    (finding read exemptions argument).status = .unreadable ↔
      ∃ fault, read.text (Path.ofString argument) = .error fault := by
  cases houtcome : (examine read exemptions (Path.ofString argument)).outcome with
  | ok verdict =>
      rcases examine_outcome_eq_ok_iff.1 houtcome with ⟨content, hcontent, _⟩
      simp [finding_of_ok houtcome, Finding.judged, Finding.make, hcontent]
  | error u =>
      have hfault := (examine_outcome_eq_error_iff.1 houtcome).2
      simp [finding_of_error houtcome, Finding.unreadable, Finding.make, hfault]

/-- One file that cannot be read is enough, wherever it stands among the arguments. -/
theorem exists_outcome_eq_error (hstops : options.keepGoing = false)
    (hargument : argument ∈ forwarded options.everyStyle arguments)
    (hunreadable : (finding read exemptions argument).status = .unreadable) :
    ∃ u, (through read exemptions options arguments).outcome = .error u := by
  -- Either an argument in front already ends the run, or the run comes to the unreadable one.
  induction arguments with
  | nil => simp [forwarded] at hargument
  | cons first rest ih =>
      cases hforwards : forwards options.everyStyle (Path.ofString first) with
      | false =>
          have hrest : argument ∈ forwarded options.everyStyle rest := by
            simpa [forwarded, hforwards] using hargument
          rcases ih hrest with ⟨u, hu⟩
          refine ⟨u, ?_⟩
          rw [through_cons_of_not_forwards hforwards]
          exact hu
      | true =>
          by_cases hfirst : (finding read exemptions first).status = .unreadable
          · rcases exists_of_unreadable_finding hfirst with ⟨u, hu, _, _⟩
            refine ⟨u, ?_⟩
            simp [through_cons_of_error hforwards hu, hstops]
          · have hne : argument ≠ first := fun heq => hfirst (heq ▸ hunreadable)
            have hrest : argument ∈ forwarded options.everyStyle rest := by
              simpa [forwarded, hforwards, hne] using hargument
            rcases ih hrest with ⟨u, hu⟩
            refine ⟨u, ?_⟩
            rw [outcome_through_cons rest hforwards (Or.inr hfirst), hu]
            rfl

/-- A run comes to its end exactly if it keeps going or can read all that it looks at, and then it
has one finding for each argument that it looks at, in order. -/
theorem outcome_ofArguments_eq_ok_iff {findings : List Finding} :
    (ofArguments read exemptions options arguments).outcome = .ok findings ↔
      (options.keepGoing ∨ ∀ argument ∈ forwarded options.everyStyle arguments,
        (finding read exemptions argument).status ≠ .unreadable) ∧
      findings = (forwarded options.everyStyle arguments).map (finding read exemptions) := by
  rw [outcome_ofArguments]
  constructor
  · intro h
    have hgoes : options.keepGoing ∨ ∀ argument ∈ forwarded options.everyStyle arguments,
        (finding read exemptions argument).status ≠ .unreadable := by
      cases hkeeps : options.keepGoing with
      | true => exact Or.inl rfl
      | false =>
          refine Or.inr fun argument hargument hunreadable => ?_
          rcases exists_outcome_eq_error hkeeps hargument hunreadable with ⟨u, hu⟩
          rw [hu] at h
          cases h
    rw [outcome_through_eq_ok arguments hgoes] at h
    exact ⟨hgoes, (Except.ok.inj h).symm⟩
  · rintro ⟨hgoes, rfl⟩
    exact outcome_through_eq_ok arguments hgoes

end Run

/-! ## Outcomes of the work -/

namespace Work

/-- A file that is looked at cannot be read as text, and the run is not to go on without it. -/
def Aborts (w : Work) (read : Reader) : Prop :=
  w.options.keepGoing = false ∧
    ∃ argument ∈ Run.forwarded w.options.everyStyle w.paths,
      ∃ fault, read.text (Path.ofString argument) = .error fault

/-- One finding for each path that is looked at, in order. -/
def findings (w : Work) (read : Reader) (exemptions : Exemptions) : List Finding :=
  (Run.forwarded w.options.everyStyle w.paths).map (Run.finding read exemptions)

variable {w : Work} {disk : Disk} {directory : Location}

theorem exists_outcome_eq_error (h : w.Aborts (disk.read directory)) :
    ∃ u, (w.run disk directory).outcome = .error u := by
  rcases h with ⟨hstops, argument, hargument, hfault⟩
  have hunreadable : (Run.finding (disk.read directory)
      (Exemptions.standard.under directory.path) argument).status = .unreadable :=
    Run.status_finding_eq_unreadable_iff.2 hfault
  rcases Run.exists_outcome_eq_error hstops hargument hunreadable with ⟨u, hu⟩
  exact ⟨u, (Run.outcome_ofArguments w.paths).trans hu⟩

theorem outcome_eq_ok (h : ¬ w.Aborts (disk.read directory)) :
    (w.run disk directory).outcome =
      .ok (w.findings (disk.read directory) (Exemptions.standard.under directory.path)) := by
  refine Run.outcome_ofArguments_eq_ok_iff.2 ⟨?_, rfl⟩
  cases hkeeps : w.options.keepGoing with
  | true => exact Or.inl rfl
  | false =>
      apply Or.inr
      intro argument hargument hunreadable
      have hfault := Run.status_finding_eq_unreadable_iff.1 hunreadable
      exact h ⟨hkeeps, argument, hargument, hfault⟩

end Work

/-! ## Failures -/

namespace Findings

theorem exitCode_eq (findings : List Finding) :
    exitCode findings =
      if ∃ f ∈ findings, f.status = .judged .missing ∨ f.status = .unreadable then 1 else 0 := by
  simp [exitCode, anyFailure, failureCode, fails_iff]

/-- Where nothing fails there is nothing to print, and so nothing is refused. -/
theorem refusal?_listing_of_exitCode {findings : List Finding} (h : exitCode findings = 0)
    (output : Outlet) : output.refusal? (listing findings) = none := by
  have hpasses : ¬ anyFailure findings = true := by
    intro hfails
    rw [exitCode, if_pos hfails] at h
    cases h
  have hnone : failingPaths findings = [] :=
    Classical.not_not.1 (mt (anyFailure_iff findings).2 hpasses)
  rw [listing, hnone]
  exact output.refusal?_empty

end Findings

/-! ## All endings -/

/-- An accepted invocation that has no working directory or breaks off at a file leaves exit code 2,
an empty standard output and the disk as it was.  Any other accepted invocation prints the list of
the failing paths.  If standard output refuses the list, which it cannot where nothing fails, the
exit code is 2, only a part in front of the list has arrived, and the disk is as it was.  Otherwise
all of the list is there.  If there is no report to store or it can be stored, the exit code tells
whether anything failed; the report is then the content of the file that its path leads to, and all
other places are as they were.  If it cannot be stored, the exit code is 2 and the disk is as it
was.  A refused invocation leaves exit code 2, an empty standard output and the disk as it was. -/
theorem effect_by_ending (disk : Disk) (directory : Location) (streams : Streams)
    (log : Option Bytes) (words : List Bytes) :
    (∀ s, Settings.parse words = .ok s →
      let read := disk.read directory
      let findings := s.work.findings read (Exemptions.standard.under directory.path)
      let listed := Console.failureList (Findings.failingPaths findings)
      let arrived := streams.output.arriving listed
      let code : UInt8 :=
        if ∃ f ∈ findings, f.status = .judged .missing ∨ f.status = .unreadable then 1 else 0
      let result := effect disk directory streams log words
      (disk.isDirectory directory = false ∨ s.work.Aborts read → result = ⟨2, "", disk⟩) ∧
      (disk.isDirectory directory → ¬ s.work.Aborts read →
        (s.work.run disk directory).outcome = .ok findings ∧
        (code = 0 → streams.output.refusal? listed = none) ∧
        (∀ fault, streams.output.refusal? listed = some fault →
          result = ⟨2, arrived, disk⟩ ∧ arrived.toList <+: listed.toList ∧ arrived ≠ listed) ∧
        (streams.output.refusal? listed = none →
          (s.report = none → result = ⟨code, listed, disk⟩) ∧
          ∀ target, s.report = some target →
            (∀ changed, disk.write directory target (Findings.report findings) = .ok changed →
              result = ⟨code, listed, changed⟩ ∧
              changed.read directory target = .ok (Findings.report findings) ∧
              ∃ place, changed.locate directory target = .ok place ∧
                ∀ other, other ≠ place → changed.at? other = disk.at? other) ∧
            ∀ fault, disk.write directory target (Findings.report findings) = .error fault →
              result = ⟨2, listed, disk⟩))) ∧
    ∀ e, Settings.parse words = .error (.usage e) →
      effect disk directory streams log words = ⟨2, "", disk⟩ := by
  refine ⟨?_, fun e h => effect_of_usage h⟩
  intro s h read findings listed arrived code result
  have hresult : result = s.work.effect disk directory streams.output := effect_of_parse_eq_ok h
  have hcode : Findings.exitCode findings = code := Findings.exitCode_eq findings
  refine ⟨?_, ?_⟩
  -- Without a working directory or a file: nothing is listed, and no report is even begun.
  · intro hbroken
    cases hthere : disk.isDirectory directory with
    | false =>
        rw [hresult, Work.effect, Work.ending_of_lost hthere]
        rfl
    | true =>
        have haborts : s.work.Aborts read := by simpa [hthere] using hbroken
        rcases Work.exists_outcome_eq_error haborts with ⟨u, hu⟩
        rw [hresult, Work.effect, Work.ending_of_error hthere hu]
        rfl
  -- The run comes to its end: the list is printed before the report is tried.
  · intro hthere hgoes
    have hrun : (s.work.run disk directory).outcome = .ok findings := Work.outcome_eq_ok hgoes
    have hreport : s.work.report = s.report := rfl
    refine ⟨hrun, fun hpasses => ?_, ?_, ?_⟩
    · exact Findings.refusal?_listing_of_exitCode (hcode.trans hpasses) streams.output
    · intro fault hrefused
      have hcut : arrived ≠ listed := by
        intro hwhole
        have haccepted : streams.output.refusal? listed = none := Outlet.arriving_eq_iff.1 hwhole
        rw [haccepted] at hrefused
        cases hrefused
      refine ⟨?_, Outlet.arriving_prefix _ _, hcut⟩
      rw [hresult, Work.effect, Work.ending_of_refused hthere hrun hrefused]
      rfl
    · intro hlisted
      have hending : s.work.ending disk directory streams.output =
          s.work.endingOfListed disk directory findings :=
        Work.ending_of_listed hthere hrun hlisted
      rw [hresult, Work.effect, hending, ← hcode]
      refine ⟨?_, ?_⟩
      · intro hnone
        rw [Work.endingOfListed_of_unreported (hreport.trans hnone)]
        rfl
      · intro target hsome
        refine ⟨?_, ?_⟩
        · intro changed hchanged
          rcases Disk.exists_place_of_write hchanged with ⟨place, hplace, _, hothers⟩
          refine ⟨?_, Disk.read_of_write hchanged, place, hplace, hothers⟩
          rw [Work.endingOfListed_of_written (hreport.trans hsome) hchanged]
          rfl
        · intro fault hfault
          rw [Work.endingOfListed_of_unwritten (hreport.trans hsome) hfault]
          rfl

/-- A missing script ends one invocation and is recorded by another, which stores its report.
Nothing is stored where there is room for the banner only, nor by an invocation that has lost its
directory. -/
theorem effect_by_ending_of_missing_script :
    let aborting := ["gone.ts", "--report-json", "r.json"].map Utf8.encode
    let going := ["gone.ts", "--keep-going", "--report-json", "r.json"].map Utf8.encode
    let findings := [Finding.unreadable "gone.ts" Fault.notFound.message]
    let full : Streams := ⟨.limited 25 (.system "No space left on device (os error 28)"), false⟩
    let gone : Location := [Utf8.encode "gone"]
    effect oneScript [] .piped none aborting = ⟨2, "", oneScript⟩ ∧
      (∃ changed, effect oneScript [] .piped none going =
          ⟨1, "Missing license headers\ngone.ts\n", changed⟩ ∧
        changed.read [] (Path.ofString "r.json") = .ok (Findings.report findings)) ∧
      effect oneScript [] full none going = ⟨2, "Missing license headers\ng", oneScript⟩ ∧
      effect oneScript gone .piped none going = ⟨2, "", oneScript⟩ := by
  intro aborting going findings full gone
  have haborting : Settings.parse aborting =
      .ok ⟨["gone.ts"], ⟨false, false⟩, some (Path.ofString "r.json"), 0, false, .auto⟩ := rfl
  have hgoing : Settings.parse going =
      .ok ⟨["gone.ts"], ⟨false, true⟩, some (Path.ofString "r.json"), 0, false, .auto⟩ := rfl
  refine ⟨?_, ?_, ?_, ?_⟩
  · apply ((effect_by_ending oneScript [] .piped none aborting).1 _ haborting).1
    exact Or.inr ⟨rfl, "gone.ts", by decide, .notFound, rfl⟩
  · have hends := ((effect_by_ending oneScript [] .piped none going).1 _ hgoing).2 rfl
      fun haborts => Bool.noConfusion haborts.1
    rcases ((hends.2.2.2 rfl).2 _ rfl).1 _ rfl with ⟨heffect, hread, _⟩
    exact ⟨_, heffect, hread⟩
  · have hends := ((effect_by_ending oneScript [] full none going).1 _ hgoing).2 rfl
      fun haborts => Bool.noConfusion haborts.1
    exact (hends.2.2.1 _ rfl).1
  · exact ((effect_by_ending oneScript gone .piped none going).1 _ hgoing).1 (Or.inl rfl)

end HeaderAudit

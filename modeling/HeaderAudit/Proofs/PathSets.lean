import HeaderAudit.Proofs.Endings

/-!
# PathSets — the order of the paths, and paths that are given twice

An invocation ends at the first file that it cannot read, so what it says depends on the order of
its paths.  Its exit code does not: it asks only whether there is such a file, whether the failing
paths can be printed, and otherwise whether there is a failure.  This file defines:

* `Run.condemns` — the run looks at an argument and finds a failure;
* `Work.condemnedList` — the list of the condemned paths;
* `Work.Breaks` — all that keeps an invocation without a report from its end.

`Run.failingPaths_eq_filter` says that the failing paths are the condemned ones among those given.
`Work.exitCode_effect_eq_two_iff` and `Work.exitCode_effect_eq_one_iff` read the exit code off the
paths, and `exitCode_of_same_paths` compares invocations.
-/

namespace HeaderAudit

/-! ## Condemned arguments -/

namespace Run

/-- The argument is looked at, and its file cannot be read or lacks its notice. -/
def condemns (read : Reader) (exemptions : Exemptions) (everyStyle : Bool) (argument : String) :
    Bool :=
  forwards everyStyle (Path.ofString argument) && (finding read exemptions argument).fails

variable {read : Reader} {exemptions : Exemptions} {everyStyle : Bool} {options : RunOptions}
  {argument : String} {arguments arguments' : List String} {findings : List Finding}

theorem fails_finding_iff :
    (finding read exemptions argument).fails ↔
      (examine read exemptions (Path.ofString argument)).outcome = .ok .missing ∨
        ∃ u, (examine read exemptions (Path.ofString argument)).outcome = .error u := by
  cases houtcome : (examine read exemptions (Path.ofString argument)).outcome with
  | ok verdict =>
      rw [finding_of_ok houtcome]
      cases verdict <;> simp [Finding.fails, Finding.judged, Finding.make, Status.fails,
        Verdict.acceptable]
  | error u =>
      rw [finding_of_error houtcome]
      simp [Finding.fails, Finding.unreadable, Finding.make, Status.fails]

theorem exists_condemned_iff :
    (∃ argument ∈ arguments, condemns read exemptions everyStyle argument) ↔
      ∃ argument ∈ forwarded everyStyle arguments,
        (examine read exemptions (Path.ofString argument)).outcome = .ok .missing ∨
          ∃ u, (examine read exemptions (Path.ofString argument)).outcome = .error u := by
  simp only [condemns, Bool.and_eq_true, fails_finding_iff, forwarded, List.mem_filter, and_assoc]

/-- An examination breaks off exactly where reading does. -/
theorem exists_fault_iff (exemptions : Exemptions) :
    (∃ fault, read.text (Path.ofString argument) = .error fault) ↔
      ∃ u, (examine read exemptions (Path.ofString argument)).outcome = .error u := by
  constructor
  · rintro ⟨fault, hfault⟩
    exact ⟨⟨Path.ofString argument, fault⟩, examine_outcome_eq_error_iff.2 ⟨rfl, hfault⟩⟩
  · rintro ⟨u, hu⟩
    exact ⟨u.cause, (examine_outcome_eq_error_iff.1 hu).2⟩

/-- The failing paths are the condemned ones, in the order in which they are given. -/
theorem failingPaths_eq_filter
    (h : (ofArguments read exemptions options arguments).outcome = .ok findings) :
    Findings.failingPaths findings =
      arguments.filter (condemns read exemptions options.everyStyle) := by
  have hpath : (·.path) ∘ finding read exemptions = id := funext fun argument => path_finding
  rw [(outcome_ofArguments_eq_ok_iff.1 h).2, Findings.failingPaths, List.filter_map, List.map_map,
    hpath, List.map_id, forwarded, List.filter_filter]
  apply List.filter_congr
  intro argument _
  exact Bool.and_comm _ _

/-- Whether a run comes to its end does not depend on the order of its arguments, and if it does,
the findings are in the order of the arguments. -/
theorem exists_outcome_of_perm (hperm : arguments.Perm arguments')
    (h : (ofArguments read exemptions options arguments).outcome = .ok findings) :
    ∃ findings', (ofArguments read exemptions options arguments').outcome = .ok findings' ∧
      findings.Perm findings' := by
  rcases outcome_ofArguments_eq_ok_iff.1 h with ⟨hgoes, rfl⟩
  have hforwarded : (forwarded options.everyStyle arguments).Perm
      (forwarded options.everyStyle arguments') := hperm.filter _
  have hgoes' : options.keepGoing ∨ ∀ argument ∈ forwarded options.everyStyle arguments',
      (finding read exemptions argument).status ≠ .unreadable :=
    hgoes.imp_right fun hreadable argument hargument =>
      hreadable argument (hforwarded.mem_iff.2 hargument)
  exact ⟨_, outcome_ofArguments_eq_ok_iff.2 ⟨hgoes', rfl⟩, hforwarded.map _⟩

theorem anyFailure_findings (arguments : List String) :
    Findings.anyFailure ((forwarded everyStyle arguments).map (finding read exemptions)) =
      arguments.any (condemns read exemptions everyStyle) := by
  rw [Findings.anyFailure, List.any_map, forwarded, List.any_filter]
  rfl

end Run

theorem Findings.failingPaths_perm {findings findings' : List Finding}
    (h : findings.Perm findings') : (failingPaths findings).Perm (failingPaths findings') :=
  (h.filter _).map _

/-! ## Tallies -/

/-- A tally counts findings, so their order does not matter. -/
theorem Tally.ofFindings_perm {findings findings' : List Finding} (h : findings.Perm findings') :
    ofFindings findings = ofFindings findings' := by
  have hcounter (status : Status) :
      (ofFindings findings).counter status = (ofFindings findings').counter status := by
    rw [counter_ofFindings, counter_ofFindings, Findings.count, Findings.count, h.countP_eq]
  have htotal : (ofFindings findings).total = (ofFindings findings').total := by
    rw [total_ofFindings, total_ofFindings, h.length_eq]
  have hpassed := hcounter (.judged .pass)
  have hexcluded := hcounter (.judged .exempt)
  have hmissing := hcounter (.judged .missing)
  have hunreadable := hcounter .unreadable
  -- The five counters are all there is to a tally.
  cases hfirst : ofFindings findings
  cases hsecond : ofFindings findings'
  simp_all [counter]

/-! ## Exit codes -/

namespace Work

/-- The condemned ones among the paths, as a run that comes to its end lists them. -/
def condemnedList (w : Work) (disk : Disk) (directory : Location) : String :=
  Console.failureList (w.paths.filter (Run.condemns (disk.read directory)
    (Exemptions.standard.under directory.path) w.options.everyStyle))

/-- There is no working directory, the run breaks off, or its failing paths cannot be printed. -/
def Breaks (w : Work) (disk : Disk) (directory : Location) (output : Outlet) : Prop :=
  disk.isDirectory directory = false ∨ w.Aborts (disk.read directory) ∨
    ∃ fault, output.refusal? (w.condemnedList disk directory) = some fault

variable {w w' : Work} {disk : Disk} {directory : Location} {output output' : Outlet}

theorem listing_eq_condemnedList {findings : List Finding}
    (h : (w.run disk directory).outcome = .ok findings) :
    Findings.listing findings = w.condemnedList disk directory :=
  congrArg Console.failureList (Run.failingPaths_eq_filter h)

theorem exitCode_effect_of_breaks (h : w.Breaks disk directory output) :
    (w.effect disk directory output).exitCode = 2 := by
  rw [effect]
  -- The three ways to break off come one after another, and the first that applies decides.
  cases hthere : disk.isDirectory directory with
  | false =>
      rw [ending_of_lost hthere]
      rfl
  | true =>
      by_cases haborts : w.Aborts (disk.read directory)
      · rcases exists_outcome_eq_error haborts with ⟨u, hu⟩
        rw [ending_of_error hthere hu]
        rfl
      · have hrun := outcome_eq_ok haborts
        have hrefused : ∃ fault, output.refusal? (w.condemnedList disk directory) = some fault := by
          simpa [Breaks, hthere, haborts] using h
        rcases hrefused with ⟨fault, hfault⟩
        rw [← listing_eq_condemnedList hrun] at hfault
        rw [ending_of_refused hthere hrun hfault]
        rfl

/-- An invocation that nothing keeps from its end lists the condemned paths. -/
theorem ending_of_not_breaks (hreport : w.report = none) (h : ¬ w.Breaks disk directory output) :
    w.ending disk directory output =
      .finished (w.findings (disk.read directory) (Exemptions.standard.under directory.path)) := by
  rcases not_or.1 h with ⟨hnotLost, hothers⟩
  rcases not_or.1 hothers with ⟨hgoes, hlisted⟩
  have hthere : disk.isDirectory directory := by simpa using hnotLost
  have hrun := outcome_eq_ok hgoes
  have hprints : output.refusal? (w.condemnedList disk directory) = none :=
    Option.eq_none_iff_forall_ne_some.2 fun fault hfault => hlisted ⟨fault, hfault⟩
  rw [← listing_eq_condemnedList hrun] at hprints
  rw [ending_of_listed hthere hrun hprints, endingOfListed_of_unreported hreport]

theorem exitCode_effect_of_not_breaks (hreport : w.report = none)
    (h : ¬ w.Breaks disk directory output) :
    (w.effect disk directory output).exitCode =
      if w.paths.any (Run.condemns (disk.read directory)
        (Exemptions.standard.under directory.path) w.options.everyStyle) then 1 else 0 := by
  rw [effect, ending_of_not_breaks hreport h, ← Run.anyFailure_findings]
  rfl

theorem exitCode_effect_eq_two_iff (hreport : w.report = none) :
    (w.effect disk directory output).exitCode = 2 ↔ w.Breaks disk directory output := by
  refine ⟨?_, exitCode_effect_of_breaks⟩
  intro hcode
  apply Classical.byContradiction
  intro hends
  rw [exitCode_effect_of_not_breaks hreport hends] at hcode
  split at hcode <;> cases hcode

theorem exitCode_effect_eq_one_iff (hreport : w.report = none)
    (h : (w.effect disk directory output).exitCode ≠ 2) :
    (w.effect disk directory output).exitCode = 1 ↔
      ∃ path ∈ w.paths, Run.condemns (disk.read directory)
        (Exemptions.standard.under directory.path) w.options.everyStyle path := by
  have hends : ¬ w.Breaks disk directory output := fun hbreaks =>
    h (exitCode_effect_of_breaks hbreaks)
  rw [exitCode_effect_of_not_breaks hreport hends, ← List.any_eq_true]
  split <;> simp_all

theorem exitCode_effect_mem (hreport : w.report = none) :
    (w.effect disk directory output).exitCode ∈ [0, 1, 2] := by
  by_cases hbreaks : w.Breaks disk directory output
  · rw [exitCode_effect_of_breaks hbreaks]
    decide
  · rw [exitCode_effect_of_not_breaks hreport hbreaks]
    split <;> decide

theorem stdout_effect {findings : List Finding} (hreport : w.report = none)
    (h : (w.run disk directory).outcome = .ok findings) (hthere : disk.isDirectory directory)
    (hprints : output.refusal? (w.condemnedList disk directory) = none) :
    (w.effect disk directory output).stdout = w.condemnedList disk directory := by
  have hlisting : Findings.listing findings = w.condemnedList disk directory :=
    listing_eq_condemnedList h
  rw [← hlisting] at hprints
  rw [effect, ending_of_listed hthere h hprints, endingOfListed_of_unreported hreport, ← hlisting]
  rfl

/-! ## The same paths -/

theorem exists_outcome_of_perm {findings : List Finding} (hoptions : w.options = w'.options)
    (hperm : w.paths.Perm w'.paths) (h : (w.run disk directory).outcome = .ok findings) :
    ∃ findings', (w'.run disk directory).outcome = .ok findings' ∧ findings.Perm findings' := by
  rw [run, hoptions] at h
  exact Run.exists_outcome_of_perm hperm h

theorem aborts_congr (hoptions : w.options = w'.options)
    (hpaths : ∀ path, path ∈ w.paths ↔ path ∈ w'.paths) (read : Reader) :
    w.Aborts read ↔ w'.Aborts read := by
  simp only [Aborts, Run.forwarded, List.mem_filter, hoptions, hpaths]

theorem breaks_congr (hoptions : w.options = w'.options)
    (hpaths : ∀ path, path ∈ w.paths ↔ path ∈ w'.paths)
    (hprints : output.refusal? (w.condemnedList disk directory) = none ↔
      output'.refusal? (w'.condemnedList disk directory) = none) :
    w.Breaks disk directory output ↔ w'.Breaks disk directory output' := by
  unfold Breaks
  rw [aborts_congr hoptions hpaths, ← Option.ne_none_iff_exists', ← Option.ne_none_iff_exists',
    ne_eq, ne_eq, hprints]

theorem exitCode_effect_congr (hreport : w.report = none) (hreport' : w'.report = none)
    (hoptions : w.options = w'.options) (hpaths : ∀ path, path ∈ w.paths ↔ path ∈ w'.paths)
    (hprints : output.refusal? (w.condemnedList disk directory) = none ↔
      output'.refusal? (w'.condemnedList disk directory) = none) :
    (w.effect disk directory output).exitCode = (w'.effect disk directory output').exitCode := by
  have hbreaks_iff := breaks_congr hoptions hpaths hprints
  by_cases hbreaks : w.Breaks disk directory output
  · rw [exitCode_effect_of_breaks hbreaks, exitCode_effect_of_breaks (hbreaks_iff.1 hbreaks)]
  · have hends : ¬ w'.Breaks disk directory output' := fun h => hbreaks (hbreaks_iff.2 h)
    have hany (condemned : String → Bool) : w.paths.any condemned = w'.paths.any condemned := by
      apply Bool.eq_iff_iff.2
      simp only [List.any_eq_true, hpaths]
    rw [exitCode_effect_of_not_breaks hreport hbreaks,
      exitCode_effect_of_not_breaks hreport' hends, hoptions, hany]

end Work

/-- The exit code of an accepted invocation without a report is 0, 1 or 2.  It is 2 exactly if there
is no working directory, if the run does not keep going and some file that is looked at cannot be
read, or if the failing paths cannot be printed; and otherwise 1 exactly if some file that is looked
at lacks its notice or cannot be read.  Two invocations with the same options have the same exit
code if the same paths are given to both, in whatever order and however often, where the failing
paths of both can be printed or of neither.  If one gives the other's paths in another order, and
its run comes to its end, so does the other's: with the same findings in another order and the same
tally, and each lists the condemned ones of its own paths in their own order. -/
theorem exitCode_of_same_paths (disk : Disk) (directory : Location) :
    let read := disk.read directory
    let exemptions := Exemptions.standard.under directory.path
    let examined (path : String) := (examine read exemptions (Path.ofString path)).outcome
    let condemned (s : Settings) (path : String) : Bool :=
      Run.condemns read exemptions s.options.everyStyle path
    let listed (s : Settings) : String := Console.failureList (s.paths.filter (condemned s))
    (∀ (streams : Streams) (log : Option Bytes) (words : List Bytes) (s : Settings),
      Settings.parse words = .ok s → s.report = none →
      let looked := Run.forwarded s.options.everyStyle s.paths
      let code := (effect disk directory streams log words).exitCode
      code ∈ [0, 1, 2] ∧
      (code = 2 ↔ disk.isDirectory directory = false ∨
        (s.options.keepGoing = false ∧ ∃ path ∈ looked, ∃ u, examined path = .error u) ∨
        ∃ fault, streams.output.refusal? (listed s) = some fault) ∧
      (code ≠ 2 → (code = 1 ↔
        ∃ path ∈ looked, examined path = .ok .missing ∨ ∃ u, examined path = .error u))) ∧
    ∀ (streams streams' : Streams) (log log' : Option Bytes) (words words' : List Bytes)
      (s s' : Settings),
      Settings.parse words = .ok s → Settings.parse words' = .ok s' →
      s.report = none → s'.report = none → s.options = s'.options →
      let first := effect disk directory streams log words
      let second := effect disk directory streams' log' words'
      let prints := streams.output.refusal? (listed s) = none
      let prints' := streams'.output.refusal? (listed s') = none
      ((∀ path, path ∈ s.paths ↔ path ∈ s'.paths) → (prints ↔ prints') →
        first.exitCode = second.exitCode) ∧
      (s.paths.Perm s'.paths → ∀ findings, (s.work.run disk directory).outcome = .ok findings →
        ∃ findings', (s'.work.run disk directory).outcome = .ok findings' ∧
          findings.Perm findings' ∧ Tally.ofFindings findings = Tally.ofFindings findings' ∧
          Findings.failingPaths findings = s.paths.filter (condemned s) ∧
          Findings.failingPaths findings' = s'.paths.filter (condemned s') ∧
          (Findings.failingPaths findings).Perm (Findings.failingPaths findings') ∧
          (disk.isDirectory directory →
            (prints → first.stdout = listed s) ∧ (prints' → second.stdout = listed s'))) := by
  intro read exemptions examined condemned listed
  refine ⟨?_, ?_⟩
  -- One invocation either breaks off or tells whether a path is condemned.
  · intro streams log words s hparse hreport looked code
    have hcode : code = (s.work.effect disk directory streams.output).exitCode :=
      congrArg Effect.exitCode (effect_of_parse_eq_ok hparse)
    rw [hcode]
    refine ⟨Work.exitCode_effect_mem hreport, ?_, ?_⟩
    · rw [Work.exitCode_effect_eq_two_iff hreport, Work.Breaks, Work.Aborts]
      simp only [Run.exists_fault_iff exemptions]
      rfl
    · intro hne
      rw [Work.exitCode_effect_eq_one_iff hreport hne]
      exact Run.exists_condemned_iff
  · intro streams streams' log log' words words' s s' hparse hparse' hreport hreport' hoptions
      first second prints prints'
    have hfirst : first = s.work.effect disk directory streams.output :=
      effect_of_parse_eq_ok hparse
    have hsecond : second = s'.work.effect disk directory streams'.output :=
      effect_of_parse_eq_ok hparse'
    have hwork : s.work.options = s'.work.options := hoptions
    refine ⟨?_, ?_⟩
    -- Breaking off and condemned paths both depend on the paths as a set.
    · intro hpaths hprints
      rw [hfirst, hsecond]
      exact Work.exitCode_effect_congr hreport hreport' hwork hpaths hprints
    -- The findings are a map over what is looked at, so they are permuted with the paths.
    · intro hperm findings hfindings
      rcases Work.exists_outcome_of_perm hwork hperm hfindings with
        ⟨findings', hfindings', hfindingsPerm⟩
      have hfailing : Findings.failingPaths findings = s.paths.filter (condemned s) :=
        Run.failingPaths_eq_filter hfindings
      have hfailing' : Findings.failingPaths findings' = s'.paths.filter (condemned s') :=
        Run.failingPaths_eq_filter hfindings'
      refine ⟨findings', hfindings', hfindingsPerm, Tally.ofFindings_perm hfindingsPerm, hfailing,
        hfailing', Findings.failingPaths_perm hfindingsPerm, ?_⟩
      intro hthere
      have hlisted : s.work.condemnedList disk directory = listed s := rfl
      have hlisted' : s'.work.condemnedList disk directory = listed s' := rfl
      refine ⟨fun hprint => ?_, fun hprint => ?_⟩
      · rw [hfirst, ← hlisted]
        exact Work.stdout_effect hreport hfindings hthere hprint
      · rw [hsecond, ← hlisted']
        exact Work.stdout_effect hreport' hfindings' hthere hprint

/-- A script and a missing one: a run that breaks off at the missing one, wherever it stands and
however often, and one that goes on; and one that goes on without a working directory. -/
theorem exitCode_of_same_paths_with_missing_script :
    let stopping := ["a.ts", "gone.ts"].map Utf8.encode
    let repeated := ["gone.ts", "-v", "a.ts", "gone.ts"].map Utf8.encode
    let going := ["--keep-going", "a.ts", "gone.ts"].map Utf8.encode
    let turned := ["gone.ts", "--keep-going", "a.ts"].map Utf8.encode
    let w : Work := ⟨["a.ts", "gone.ts"], ⟨false, true⟩, none⟩
    let w' : Work := ⟨["gone.ts", "a.ts"], ⟨false, true⟩, none⟩
    let code (words : List Bytes) : UInt8 := (effect oneScript [] .piped none words).exitCode
    code stopping = 2 ∧ code repeated = 2 ∧ code going = 1 ∧ code turned = 1 ∧
      (effect oneScript [Utf8.encode "gone"] .piped none going).exitCode = 2 ∧
      ∃ findings findings', (w.run oneScript []).outcome = .ok findings ∧
        (w'.run oneScript []).outcome = .ok findings' ∧ findings.Perm findings' ∧
        Tally.ofFindings findings = Tally.ofFindings findings' := by
  intro stopping repeated going turned w w' code
  have hstopping : Settings.parse stopping =
      .ok ⟨["a.ts", "gone.ts"], ⟨false, false⟩, none, 0, false, .auto⟩ := rfl
  have hrepeated : Settings.parse repeated =
      .ok ⟨["gone.ts", "a.ts", "gone.ts"], ⟨false, false⟩, none, 1, false, .auto⟩ := rfl
  have hgoing : Settings.parse going =
      .ok ⟨["a.ts", "gone.ts"], ⟨false, true⟩, none, 0, false, .auto⟩ := rfl
  have hturned : Settings.parse turned =
      .ok ⟨["gone.ts", "a.ts"], ⟨false, true⟩, none, 0, false, .auto⟩ := rfl
  have hmissing : ∃ u, (examine (oneScript.read []) (Exemptions.standard.under (Path.ofString "/"))
      (Path.ofString "gone.ts")).outcome = .error u := ⟨_, rfl⟩
  rcases exitCode_of_same_paths oneScript [] with ⟨hcode, hsame⟩
  have hprints : (none : Option Fault) = none ↔ (none : Option Fault) = none := Iff.rfl
  have hstops := (hcode .piped none stopping _ hstopping rfl).2.1.2
    (Or.inr (Or.inl ⟨rfl, "gone.ts", by decide, hmissing⟩))
  have hrepeats := (hsame .piped .piped none none stopping repeated _ _ hstopping hrepeated rfl rfl
    rfl).1 (by simp) hprints
  have hgoes : code going = 1 := by
    rcases hcode .piped none going _ hgoing rfl with ⟨_, htwo, hone⟩
    refine (hone fun h => ?_).2 ⟨"gone.ts", by decide, Or.inr hmissing⟩
    rcases htwo.1 h with hlost | ⟨hstop, _⟩ | ⟨fault, hrefused⟩
    · cases hlost
    · cases hstop
    · cases hrefused
  have hlost := ((exitCode_of_same_paths oneScript [Utf8.encode "gone"]).1 .piped none going _
    hgoing rfl).2.1.2 (Or.inl rfl)
  rcases hsame .piped .piped none none going turned _ _ hgoing hturned rfl rfl rfl with
    ⟨hturns, hperm⟩
  rcases hperm (List.Perm.swap _ _ _) _ (Run.outcome_ofArguments_eq_ok_iff.2 ⟨Or.inl rfl, rfl⟩) with
    ⟨findings', hfindings', hfindingsPerm, htally, _⟩
  refine ⟨hstops, hrepeats.symm.trans hstops, hgoes, ?_, hlost, ?_⟩
  · exact (hturns (by simp [or_comm]) hprints).symm.trans hgoes
  · exact ⟨_, findings', Run.outcome_ofArguments_eq_ok_iff.2 ⟨Or.inl rfl, rfl⟩, hfindings',
      hfindingsPerm, htally⟩

end HeaderAudit

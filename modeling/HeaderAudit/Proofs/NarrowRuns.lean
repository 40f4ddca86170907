import HeaderAudit.Proofs.Endings
import HeaderAudit.Proofs.Forwarding
import HeaderAudit.Proofs.Independence
import HeaderAudit.Proofs.NoticeSpelling

/-!
# NarrowRuns — the run over one comment style within the run over all

A run looks at files of every comment style, or at those of the slash style only.  The second run is
the first one with fewer arguments: it finds the same about each of them.  This file defines
`IsBareEnding`: an argument whose name is an ending and nothing else.

`forwards_wide_of_narrow` and `hash_of_forwards_wide_only` set the two choices of arguments apart by
the style of a path, with bare endings as the names on the border.  `Run.forwarded_narrow` carries
this over to the arguments, `Run.map_finding_narrow` to the findings, and
`Run.narrow_run_within_wide` compares the runs.
-/

namespace HeaderAudit

open CommentStyle

/-! ## Names on the border -/

/-- The name is an ending of the style with nothing before the dot, as in `dir/.ts`. -/
def IsBareEnding (style : CommentStyle) (argument : String) : Prop :=
  ∃ word, (word, style) ∈ extensions ∧ Path.textName? argument = some ('.' :: word.toList)

variable {argument : String} {style : CommentStyle} {everyStyle : Bool}

theorem forwards_iff_styled_or_bare :
    forwards everyStyle (Path.ofString argument) ↔ ∃ style ∈ forwardedStyles everyStyle,
      ofPath? (Path.ofString argument) = some style ∨ IsBareEnding style argument := by
  simp only [forwards_iff_ofPath?, dotfile_ofString_iff, IsBareEnding]

/-- What stands behind a dot in front of a name is no extension. -/
theorem IsBareEnding.ofPath?_eq_none (h : IsBareEnding style argument) :
    ofPath? (Path.ofString argument) = none := by
  rcases h with ⟨word, hword, htext⟩
  have hname := dotfile_ofString_iff.2 htext
  have hcut : Segment.cutLastDot? (Segment.dot :: Utf8.encode word) = some ([], Utf8.encode word) :=
    Segment.cutLastDot?_append [] (dot_not_mem_encode _ hword)
  simp [ofPath?, Path.extension?, hname, Segment.extension?, hcut]

theorem forwards_wide_of_narrow (h : forwards false (Path.ofString argument)) :
    forwards true (Path.ofString argument) := by
  rcases forwards_iff_styled_or_bare.1 h with ⟨style, _, hcase⟩
  exact forwards_iff_styled_or_bare.2 ⟨style, mem_forwardedStyles.2 (Or.inl rfl), hcase⟩

/-- Only names of the hash style, bare or not, are dropped. -/
theorem hash_of_forwards_wide_only (hwide : forwards true (Path.ofString argument))
    (hnarrow : forwards false (Path.ofString argument) = false) :
    ofPath? (Path.ofString argument) = some .hash ∨ IsBareEnding .hash argument := by
  rcases forwards_iff_styled_or_bare.1 hwide with ⟨style, _, hcase⟩
  cases style with
  | hash => exact hcase
  | slashes =>
      have hforwards : forwards false (Path.ofString argument) :=
        forwards_iff_styled_or_bare.2 ⟨.slashes, mem_forwardedStyles.2 (Or.inr rfl), hcase⟩
      rw [hnarrow] at hforwards
      cases hforwards

theorem ofPath?_ne_hash_of_forwards_narrow (h : forwards false (Path.ofString argument)) :
    ofPath? (Path.ofString argument) ≠ some .hash := by
  rcases forwards_iff_styled_or_bare.1 h with ⟨style, hstyle, hstyled | hbare⟩
  · have hslashes : style = .slashes := by simpa using mem_forwardedStyles.1 hstyle
    simp [hstyled, hslashes]
  · simp [hbare.ofPath?_eq_none]

/-! ## Findings -/

namespace Run

variable {read : Reader} {exemptions : Exemptions} {options : RunOptions} {arguments : List String}
  {findings : List Finding}

/-- Only a path that owes a notice can lack one. -/
theorem style_ne_none_of_missing {f : Finding} (h : f.Records read exemptions argument)
    (hmissing : f.status = .judged .missing) : f.style ≠ none := by
  rw [h.style]
  intro hstyle
  -- Only a judged file can lack a notice, and only the notice of its style.
  cases houtcome : (examine read exemptions (Path.ofString argument)).outcome with
  | error u =>
      have hunreadable := (h.unreadable u houtcome).1
      rw [hmissing] at hunreadable
      cases hunreadable
  | ok verdict =>
      have hjudged := (h.judged verdict houtcome).1
      have hverdict : verdict = .missing := Status.judged.inj (hjudged.symm.trans hmissing)
      rcases examine_outcome_eq_ok_iff.1 houtcome with ⟨content, _, hof⟩
      rcases Verdict.of_eq_missing_iff.1 (hof.trans hverdict) with ⟨_, style, hsome, _⟩
      rw [hstyle] at hsome
      cases hsome

/-- Every finding of a run records an argument that the run looks at. -/
theorem records_of_mem
    (h : (ofArguments read exemptions options arguments).outcome = .ok findings) {f : Finding}
    (hf : f ∈ findings) :
    forwards options.everyStyle (Path.ofString f.path) ∧ f.Records read exemptions f.path := by
  rw [(outcome_ofArguments_eq_ok_iff.1 h).2] at hf
  rcases List.mem_map.1 hf with ⟨argument, hargument, rfl⟩
  rw [path_finding]
  exact ⟨(List.mem_filter.1 hargument).2, records_finding⟩

theorem forwarded_narrow (arguments : List String) :
    forwarded false arguments =
      (forwarded true arguments).filter fun argument =>
        forwards false (Path.ofString argument) := by
  unfold forwarded
  rw [List.filter_filter]
  apply List.filter_congr
  intro argument _
  cases hnarrow : forwards false (Path.ofString argument) with
  | false => rfl
  | true => simp [forwards_wide_of_narrow hnarrow]

/-- The findings about the arguments that both runs look at are the same findings. -/
theorem map_finding_narrow (arguments : List String) :
    (forwarded false arguments).map (finding read exemptions) =
      ((forwarded true arguments).map (finding read exemptions)).filter
        fun f => forwards false (Path.ofString f.path) := by
  rw [forwarded_narrow, List.filter_map]
  simp only [Function.comp_def, path_finding]

/-! ## Runs -/

/-- The run over the slash style ends with those findings of the run over all styles whose path it
looks at itself, in their order: always if both keep going, and otherwise whenever the wide run
comes to its end.  What it drops has the hash style or is a bare ending of the hash style, and
nothing that it keeps has the hash style.  In every run only findings with a style say that the
notice is missing.  So a bare ending that is looked at is recorded as it is examined, without a
style, and never fails for its content. -/
theorem narrow_run_within_wide (read : Reader) (exemptions : Exemptions)
    (arguments : List String) :
    let outcome (everyStyle keepGoing : Bool) :=
      (ofArguments read exemptions ⟨everyStyle, keepGoing⟩ arguments).outcome
    let isNarrow (f : Finding) : Bool := forwards false (Path.ofString f.path)
    (∃ findings, outcome true true = .ok findings ∧
      outcome false true = .ok (findings.filter isNarrow)) ∧
    (∀ findings, outcome true false = .ok findings →
      outcome false false = .ok (findings.filter isNarrow)) ∧
    (∀ keepGoing findings, outcome true keepGoing = .ok findings →
      ∀ f ∈ findings, isNarrow f = false → f.style = some .hash ∨ IsBareEnding .hash f.path) ∧
    (∀ keepGoing findings, outcome false keepGoing = .ok findings →
      ∀ f ∈ findings, f.style ≠ some .hash) ∧
    ∀ everyStyle keepGoing findings, outcome everyStyle keepGoing = .ok findings →
      (∀ f ∈ findings, f.status = .judged .missing → f.style ≠ none) ∧
      ∀ argument ∈ arguments, ∀ style ∈ forwardedStyles everyStyle, IsBareEnding style argument →
        argument ∈ findings.map (·.path) ∧
        ∀ f ∈ findings, f.path = argument →
          f.Records read exemptions argument ∧ f.style = none ∧ f.status ≠ .judged .missing := by
  intro outcome isNarrow
  refine ⟨?_, ?_, ?_, ?_, ?_⟩
  · refine ⟨_, outcome_ofArguments_eq_ok_iff.2 ⟨Or.inl rfl, rfl⟩, ?_⟩
    exact outcome_ofArguments_eq_ok_iff.2 ⟨Or.inl rfl, (map_finding_narrow arguments).symm⟩
  · intro findings hwide
    rcases outcome_ofArguments_eq_ok_iff.1 hwide with ⟨hgoes, rfl⟩
    -- What the wide run can read, the narrow run can read, since it looks at no other arguments.
    refine outcome_ofArguments_eq_ok_iff.2 ⟨?_, (map_finding_narrow arguments).symm⟩
    refine hgoes.imp_right fun hreadable argument hargument => hreadable argument ?_
    rw [forwarded_narrow] at hargument
    exact (List.mem_filter.1 hargument).1
  -- What is dropped is looked at for a style other than the slashes, and there is only one other.
  · intro keepGoing findings h f hf hdropped
    rcases records_of_mem h hf with ⟨hforwards, hrecords⟩
    rw [hrecords.style]
    exact hash_of_forwards_wide_only hforwards hdropped
  · intro keepGoing findings h f hf
    rcases records_of_mem h hf with ⟨hforwards, hrecords⟩
    rw [hrecords.style]
    exact ofPath?_ne_hash_of_forwards_narrow hforwards
  · intro everyStyle keepGoing findings h
    refine ⟨fun f hf => style_ne_none_of_missing (records_of_mem h hf).2, ?_⟩
    intro argument hargument style hforwarded hbare
    refine ⟨?_, ?_⟩
    · have hforwards : forwards everyStyle (Path.ofString argument) :=
        forwards_iff_styled_or_bare.2 ⟨style, hforwarded, Or.inr hbare⟩
      rw [(outcome_ofArguments_eq_ok_iff.1 h).2, List.map_map]
      refine List.mem_map.2 ⟨argument, List.mem_filter.2 ⟨hargument, hforwards⟩, ?_⟩
      exact path_finding
    · rintro f hf rfl
      have hrecords := (records_of_mem h hf).2
      have hnone : f.style = none := hrecords.style.trans hbare.ofPath?_eq_none
      exact ⟨hrecords, hnone, fun hmissing => style_ne_none_of_missing hrecords hmissing hnone⟩

/-- A script, a tool in the hash style, and a bare ending. -/
theorem narrow_run_within_wide_of_three :
    let read := ((oneScript.put [Utf8.encode "b.py"] (.file [])).put [Utf8.encode ".ts"]
      (.file [])).read []
    let exemptions := Exemptions.ofPaths []
    let arguments := ["a.ts", "b.py", ".ts"]
    let wide := arguments.map (finding read exemptions)
    (ofArguments read exemptions ⟨true, false⟩ arguments).outcome = .ok wide ∧
      (ofArguments read exemptions ⟨false, false⟩ arguments).outcome =
        .ok (["a.ts", ".ts"].map (finding read exemptions)) ∧
      ((finding read exemptions "b.py").style = some .hash ∨ IsBareEnding .hash "b.py") ∧
      (finding read exemptions ".ts").style = none ∧
      (finding read exemptions ".ts").status ≠ .judged .missing := by
  intro read exemptions arguments wide
  have hbare : IsBareEnding .slashes ".ts" := ⟨"ts", by decide, by decide⟩
  have hreadable : ∀ argument ∈ arguments,
      (finding read exemptions argument).status ≠ .unreadable := by
    have htexts : ∀ argument ∈ arguments,
        (Reader.text read (Path.ofString argument)).isOk = true := by decide
    intro argument hargument hunreadable
    rcases status_finding_eq_unreadable_iff.1 hunreadable with ⟨fault, hfault⟩
    have htext := htexts argument hargument
    rw [hfault] at htext
    cases htext
  have hwide : (ofArguments read exemptions ⟨true, false⟩ arguments).outcome = .ok wide :=
    outcome_ofArguments_eq_ok_iff.2 ⟨Or.inr hreadable, rfl⟩
  have hkept : wide.filter (fun f => forwards false (Path.ofString f.path)) =
      ["a.ts", ".ts"].map (finding read exemptions) :=
    (map_finding_narrow arguments).symm
  rcases narrow_run_within_wide read exemptions arguments with ⟨_, hnarrow, hdropped, _, hbares⟩
  refine ⟨hwide, ?_, ?_, ?_⟩
  · rw [← hkept]
    exact hnarrow wide hwide
  · have htool : finding read exemptions "b.py" ∈ wide := List.mem_map_of_mem (by decide)
    have hskipped :
        forwards false (Path.ofString (finding read exemptions "b.py").path) = false := by
      rw [path_finding]
      decide
    have hstyle := hdropped false wide hwide _ htool hskipped
    rwa [path_finding] at hstyle
  · have hending : finding read exemptions ".ts" ∈ wide := List.mem_map_of_mem (by decide)
    have hread := (hbares true false wide hwide).2 ".ts" (by decide) .slashes (by decide) hbare
    exact (hread.2 _ hending path_finding).2

end Run
end HeaderAudit

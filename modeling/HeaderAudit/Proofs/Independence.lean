import HeaderAudit.Proofs.Effects
import HeaderAudit.Proofs.Footprint
import HeaderAudit.Proofs.RunFindings
import Mathlib.Data.List.Forall2

/-!
# Independence — every argument for itself

What a run finds about one argument depends neither on the other arguments nor on files that are
not read.  This file defines:

* `Finding.Records` — a finding says of an argument what examining it gives;
* `Run.reached` — the arguments whose files a run reads, up to the one that ends it.

`Run.through_congr` is the comparison of two readers: only what is read for a reached argument
counts.  `Run.each_argument_for_itself` puts this together for whole runs.
-/

namespace HeaderAudit

/-- The finding has the argument as it was given and the style of its path, and for the rest says
what examining the argument gives. -/
structure Finding.Records (read : Reader) (exemptions : Exemptions) (argument : String)
    (f : Finding) : Prop where
  path : f.path = argument
  style : f.style = CommentStyle.ofPath? (Path.ofString argument)
  judged : ∀ verdict, (examine read exemptions (Path.ofString argument)).outcome = .ok verdict →
    f.status = .judged verdict ∧ f.error = none
  unreadable : ∀ u, (examine read exemptions (Path.ofString argument)).outcome = .error u →
    f.status = .unreadable ∧ f.error = some u.cause.message

namespace Run

/-- The arguments whose files are read.  Nothing is read behind a file that ends the run. -/
def reached (read : Reader) (options : RunOptions) : List String → List String
  | [] => []
  | argument :: rest =>
      if forwards options.everyStyle (Path.ofString argument) then
        match read.text (Path.ofString argument) with
        | .ok _ => argument :: reached read options rest
        | .error _ =>
            if options.keepGoing then argument :: reached read options rest else [argument]
      else reached read options rest

variable {read other : Reader} {exemptions : Exemptions} {options : RunOptions}
  {arguments : List String} {argument : String} {u : Unreadable}

theorem records_finding : (finding read exemptions argument).Records read exemptions argument := by
  have hstyle : (finding read exemptions argument).style =
      CommentStyle.ofPath? (Path.ofString argument) := by
    unfold finding
    split <;> rfl
  refine ⟨path_finding, hstyle, ?_, ?_⟩
  · intro verdict hok
    rw [finding_of_ok hok]
    exact ⟨rfl, rfl⟩
  · intro u herror
    rw [finding_of_error herror]
    exact ⟨rfl, rfl⟩

/-! ## Arguments that are skipped -/

theorem outcome_through_forwarded :
    (through read exemptions options (forwarded options.everyStyle arguments)).outcome =
      (through read exemptions options arguments).outcome := by
  -- A skipped argument leaves an event behind and nothing in the outcome.
  induction arguments with
  | nil => rfl
  | cons argument rest ih =>
      cases hforwards : forwards options.everyStyle (Path.ofString argument) with
      | false =>
          rw [through_cons_of_not_forwards hforwards]
          simpa [forwarded, hforwards, after] using ih
      | true =>
          rw [forwarded_cons_of_forwards rest hforwards]
          cases houtcome : (examine read exemptions (Path.ofString argument)).outcome with
          | ok verdict =>
              rw [through_cons_of_ok hforwards houtcome, through_cons_of_ok hforwards houtcome]
              exact congrArg (Except.map _) ih
          | error u =>
              rw [through_cons_of_error hforwards houtcome,
                through_cons_of_error hforwards houtcome]
              split
              · exact congrArg (Except.map _) ih
              · rfl

theorem outcome_of_record_eq_error {f : Finding} {r : Run}
    (h : (r.record f).outcome = .error u) : r.outcome = .error u := by
  unfold record at h
  cases houtcome : r.outcome with
  | ok findings => simp [houtcome, Except.map] at h
  | error v => simpa [houtcome, Except.map] using h

/-- An error of a run is met at its first argument or behind it. -/
theorem outcome_through_cons_eq_error {rest : List String}
    (h : (through read exemptions options (argument :: rest)).outcome = .error u) :
    (through read exemptions options rest).outcome = .error u ∨
      (forwards options.everyStyle (Path.ofString argument) ∧
        (examine read exemptions (Path.ofString argument)).outcome = .error u) := by
  cases hforwards : forwards options.everyStyle (Path.ofString argument) with
  | false =>
      rw [through_cons_of_not_forwards hforwards] at h
      exact Or.inl h
  | true =>
      cases houtcome : (examine read exemptions (Path.ofString argument)).outcome with
      | ok verdict =>
          rw [through_cons_of_ok hforwards houtcome] at h
          exact Or.inl (outcome_of_record_eq_error h)
      | error v =>
          rw [through_cons_of_error hforwards houtcome] at h
          split at h
          · exact Or.inl (outcome_of_record_eq_error h)
          · exact Or.inr ⟨rfl, Except.error.inj h ▸ rfl⟩

/-- What ends a run is one of the arguments that are looked at. -/
theorem exists_of_outcome_eq_error
    (h : (through read exemptions options arguments).outcome = .error u) :
    ∃ argument ∈ forwarded options.everyStyle arguments,
      u.path = Path.ofString argument ∧ read.text u.path = .error u.cause := by
  -- The error is met at the first argument, which is then forwarded, or among the rest.
  induction arguments with
  | nil => cases h
  | cons first rest ih =>
      rcases outcome_through_cons_eq_error h with hrest | ⟨hforwards, hfirst⟩
      · rcases ih hrest with ⟨argument, hargument, hpath, hfault⟩
        refine ⟨argument, ?_, hpath, hfault⟩
        rcases List.mem_filter.1 hargument with ⟨hmem, hforwards⟩
        exact List.mem_filter.2 ⟨List.mem_cons_of_mem first hmem, hforwards⟩
      · rcases examine_outcome_eq_error_iff.1 hfirst with ⟨hpath, hfault⟩
        exact ⟨first, List.mem_filter.2 ⟨List.mem_cons_self, hforwards⟩, hpath, hpath ▸ hfault⟩

/-! ## Files that are not read -/

theorem examine_congr {p : Path} (h : other.text p = read.text p) :
    examine other exemptions p = examine read exemptions p := by
  unfold examine
  rw [h]

theorem reached_prefix :
    reached read options arguments <+: forwarded options.everyStyle arguments := by
  induction arguments with
  | nil => exact List.prefix_refl []
  | cons argument rest ih =>
      cases hforwards : forwards options.everyStyle (Path.ofString argument) with
      | false => simpa [reached, forwarded, hforwards] using ih
      | true =>
          rw [forwarded_cons_of_forwards rest hforwards, reached, if_pos hforwards]
          -- The first argument is reached, and behind it all that the rest reaches, or nothing.
          split
          · exact List.cons_prefix_cons.2 ⟨rfl, ih⟩
          · split
            · exact List.cons_prefix_cons.2 ⟨rfl, ih⟩
            · exact List.cons_prefix_cons.2 ⟨rfl, List.nil_prefix⟩

/-- Readers that agree on what is reached make the same run, with all that is said on the way. -/
theorem through_congr (h : ∀ argument ∈ reached read options arguments,
      other.text (Path.ofString argument) = read.text (Path.ofString argument)) :
    through other exemptions options arguments = through read exemptions options arguments := by
  -- The rest of the arguments matters only where the first one does not end the run.
  induction arguments with
  | nil => rfl
  | cons argument rest ih =>
      cases hforwards : forwards options.everyStyle (Path.ofString argument) with
      | false =>
          have hrest := ih (by simpa [reached, hforwards] using h)
          rw [through_cons_of_not_forwards hforwards, through_cons_of_not_forwards hforwards, hrest]
      | true =>
          have hexamine : examine other exemptions (Path.ofString argument) =
              examine read exemptions (Path.ofString argument) := by
            apply examine_congr
            apply h
            rw [reached, if_pos hforwards]
            split
            · exact List.mem_cons_self
            · split <;> exact List.mem_cons_self
          cases htext : read.text (Path.ofString argument) with
          | ok content =>
              have hrest := ih fun later hlater =>
                h later (by simp [reached, hforwards, htext, hlater])
              simp only [through, hexamine, hrest]
          | error fault =>
              cases hkeeps : options.keepGoing with
              | true =>
                  have hrest := ih fun later hlater =>
                    h later (by simp [reached, hforwards, htext, hkeeps, hlater])
                  simp only [through, hexamine, hrest]
              | false =>
                  have hends : (examine read exemptions (Path.ofString argument)).outcome =
                      .error ⟨Path.ofString argument, fault⟩ :=
                    examine_outcome_eq_error_iff.2 ⟨rfl, htext⟩
                  rw [through_cons_of_error hforwards hends,
                    through_cons_of_error hforwards (hexamine ▸ hends), hexamine]
                  simp [hkeeps]

/-- A run that keeps going has one finding for each argument that is forwarded, in order and once
for each time it is given, and the finding records what examining that argument alone gives; so the
findings about two lists of arguments one behind the other are those about the first and then those
about the second.  Whether a run keeps going or not, its outcome is the same without the arguments
that are not forwarded, and only a forwarded argument can end it.  A run is the same run on two
disks that agree on what is looked at to read the arguments that it reaches, and these are the
forwarded arguments or the first of them. -/
theorem each_argument_for_itself (exemptions : Exemptions) (everyStyle : Bool)
    (arguments : List String) :
    (∀ read : Reader, ∃ findings,
      (ofArguments read exemptions ⟨everyStyle, true⟩ arguments).outcome = .ok findings ∧
      List.Forall₂ (Finding.Records read exemptions) (forwarded everyStyle arguments) findings ∧
      ∀ more, ∃ added,
        (ofArguments read exemptions ⟨everyStyle, true⟩ more).outcome = .ok added ∧
        (ofArguments read exemptions ⟨everyStyle, true⟩ (arguments ++ more)).outcome =
          .ok (findings ++ added)) ∧
    ∀ keepGoing, let options : RunOptions := ⟨everyStyle, keepGoing⟩
      (∀ read : Reader,
        (ofArguments read exemptions options (forwarded everyStyle arguments)).outcome =
          (ofArguments read exemptions options arguments).outcome ∧
        (∀ u, (ofArguments read exemptions options arguments).outcome = .error u →
          ∃ argument ∈ forwarded everyStyle arguments,
            u.path = Path.ofString argument ∧ read.text u.path = .error u.cause) ∧
        reached read options arguments <+: forwarded everyStyle arguments) ∧
      ∀ (disk other : Disk) (directory : Location),
        (∀ argument ∈ reached (disk.read directory) options arguments,
          disk.AgreeAt other (disk.footprint directory (Path.ofString argument))) →
        ofArguments (other.read directory) exemptions options arguments =
          ofArguments (disk.read directory) exemptions options arguments := by
  refine ⟨?_, ?_⟩
  · intro read
    -- A run that keeps going is a map over what is forwarded.
    have hkept (arguments : List String) :
        (ofArguments read exemptions ⟨everyStyle, true⟩ arguments).outcome =
          .ok ((forwarded everyStyle arguments).map (finding read exemptions)) :=
      (outcome_ofArguments arguments).trans (outcome_through_eq_ok arguments (Or.inl rfl))
    refine ⟨_, hkept arguments, ?_, ?_⟩
    · apply List.forall₂_map_right_iff.2
      apply List.forall₂_same.2
      intro argument _
      exact records_finding
    · intro more
      refine ⟨_, hkept more, ?_⟩
      rw [hkept, forwarded, List.filter_append, List.map_append]
      rfl
  · intro keepGoing options
    refine ⟨?_, ?_⟩
    · intro read
      refine ⟨?_, ?_, reached_prefix⟩
      · rw [outcome_ofArguments, outcome_ofArguments]
        exact outcome_through_forwarded
      · intro u hu
        rw [outcome_ofArguments] at hu
        exact exists_of_outcome_eq_error hu
    · intro disk other directory hagree
      have hthrough : through (other.read directory) exemptions options arguments =
          through (disk.read directory) exemptions options arguments := by
        apply through_congr
        intro argument hargument
        have hread := Disk.read_congr (hagree argument hargument)
        simp only [Reader.text, hread]
      simp only [ofArguments, hthrough]

/-- A script that is read, a page that is not, and a disk on which only the page is new. -/
theorem each_argument_for_itself_beside_page :
    let page : Location := [Utf8.encode "page.md"]
    let other := oneScript.put page (.file [0xFF])
    other.read [] (Path.ofString "page.md") ≠ oneScript.read [] (Path.ofString "page.md") ∧
      (∀ argument ∈ reached (oneScript.read []) ⟨false, false⟩ ["page.md", "a.ts"],
        oneScript.AgreeAt other (oneScript.footprint [] (Path.ofString argument))) ∧
      ofArguments (other.read []) (Exemptions.ofPaths []) ⟨false, false⟩ ["page.md", "a.ts"] =
        ofArguments (oneScript.read []) (Exemptions.ofPaths []) ⟨false, false⟩
          ["page.md", "a.ts"] := by
  intro page other
  have hpage : page ∉ oneScript.footprint [] (Path.ofString "a.ts") := by decide
  have hreached : reached (oneScript.read []) ⟨false, false⟩ ["page.md", "a.ts"] = ["a.ts"] := rfl
  have hagree : ∀ argument ∈ reached (oneScript.read []) ⟨false, false⟩ ["page.md", "a.ts"],
      oneScript.AgreeAt other (oneScript.footprint [] (Path.ofString argument)) := by
    rw [hreached]
    intro argument hargument place hplace
    rw [List.mem_singleton.1 hargument] at hplace
    have hne : place ≠ page := fun heq => hpage (heq ▸ hplace)
    rw [Disk.at?_put (by decide), if_neg hne]
  refine ⟨by decide, hagree, ?_⟩
  have hboth := (each_argument_for_itself (Exemptions.ofPaths []) false ["page.md", "a.ts"]).2 false
  exact hboth.2 oneScript other [] hagree

end Run
end HeaderAudit

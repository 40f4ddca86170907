import HeaderAudit.Proofs.Endings
import HeaderAudit.Proofs.FailureListing
import HeaderAudit.Proofs.Loudness
import Mathlib.Data.List.Forall2

/-!
# Warnings — what is said about files that cannot be read

A run that goes on without a file warns of it, and nothing else is worth a warning.  This file
defines:

* `Event.warns` and `Run.warning?` — the events that warn, and the one about an argument;
* `isWarning` and `Transcript.warnings` — the lines with the label of a warning, and those among all
  that an invocation writes;
* `Transcript.stderrLines` — standard error, cut at its line feeds;
* `Finding.WarnedBy` — a line warns of a finding.

`Run.filter_warns_ofArguments` says which warnings a run makes, `warningsAmong_written` that they
pass the log filter of every invocation that is not quiet, and `warnings_one_for_one` that they
stand beside the findings about unreadable files.
-/

namespace HeaderAudit

/-! ## Events that warn -/

def Event.warns (e : Event) : Bool :=
  e.severity = .warn

namespace Run

variable {read : Reader} {exemptions : Exemptions} {options : RunOptions} {argument : String}

/-- The warning about an argument, if its file cannot be read. -/
def warning? (read : Reader) (exemptions : Exemptions) (argument : String) : Option Event :=
  match (examine read exemptions (Path.ofString argument)).outcome with
  | .ok _ => none
  | .error u => some (.unreadable u)

theorem warning?_of_ok {verdict : Verdict}
    (h : (examine read exemptions (Path.ofString argument)).outcome = .ok verdict) :
    warning? read exemptions argument = none := by
  simp [warning?, h]

theorem warning?_of_error {u : Unreadable}
    (h : (examine read exemptions (Path.ofString argument)).outcome = .error u) :
    warning? read exemptions argument = some (.unreadable u) := by
  simp [warning?, h]

/-- To examine a file is not to warn of it. -/
theorem filter_warns_examine (p : Path) :
    (examine read exemptions p).events.filter Event.warns = [] := by
  unfold examine
  cases read.text p with
  | error fault => rfl
  | ok content =>
      simp only [remarks]
      split
      · rfl
      · split <;> rfl

/-- A run that keeps going warns once of each argument that is looked at and cannot be read, in
order.  A run that does not keep going never warns. -/
theorem filter_warns_through (arguments : List String) :
    (through read exemptions options arguments).events.filter Event.warns =
      if options.keepGoing then
        (forwarded options.everyStyle arguments).filterMap (warning? read exemptions)
      else [] := by
  -- The events of an argument stand in front of those of the rest, with one warning among them or
  -- none.
  induction arguments with
  | nil => split <;> rfl
  | cons argument rest ih =>
      cases hforwards : forwards options.everyStyle (Path.ofString argument) with
      | false =>
          have hsame : forwarded options.everyStyle (argument :: rest) =
              forwarded options.everyStyle rest := by
            simp [forwarded, hforwards]
          rw [through_cons_of_not_forwards hforwards, hsame]
          exact ih
      | true =>
          rw [forwarded_cons_of_forwards rest hforwards]
          cases houtcome : (examine read exemptions (Path.ofString argument)).outcome with
          | ok verdict =>
              rw [through_cons_of_ok hforwards houtcome, after, List.filter_append,
                filter_warns_examine, List.filterMap_cons_none (warning?_of_ok houtcome)]
              exact ih
          | error u =>
              rw [through_cons_of_error hforwards houtcome,
                List.filterMap_cons_some (warning?_of_error houtcome)]
              cases hkeeps : options.keepGoing with
              | true =>
                  simp only [hkeeps, if_true] at ih
                  simp only [if_true, after, record, List.filter_append, filter_warns_examine, ih]
                  rfl
              | false =>
                  simp only [Bool.false_eq_true, if_false, filter_warns_examine]

theorem filter_warns_ofArguments (arguments : List String) :
    (ofArguments read exemptions options arguments).events.filter Event.warns =
      if options.keepGoing then
        (forwarded options.everyStyle arguments).filterMap (warning? read exemptions)
      else [] := by
  rw [← filter_warns_through]
  unfold ofArguments
  cases houtcome : (through read exemptions options arguments).outcome with
  | error u => simp only [houtcome]
  | ok findings =>
      simp only [houtcome, List.filter_append]
      exact List.append_nil _

end Run

/-! ## Lines that warn -/

/-- The line has the label of a warning in front. -/
def isWarning (line : String) : Bool :=
  " WARN ".toList.isPrefixOf line.toList

def warningsAmong (messages : List Message) : List String :=
  (messages.map Message.text).filter isWarning

/-- The warnings among the lines on standard error.  A line is what is written at once, also where a
path in it holds a line feed. -/
def Transcript.warnings (t : Transcript) : List String :=
  warningsAmong t.messages

/-- Standard error cut at its line feeds. -/
def Transcript.stderrLines (t : Transcript) : List String :=
  (t.stderr.toList.splitOn '\n').map String.ofList

/-- Where nothing that is written holds a line feed, the warnings are lines of standard error. -/
theorem filter_stderrLines {t : Transcript}
    (h : ∀ message ∈ t.messages, '\n' ∉ message.text.toList) :
    t.stderrLines.filter isWarning = t.warnings := by
  have htexts : ∀ line ∈ t.messages.map Message.text, '\n' ∉ line.toList := by
    intro line hline
    rcases List.mem_map.1 hline with ⟨message, hmessage, rfl⟩
    exact h message hmessage
  have hlines : t.stderrLines = t.messages.map Message.text ++ [""] := by
    rw [Transcript.stderrLines, Transcript.stderr, Console.splitOn_ofLines htexts]
    simp
  have hend : [""].filter isWarning = [] := by decide
  rw [hlines, List.filter_append, hend, List.append_nil]
  rfl

theorem isWarning_line (e : Event) : isWarning e.line = e.warns := by
  unfold Event.line Event.warns
  cases e.severity <;> simp [isWarning, Severity.label, List.isPrefixOf_cons_cons]

theorem warningsAmong_append (first second : List Message) :
    warningsAmong (first ++ second) = warningsAmong first ++ warningsAmong second := by
  simp [warningsAmong]

theorem warningsAmong_events (events : List Event) :
    warningsAmong (events.map .event) = (events.filter Event.warns).map Event.line := by
  have hwarns : isWarning ∘ Event.line = Event.warns := funext isWarning_line
  rw [warningsAmong, List.map_map]
  exact (List.filter_map ..).trans (congrArg (fun p => (events.filter p).map Event.line) hwarns)

/-! ## Lines that do not warn -/

/-- The text begins with a character that is not the blank in front of the label. -/
def Unindented (s : String) : Prop :=
  ∃ c, s.toList.head? = some c ∧ c ≠ ' '

namespace Unindented

variable {s : String}

theorem isWarning_eq_false (h : Unindented s) : isWarning s = false := by
  rcases h with ⟨c, hhead, hc⟩
  rcases List.head?_eq_some_iff.1 hhead with ⟨rest, hchars⟩
  rw [isWarning, hchars]
  simp [List.isPrefixOf_cons_cons, hc.symm]

theorem append (h : Unindented s) (rest : String) : Unindented (s ++ rest) := by
  rcases h with ⟨c, hhead, hc⟩
  refine ⟨c, ?_, hc⟩
  rw [String.toList_append, List.head?_append, hhead]
  rfl

/-- A colour begins with the escape character. -/
theorem paint (h : Unindented s) (colour : Colour) (coloured : Bool) :
    Unindented (colour.paint coloured s) := by
  have hstart : Unindented colour.start := by
    cases colour <;> exact ⟨'\x1b', rfl, by decide⟩
  unfold Colour.paint
  split
  · exact (hstart.append s).append colour.stop
  · exact h

end Unindented

theorem warningsAmong_lines {lines : List String} (h : ∀ line ∈ lines, Unindented line) :
    warningsAmong (lines.map .line) = [] := by
  rw [warningsAmong, List.map_map]
  apply List.filter_eq_nil_iff.2
  intro line hline
  have hmem : line ∈ lines := by simpa [Function.comp_def, Message.text] using hline
  simp [(h line hmem).isWarning_eq_false]

theorem unindented_errorLine (coloured : Bool) (message : String) :
    Unindented (errorLine coloured message) := by
  have hword : Unindented "ERROR:" := ⟨'E', rfl, by decide⟩
  exact ((hword.paint .red coloured).append " ").append message

theorem unindented_tallyLine (coloured : Bool) (t : Tally) :
    Unindented (Console.tallyLine coloured t) := by
  have hword : Unindented "Checked " := ⟨'C', rfl, by decide⟩
  unfold Console.tallyLine
  iterate 11 refine Unindented.append ?_ _
  exact hword

theorem unindented_notice (coloured : Bool) (target : Path) :
    Unindented (Colour.yellow.paint coloured (saveNotice target)) := by
  have hwords : Unindented "Generated JSON report at " := ⟨'G', rfl, by decide⟩
  exact (hwords.append target.display).paint .yellow coloured

/-- How an invocation ends is no warning. -/
theorem unindented_of_mem_lines {mode : Loudness} {coloured : Bool} (ending : Ending) :
    ∀ line ∈ ending.lines mode coloured, Unindented line :=
  ending.forall_mem_lines (unindented_errorLine coloured) (unindented_tallyLine coloured)
    (unindented_notice coloured)

theorem warningsAmong_opening (directory : Path) (s : Settings) :
    warningsAmong (Program.opening directory s) = [] := by
  have hdetail : ∀ line ∈ Console.detail s.mode
      ("Received " ++ toString s.paths.length ++ " paths"), Unindented line := by
    have hword : Unindented "Received " := ⟨'R', rfl, by decide⟩
    intro line hline
    rw [Console.eq_of_mem_detail hline]
    exact (hword.append _).append _
  have hevents : warningsAmong [.event (.resolvingAgainst directory),
      .event (.exemptionCount (Program.exemptions directory).size)] = [] :=
    warningsAmong_events [_, _]
  rw [Program.opening, warningsAmong_append, hevents, warningsAmong_lines hdetail]
  rfl

theorem warningsAmong_said (s : Settings) (disk : Disk) (directory : Location) :
    warningsAmong (s.said disk directory) =
      if disk.isDirectory directory then
        ((s.work.run disk directory).events.filter Event.warns).map Event.line
      else [] := by
  unfold Settings.said
  split
  · rw [Program.progress, warningsAmong_append, warningsAmong_opening, warningsAmong_events,
      List.nil_append]
  · rfl

/-! ## The log filter -/

section

variable {disk : Disk} {directory : Location} {streams : Streams} {log : Option Bytes}
  {words : List Bytes} {s : Settings}

/-- Warnings pass at every level but quiet. -/
theorem lets_of_warns (hlog : Filter.ofValue? log = none) (hquiet : s.quiet = false) {e : Event}
    (h : e.warns) : (logFilter (streams.environment disk directory log) s).lets e := by
  have hseverity : e.severity = .warn := by simpa [Event.warns] using h
  have hlevel : s.level ≠ 0 := by
    intro hzero
    have hquiet' := (Settings.level_eq_zero_iff s).1 hzero
    rw [hquiet] at hquiet'
    cases hquiet'
  have hrank : Severity.warn.rank ≤ (Settings.severity s.quiet s.verbosity).rank := by
    rw [Settings.rank_severity, Severity.rank]
    omega
  rw [logFilter_of_options hlog, lets_ofSeverity, hseverity]
  exact decide_eq_true hrank

theorem warningsAmong_written (hlog : Filter.ofValue? log = none) (hquiet : s.quiet = false)
    (messages : List Message) :
    warningsAmong (Program.written (streams.environment disk directory log) s messages) =
      warningsAmong messages := by
  unfold warningsAmong Program.written
  rw [List.filter_map, List.filter_map, List.filter_filter]
  apply congrArg (List.map Message.text)
  apply List.filter_congr
  intro message _
  -- A line passes, but is no warning; an event that is a warning passes at every verbosity.
  cases message with
  | line text => simp [Message.passes]
  | event e =>
      simp only [Function.comp_apply, Message.text, Message.passes, isWarning_line]
      cases hwarns : e.warns with
      | false => rfl
      | true => simp [lets_of_warns hlog hquiet hwarns]

theorem warnings_execute (hlog : Filter.ofValue? log = none) (hparse : Settings.parse words = .ok s)
    (hquiet : s.quiet = false) :
    (execute disk directory streams log words).1.warnings =
      if disk.isDirectory directory then
        ((s.work.run disk directory).events.filter Event.warns).map Event.line
      else [] := by
  rw [Transcript.warnings, messages_of_parse_eq_ok hparse, warningsAmong_written hlog hquiet,
    warningsAmong_append, warningsAmong_lines (unindented_of_mem_lines _), warningsAmong_said,
    List.append_nil]

end

/-! ## Findings that are warned of -/

/-- The line is the warning about the finding: its path, and its reason, with the control characters
written out that a terminal may act on. -/
def Finding.WarnedBy (f : Finding) (line : String) : Prop :=
  ∃ cause, f.error = some cause ∧
    line = " WARN " ++ Event.escape ("Failed to read file '" ++ f.path ++ "': " ++ cause)

theorem line_unreadable (u : Unreadable) :
    (Event.unreadable u).line =
      " WARN " ++ Event.escape
        ("Failed to read file '" ++ u.path.display ++ "': " ++ u.cause.message) := by
  have hlabel : Severity.warn.label ++ " " = " WARN " := by decide
  rw [Event.line, ← hlabel]
  rfl

theorem Run.forall₂_warnedBy (read : Reader) (exemptions : Exemptions) (arguments : List String) :
    List.Forall₂ Finding.WarnedBy
      ((arguments.map (finding read exemptions)).filter (·.status = .unreadable))
      ((arguments.filterMap (warning? read exemptions)).map Event.line) := by
  induction arguments with
  | nil => exact .nil
  | cons argument rest ih =>
      -- What is read has no warning on one side and no unreadable finding on the other.
      cases houtcome : (examine read exemptions (Path.ofString argument)).outcome with
      | ok verdict =>
          rw [List.map_cons, finding_of_ok houtcome,
            List.filterMap_cons_none (warning?_of_ok houtcome),
            List.filter_cons_of_neg (by simp [Finding.judged, Finding.make])]
          exact ih
      | error u =>
          have hpath : u.path.display = argument := by
            rw [(examine_outcome_eq_error_iff.1 houtcome).1, Path.display_ofString]
          have hwarns : (Finding.unreadable argument u.cause.message).WarnedBy
              (Event.unreadable u).line := by
            rw [line_unreadable, hpath]
            exact ⟨u.cause.message, rfl, rfl⟩
          rw [List.map_cons, finding_of_error houtcome,
            List.filterMap_cons_some (warning?_of_error houtcome),
            List.filter_cons_of_pos (by simp [Finding.unreadable, Finding.make])]
          exact .cons hwarns ih

/-- Of an accepted invocation that does not ask to be quiet, where no valid log filter is set, the
warnings on standard error stand beside the findings about unreadable files, in order and one for
one, if it is to keep going; each has the path and the reason of its finding.  This holds at every
verbosity, whatever the paths are, however often one is given, and also where the failing paths
cannot be printed or the report cannot be stored.  An invocation that is not to keep going writes no
warning, and neither does one that has no working directory, since it looks at no file.  A path may
bring in a line feed; where nothing that is written holds one, the warnings are those lines of
standard error that have the label. -/
theorem warnings_one_for_one (disk : Disk) (directory : Location) (streams : Streams)
    (log : Option Bytes) (words : List Bytes) (s : Settings) (hlog : Filter.ofValue? log = none)
    (hparse : Settings.parse words = .ok s) (hloud : .flag .quiet ∉ items words) :
    let t := (execute disk directory streams log words).1
    (disk.isDirectory directory → s.options.keepGoing = true →
      ∃ findings, (s.work.run disk directory).outcome = .ok findings ∧
        List.Forall₂ Finding.WarnedBy (findings.filter (·.status = .unreadable)) t.warnings) ∧
    (disk.isDirectory directory = false ∨ s.options.keepGoing = false → t.warnings = []) ∧
    ((∀ message ∈ t.messages, '\n' ∉ message.text.toList) →
      t.stderrLines.filter isWarning = t.warnings) := by
  intro t
  have hquiet : s.quiet = false :=
    Bool.eq_false_iff.2 fun hquiet => hloud ((Settings.quiet_iff_mem_items hparse).1 hquiet)
  have hwarnings : t.warnings =
      if disk.isDirectory directory then
        ((s.work.run disk directory).events.filter Event.warns).map Event.line
      else [] :=
    warnings_execute hlog hparse hquiet
  rw [Work.run, Run.filter_warns_ofArguments] at hwarnings
  refine ⟨?_, ?_, filter_stderrLines⟩
  · intro hthere hkeeps
    have hgoes : s.work.options.keepGoing = true := hkeeps
    refine ⟨_, Run.outcome_ofArguments_eq_ok_iff.2 ⟨Or.inl hgoes, rfl⟩, ?_⟩
    rw [hwarnings, if_pos hthere, if_pos hgoes]
    exact Run.forall₂_warnedBy _ _ _
  · rintro (hlost | hstops)
    · rw [hwarnings, if_neg (Bool.eq_false_iff.1 hlost)]
    · have hends : ¬ s.work.options.keepGoing = true := Bool.eq_false_iff.1 hstops
      rw [hwarnings, if_neg hends, List.map_nil, ite_self]

/-- A missing script that is given twice is warned of twice, among the other lines of a verbose run
that goes on; one that breaks off does not warn of it. -/
theorem warnings_one_for_one_of_missing_script :
    let going := ["--keep-going", "gone.ts", "-v", "gone.ts"].map Utf8.encode
    let stopping := ["gone.ts", "-v"].map Utf8.encode
    let warning := " WARN Failed to read file 'gone.ts': No such file or directory (os error 2)"
    let said (words : List Bytes) : Transcript := (execute oneScript [] .piped none words).1
    (said going).warnings = [warning, warning] ∧
      (said going).stderrLines.filter isWarning = [warning, warning] ∧
      (said stopping).warnings = [] := by
  intro going stopping warning said
  rcases warnings_one_for_one oneScript [] .piped none going
    ⟨["gone.ts", "gone.ts"], ⟨false, true⟩, none, 1, false, .auto⟩ rfl rfl (by decide) with
    ⟨hgoing, _, hlines⟩
  rcases hgoing rfl rfl with ⟨findings, hfindings, hwarned⟩
  have hnone : (said stopping).warnings = [] :=
    (warnings_one_for_one oneScript [] .piped none stopping
      ⟨["gone.ts"], ⟨false, false⟩, none, 1, false, .auto⟩ rfl rfl (by decide)).2.1 (Or.inr rfl)
  let gone := Finding.unreadable "gone.ts" Fault.notFound.message
  have hgone : findings.filter (·.status = .unreadable) = [gone, gone] := by
    cases hfindings
    rfl
  have hline : ∀ line, gone.WarnedBy line → line = warning := by
    rintro line ⟨cause, hcause, rfl⟩
    cases hcause
    decide
  have htwo : (said going).warnings = [warning, warning] := by
    rw [hgone] at hwarned
    rcases List.forall₂_cons_left_iff.1 hwarned with ⟨first, rest, hfirst, hrest, hfirstLine⟩
    rcases List.forall₂_cons_left_iff.1 hrest with ⟨second, last, hsecond, hlast, hsecondLine⟩
    rw [hfirstLine, hsecondLine, hline first hfirst, hline second hsecond,
      List.forall₂_nil_left_iff.1 hlast]
  exact ⟨htwo, (hlines (by decide +kernel)).trans htwo, hnone⟩

end HeaderAudit

import HeaderAudit.Proofs.Messages

/-!
# LogPrecedence — the environment decides about the log as a whole or not at all

The log filter is taken from the environment if it finds a valid one there, and otherwise from the
options; it is never put together from both.  Lines that are no part of the log follow the options
in any case.  This file defines:

* `Transcript.logLines` and `Transcript.plainLines` — the two kinds of lines on standard error;
* `Work.events` — all that there is to be logged, whatever the filter is;
* `isLogged` — the label by which a line of the log can be told.

`Filter.ofValue?_eq_none_iff` says which values are valid.  `logLines_of_parse_eq_ok` and
`plainLines_of_parse_eq_ok` say what becomes of each kind of line, and `log_decided_as_a_whole`
compares invocations.
-/

namespace HeaderAudit

/-! ## Valid values -/

namespace Filter

/-- A value is invalid if it is no text, or if a single piece of it is no directive. -/
theorem ofValue?_eq_none_iff {value : Bytes} :
    ofValue? (some value) = none ↔ ∀ text, Utf8.decode? value = some text →
      ∃ piece ∈ text.toList.splitOn ',', piece ≠ [] ∧ Directive.parse? piece = none := by
  rw [ofValue?, Option.bind_some]
  cases hdecode : Utf8.decode? value with
  | none => simp
  | some text => simp [parse?_eq_none_iff, pieces, and_assoc]

end Filter

/-! ## Two kinds of lines -/

namespace Message

def event? : Message → Option Event
  | .event e => some e
  | .line _ => none

def line? : Message → Option String
  | .event _ => none
  | .line s => some s

end Message

/-- The lines of the log, in order. -/
def Transcript.logLines (t : Transcript) : List String :=
  (t.messages.filterMap Message.event?).map Event.line

/-- The lines on standard error that are no part of the log, in order. -/
def Transcript.plainLines (t : Transcript) : List String :=
  t.messages.filterMap Message.line?

/-- What happens in the course of the work, before any filter.  Without a working directory nothing
does. -/
def Work.events (w : Work) (disk : Disk) (directory : Location) : List Event :=
  if disk.isDirectory directory then
    [.resolvingAgainst directory.path,
      .exemptionCount (Exemptions.standard.under directory.path).size] ++
      (w.run disk directory).events
  else []

section

variable {environment : Environment} {s : Settings}

theorem filterMap_event?_written (messages : List Message) :
    (Program.written environment s messages).filterMap Message.event? =
      (messages.filterMap Message.event?).filter (logFilter environment s).lets := by
  rw [Program.written, List.filterMap_filter, List.filter_filterMap]
  apply congrArg (List.filterMap · messages)
  funext message
  cases message with
  | event e =>
      cases hlets : (logFilter environment s).lets e <;>
        simp [Message.passes, Message.event?, Option.filter, hlets]
  | line text => rfl

theorem filterMap_line?_written (messages : List Message) :
    (Program.written environment s messages).filterMap Message.line? =
      messages.filterMap Message.line? := by
  rw [Program.written, List.filterMap_filter]
  apply congrArg (List.filterMap · messages)
  funext message
  cases message with
  | event e => simp [Message.line?]
  | line text => rfl

theorem filterMap_event?_events (events : List Event) :
    (events.map Message.event).filterMap Message.event? = events := by
  rw [List.filterMap_map]
  exact List.filterMap_some

theorem filterMap_event?_lines (lines : List String) :
    (lines.map Message.line).filterMap Message.event? = [] := by
  simp [List.filterMap_map, Function.comp_def, Message.event?]

theorem filterMap_line?_events (events : List Event) :
    (events.map Message.event).filterMap Message.line? = [] := by
  simp [List.filterMap_map, Function.comp_def, Message.line?]

theorem filterMap_line?_lines (lines : List String) :
    (lines.map Message.line).filterMap Message.line? = lines := by
  rw [List.filterMap_map]
  exact List.filterMap_some

end

/-! ## Labels -/

/-- The line has the label of a severity and a blank in front. -/
def isLogged (line : String) : Bool :=
  Severity.all.any fun severity => (severity.label.toList ++ [' ']).isPrefixOf line.toList

theorem isLogged_line (e : Event) : isLogged e.line := by
  have hmem : e.severity ∈ Severity.all := by cases e.severity <;> decide
  refine List.any_eq_true.2 ⟨e.severity, hmem, List.isPrefixOf_iff_prefix.2 ?_⟩
  simp [Event.line]

/-- Labels are all of one length, so what comes behind it does not matter. -/
theorem isLogged_append {word : String} (h : 6 ≤ word.toList.length) (rest : String) :
    isLogged (word ++ rest) = isLogged word := by
  unfold isLogged
  congr 1
  funext severity
  have hlength : (severity.label.toList ++ [' ']).length = 6 := by cases severity <;> decide
  apply Bool.eq_iff_iff.2
  rw [List.isPrefixOf_iff_prefix, List.isPrefixOf_iff_prefix, String.toList_append]
  constructor
  · intro hlabel
    exact List.prefix_of_prefix_length_le hlabel (List.prefix_append _ _) (hlength ▸ h)
  · intro hlabel
    exact hlabel.trans (List.prefix_append _ _)

theorem isLogged_errorLine (coloured : Bool) (message : String) :
    isLogged (errorLine coloured message) = false := by
  have hword : 6 ≤ (Colour.red.paint coloured "ERROR:").toList.length := by
    cases coloured <;> decide
  rw [errorLine, String.append_assoc, isLogged_append hword]
  cases coloured <;> decide

theorem isLogged_tallyLine (coloured : Bool) (t : Tally) :
    isLogged (Console.tallyLine coloured t) = false := by
  unfold Console.tallyLine
  simp only [String.append_assoc]
  rw [isLogged_append (by decide)]
  decide

theorem isLogged_notice (coloured : Bool) (target : Path) :
    isLogged (Colour.yellow.paint coloured (saveNotice target)) = false := by
  unfold Colour.paint saveNotice
  split
  · have hopens : Colour.yellow.start ++ ("Generated JSON report at " ++ target.display) =
        "\x1b[33mGenerated JSON report at " ++ target.display := by
      rw [← String.append_assoc]
      rfl
    rw [hopens, String.append_assoc, isLogged_append (by decide)]
    decide
  · rw [isLogged_append (by decide)]
    decide

/-- How an invocation ends is no part of the log. -/
theorem isLogged_of_mem_lines {mode : Loudness} {coloured : Bool} (ending : Ending) :
    ∀ line ∈ ending.lines mode coloured, isLogged line = false :=
  ending.forall_mem_lines (isLogged_errorLine coloured) (isLogged_tallyLine coloured)
    (isLogged_notice coloured)

/-- In a text of events and lines that have no label, the labels tell which is which. -/
theorem filter_isLogged_text {messages : List Message}
    (h : ∀ line ∈ messages.filterMap Message.line?, isLogged line = false) :
    (messages.map Message.text).filter isLogged =
        (messages.filterMap Message.event?).map Event.line ∧
      (messages.map Message.text).filter (!isLogged ·) = messages.filterMap Message.line? := by
  induction messages with
  | nil => exact ⟨rfl, rfl⟩
  | cons message rest ih =>
      -- A message is kept on one side and dropped on the other, whatever comes after it.
      cases message with
      | event e =>
          rcases ih h with ⟨hlog, hplain⟩
          have hlogged : isLogged (Message.event e).text = true := isLogged_line e
          refine ⟨?_, ?_⟩
          · rw [List.map_cons, List.filter_cons_of_pos hlogged, hlog]
            rfl
          · rw [List.map_cons, List.filter_cons_of_neg (by simp [hlogged]), hplain]
            rfl
      | line text =>
          rcases List.forall_mem_cons.1 h with ⟨hfirst, hothers⟩
          rcases ih hothers with ⟨hlog, hplain⟩
          have hunlogged : isLogged (Message.line text).text = false := hfirst
          refine ⟨?_, ?_⟩
          · rw [List.map_cons, List.filter_cons_of_neg (by simp [hunlogged]), hlog]
            rfl
          · rw [List.map_cons, List.filter_cons_of_pos (by simp [hunlogged]), hplain]
            rfl

/-! ## The lines of an invocation -/

section

variable {disk : Disk} {directory : Location} {streams : Streams} {log log' : Option Bytes}
  {words : List Bytes} {s : Settings}

theorem filterMap_event?_said (s : Settings) (disk : Disk) (directory : Location) :
    (s.said disk directory).filterMap Message.event? = s.work.events disk directory := by
  unfold Settings.said Work.events
  split
  · simp only [Program.progress, Program.opening, List.filterMap_append,
      filterMap_event?_events, filterMap_event?_lines, List.append_nil]
    rfl
  · rfl

theorem logLines_of_parse_eq_ok (h : Settings.parse words = .ok s) :
    (execute disk directory streams log words).1.logLines =
      ((s.work.events disk directory).filter
        (logFilter (streams.environment disk directory log) s).lets).map Event.line := by
  simp only [Transcript.logLines, messages_of_parse_eq_ok h, filterMap_event?_written,
    List.filterMap_append, filterMap_event?_said, filterMap_event?_lines, List.append_nil]

theorem filterMap_line?_said (s : Settings) (disk : Disk) (directory : Location) :
    (s.said disk directory).filterMap Message.line? =
      if disk.isDirectory directory then
        Console.detail s.mode ("Received " ++ toString s.paths.length ++ " paths")
      else [] := by
  unfold Settings.said
  split
  · simp only [Program.progress, Program.opening, List.filterMap_append,
      filterMap_line?_events, filterMap_line?_lines, List.append_nil]
    rfl
  · rfl

/-- Lines that are no part of the log come from the options alone. -/
theorem plainLines_of_parse_eq_ok (h : Settings.parse words = .ok s) :
    (execute disk directory streams log words).1.plainLines =
      (s.said disk directory).filterMap Message.line? ++
        (s.work.ending disk directory streams.output).lines s.mode
          (s.colours.isOn streams.showsColours) := by
  simp only [Transcript.plainLines, messages_of_parse_eq_ok h, filterMap_line?_written,
    List.filterMap_append, filterMap_line?_lines]

theorem isLogged_of_mem_plainLines (h : Settings.parse words = .ok s) :
    ∀ line ∈ (execute disk directory streams log words).1.plainLines, isLogged line = false := by
  intro line hline
  rw [plainLines_of_parse_eq_ok h, List.mem_append, filterMap_line?_said] at hline
  rcases hline with hsaid | hending
  · split at hsaid
    · rw [Console.eq_of_mem_detail hsaid, String.append_assoc, isLogged_append (by decide)]
      decide
    · cases hsaid
  · exact isLogged_of_mem_lines _ line hending

theorem logFilter_of_valid {f : Filter} (h : Filter.ofValue? log = some f) (s : Settings) :
    logFilter (streams.environment disk directory log) s = f := by
  simp [logFilter, Streams.environment, h]

/-- All that the value can change is the filter. -/
theorem execute_congr_log
    (h : ∀ s, logFilter (streams.environment disk directory log) s =
      logFilter (streams.environment disk directory log') s)
    (words : List Bytes) :
    execute disk directory streams log words = execute disk directory streams log' words := by
  cases hparse : Settings.parse words with
  | error reason => simp only [execute, Program.start, hparse]
  | ok s =>
      rw [execute_of_parse_eq_ok hparse, execute_of_parse_eq_ok hparse]
      simp only [Ending.result, Program.written, h s]
      rfl

end

/-! ## Two invocations -/

/-- A value is valid exactly if it is text and each piece between its commas, empty ones apart, is a
directive; so one malformed piece anywhere spoils all of it, and the empty value asks for errors
only.  With an invalid value an invocation says and does what it does without a value.  With a valid
one, accepted invocations that ask for the same to be done write the same log, however they are told
to speak: of all that happens, what the filter of the value lets through.  Their other lines are
those that they write without a value.  The lines of the log are those with the label of a severity
in front. -/
theorem log_decided_as_a_whole (disk : Disk) (directory : Location) (streams : Streams) :
    let said (log : Option Bytes) (words : List Bytes) : Transcript :=
      (execute disk directory streams log words).1
    (∀ value, Filter.ofValue? (some value) = none ↔ ∀ text, Utf8.decode? value = some text →
      ∃ piece ∈ text.toList.splitOn ',', piece ≠ [] ∧ Directive.parse? piece = none) ∧
    Filter.ofValue? (some []) = some (Filter.ofSeverity .error) ∧
    (∀ value words, Filter.ofValue? (some value) = none →
      execute disk directory streams (some value) words =
        execute disk directory streams none words) ∧
    (∀ value f, Filter.ofValue? (some value) = some f →
      (∀ words words' s s', Settings.parse words = .ok s → Settings.parse words' = .ok s' →
        requests words = requests words' →
          (said (some value) words).logLines = (said (some value) words').logLines) ∧
      ∀ words s, Settings.parse words = .ok s →
        (said (some value) words).logLines =
          ((s.work.events disk directory).filter f.lets).map Event.line ∧
        (said (some value) words).plainLines = (said none words).plainLines) ∧
    ∀ log words s, Settings.parse words = .ok s →
      let lines := (said log words).messages.map Message.text
      lines.filter isLogged = (said log words).logLines ∧
        lines.filter (!isLogged ·) = (said log words).plainLines := by
  intro said
  refine ⟨fun value => Filter.ofValue?_eq_none_iff, rfl, ?_, ?_, ?_⟩
  -- An invalid value leaves the filter to the options, as no value does.
  · intro value words hinvalid
    refine execute_congr_log (fun s => ?_) words
    rw [logFilter_of_options hinvalid, logFilter_of_options rfl]
  -- A valid value is the filter, whatever the options are.
  · intro value f hvalid
    have hlog (words : List Bytes) (s : Settings) (h : Settings.parse words = .ok s) :
        (said (some value) words).logLines =
          ((s.work.events disk directory).filter f.lets).map Event.line := by
      rw [← logFilter_of_valid hvalid s]
      exact logLines_of_parse_eq_ok h
    refine ⟨?_, ?_⟩
    · intro words words' s s' h h' hrequests
      have hwork : s.work = s'.work := by
        rw [Settings.work_of_parse_eq_ok h, Settings.work_of_parse_eq_ok h', hrequests]
      rw [hlog words s h, hlog words' s' h', hwork]
    · intro words s h
      refine ⟨hlog words s h, ?_⟩
      exact (plainLines_of_parse_eq_ok h).trans (plainLines_of_parse_eq_ok h).symm
  · intro log words s h
    exact filter_isLogged_text (isLogged_of_mem_plainLines h)

/-- A value that asks for one component is heard by a silent and by a talkative invocation, which
goes on to say what it would say without it; one with a malformed piece behind a good one is not. -/
theorem log_decided_as_a_whole_for_oneScript :
    let said (log : Option Bytes) (words : List Bytes) : Transcript :=
      (execute oneScript [] .piped log words).1
    let driver := Utf8.encode "headercheck::driver=debug"
    let spoiled := Utf8.encode "debug,headercheck=loud"
    let silent := ["-q", "a.ts"].map Utf8.encode
    let talkative := ["a.ts", "-vv"].map Utf8.encode
    (said (some driver) silent).logLines = ["DEBUG Checked 1 of 1 arguments"] ∧
      (said (some driver) talkative).logLines = (said (some driver) silent).logLines ∧
      (said (some driver) talkative).plainLines = (said none talkative).plainLines ∧
      ((said (some driver) talkative).messages.map Message.text).filter isLogged =
        ["DEBUG Checked 1 of 1 arguments"] ∧
      execute oneScript [] .piped (some spoiled) silent =
        execute oneScript [] .piped none silent := by
  intro said driver spoiled silent talkative
  have hdriver : Filter.ofValue? (some driver) =
      some [⟨"headercheck::driver".toList, none, none, some .debug⟩] := by decide
  have hspoiled : Filter.ofValue? (some spoiled) = none := by decide
  have hsilent : Settings.parse silent =
      .ok ⟨["a.ts"], ⟨false, false⟩, none, 0, true, .auto⟩ := rfl
  have htalkative : Settings.parse talkative =
      .ok ⟨["a.ts"], ⟨false, false⟩, none, 2, false, .auto⟩ := rfl
  rcases log_decided_as_a_whole oneScript [] .piped with ⟨_, _, hinvalid, hvalid, hlabels⟩
  rcases hvalid driver _ hdriver with ⟨hsame, heach⟩
  have hlog : (said (some driver) silent).logLines = ["DEBUG Checked 1 of 1 arguments"] := by
    rw [(heach _ _ hsilent).1]
    decide +kernel
  have hboth := hsame _ _ _ _ htalkative hsilent rfl
  refine ⟨hlog, hboth, (heach _ _ htalkative).2, ?_, hinvalid spoiled silent hspoiled⟩
  exact (hlabels _ _ _ htalkative).1.trans (hboth.trans hlog)

end HeaderAudit

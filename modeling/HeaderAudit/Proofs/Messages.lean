import HeaderAudit.Proofs.Effects

/-!
# Messages — what an accepted invocation says

An accepted invocation speaks of its progress, and then says with a line or two how it ended.  Its
events are written where the log filter lets them, its lines always.

`Ending.forall_mem_lines` goes through the lines of an ending kind by kind, and
`messages_of_parse_eq_ok` puts the messages of an invocation together from them.
`logFilter_of_options` and `lets_ofSeverity` say which events pass where the environment does not
decide.
-/

namespace HeaderAudit

/-! ## Endings -/

theorem Console.eq_of_mem_detail {mode : Loudness} {message line : String}
    (h : line ∈ Console.detail mode message) : line = message := by
  unfold Console.detail at h
  split at h
  · exact List.mem_singleton.1 h
  · cases h

theorem Console.eq_of_mem_notice {mode : Loudness} {coloured : Bool}
    {message line : String} (h : line ∈ Console.notice mode coloured message) :
    line = Colour.yellow.paint coloured message := by
  unfold Console.notice at h
  split at h
  · cases h
  · exact List.mem_singleton.1 h

/-- There are three kinds of lines to end with. -/
theorem Ending.forall_mem_lines {mode : Loudness} {coloured : Bool} {P : String → Prop}
    (herror : ∀ message, P (errorLine coloured message))
    (htally : ∀ t, P (Console.tallyLine coloured t))
    (hnotice : ∀ target, P (Colour.yellow.paint coloured (saveNotice target))) (ending : Ending) :
    ∀ line ∈ ending.lines mode coloured, P line := by
  have htold {t : Tally} {line : String} (h : line ∈ Console.tally mode coloured t) : P line :=
    Console.eq_of_mem_detail h ▸ htally t
  intro line hline
  cases ending with
  | broken failure arrived =>
      rw [lines, List.mem_singleton] at hline
      exact hline ▸ herror _
  | finished findings => exact htold hline
  | saved findings target changed =>
      rcases List.mem_append.1 hline with hdetail | hsaved
      · exact htold hdetail
      · exact Console.eq_of_mem_notice hsaved ▸ hnotice target
  | unsaved findings target fault =>
      rcases List.mem_append.1 hline with hdetail | hfailed
      · exact htold hdetail
      · exact List.mem_singleton.1 hfailed ▸ herror _

/-! ## Messages of an invocation -/

section

variable {disk : Disk} {directory : Location} {streams : Streams} {log : Option Bytes}
  {words : List Bytes} {s : Settings}

/-- Which lines come last, and that all messages pass one filter, is the same on every way through
an invocation. -/
theorem messages_of_parse_eq_ok (h : Settings.parse words = .ok s) :
    (execute disk directory streams log words).1.messages =
      Program.written (streams.environment disk directory log) s (s.said disk directory ++
        ((s.work.ending disk directory streams.output).lines s.mode
          (s.colours.isOn streams.showsColours)).map .line) := by
  rw [execute_of_parse_eq_ok h]
  rfl

theorem written_lines (environment : Environment) (s : Settings) (lines : List String) :
    Program.written environment s (lines.map .line) = lines.map .line := by
  apply List.filter_eq_self.2
  intro message hmessage
  rcases List.mem_map.1 hmessage with ⟨line, _, rfl⟩
  rfl

/-- The filter that the options ask for, where the environment has no valid one. -/
theorem logFilter_of_options (h : Filter.ofValue? log = none) (s : Settings) :
    logFilter (streams.environment disk directory log) s =
      Filter.ofSeverity (Settings.severity s.quiet s.verbosity) := by
  simp [logFilter, Streams.environment, h]

theorem lets_ofSeverity (severity : Severity) (e : Event) :
    (Filter.ofSeverity severity).lets e = Threshold.allows (some severity) e.severity := by
  rw [Filter.lets, Filter.threshold_ofSeverity]

end

end HeaderAudit

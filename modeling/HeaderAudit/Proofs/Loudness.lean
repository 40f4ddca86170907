import HeaderAudit.Proofs.Messages
import Mathlib.Data.List.Basic

/-!
# Loudness — how much an invocation says

How loud an invocation is decides which events are logged, and which lines are written besides.  The
two are made from the same options in different ways, and they rise together.  This file defines:

* `Settings.level` — quiet, plain, and one more for each request to be verbose, up to three;
* `Loudness.Below` — what is written in one mode is written in another too.

`messages_sublist_of_level_le` says that whoever listens at a higher level misses nothing of what is
said at a lower one.  `stderr_of_quiet` says that a quiet invocation only ever speaks of an error
that stops it.
-/

namespace HeaderAudit

/-! ## Levels -/

namespace Settings

/-- How much is said, from quiet to all there is. -/
def level (s : Settings) : Nat :=
  if s.quiet then 0 else min s.verbosity 3 + 1

variable {s s' : Settings} {words : List Bytes}

/-- Accepted settings are never quiet and verbose at once. -/
theorem consistent_of_parse_eq_ok (h : parse words = .ok s) : s.manner.Consistent := by
  rcases parse_eq_ok_iff.1 h with ⟨d, _, hfinish⟩
  rcases Draft.finish_eq_ok_iff.1 hfinish with ⟨_, hconsistent, rfl⟩
  exact hconsistent

/-- Each level lets one severity more pass. -/
theorem rank_severity (s : Settings) : (severity s.quiet s.verbosity).rank = s.level + 1 := by
  unfold severity level
  cases s.quiet with
  | true => rfl
  | false =>
      -- From three requests on there is no severity left to add.
      match s.verbosity with
      | 0 => rfl
      | 1 => rfl
      | 2 => rfl
      | n + 3 => simp [Severity.rank]

theorem level_eq_zero_iff (s : Settings) : s.level = 0 ↔ s.quiet := by
  unfold level
  cases s.quiet <;> simp

theorem two_le_level_iff (h : s.manner.Consistent) : 2 ≤ s.level ↔ 0 < s.verbosity := by
  unfold level
  cases hquiet : s.quiet with
  | true =>
      -- Settings that are quiet and verbose at once would stand at the bottom, and are ruled out.
      have hsilent : ¬ 0 < s.verbosity := fun hverbose => h ⟨hquiet, hverbose⟩
      simpa using hsilent
  | false =>
      simp only [Bool.false_eq_true, if_false]
      omega

theorem showsDetails_mode_iff (s : Settings) : s.mode.showsDetails ↔ 0 < s.verbosity := by
  unfold mode
  by_cases hverbose : 0 < s.verbosity
  · simp [hverbose, Loudness.showsDetails]
  · cases s.quiet <;> simp [hverbose, Loudness.showsDetails]

theorem hidesNotices_mode_iff (h : s.manner.Consistent) : s.mode.hidesNotices ↔ s.quiet := by
  unfold mode
  by_cases hverbose : 0 < s.verbosity
  · have hloud : s.quiet = false := Bool.eq_false_iff.2 fun hquiet => h ⟨hquiet, hverbose⟩
    simp [hverbose, hloud, Loudness.hidesNotices]
  · cases s.quiet <;> simp [hverbose, Loudness.hidesNotices]

end Settings

/-- What is written in the first mode is written in the second too. -/
structure Loudness.Below (mode mode' : Loudness) : Prop where
  details : mode.showsDetails → mode'.showsDetails
  notices : mode'.hidesNotices → mode.hidesNotices

theorem Settings.mode_below {s s' : Settings} (h : s.manner.Consistent) (h' : s'.manner.Consistent)
    (hlevel : s.level ≤ s'.level) : s.mode.Below s'.mode where
  details := by
    intro hdetails
    have hlow := (two_le_level_iff h).2 ((showsDetails_mode_iff s).1 hdetails)
    exact (showsDetails_mode_iff s').2 ((two_le_level_iff h').1 (Nat.le_trans hlow hlevel))
  notices := by
    intro hnotices
    have hzero := (level_eq_zero_iff s').2 ((hidesNotices_mode_iff h').1 hnotices)
    refine (hidesNotices_mode_iff h).2 ((level_eq_zero_iff s).1 ?_)
    omega

/-! ## Lines -/

section

variable {mode mode' : Loudness} {coloured : Bool}

theorem Console.detail_sublist (h : mode.Below mode') (message : String) :
    (Console.detail mode message).Sublist (Console.detail mode' message) := by
  unfold Console.detail
  cases hdetails : mode.showsDetails with
  | true => simp [h.details hdetails]
  | false => simp

theorem Console.notice_sublist (h : mode.Below mode') (message : String) :
    (Console.notice mode coloured message).Sublist (Console.notice mode' coloured message) := by
  unfold Console.notice
  cases hnotices : mode'.hidesNotices with
  | true => simp [h.notices hnotices]
  | false => split <;> simp

theorem Ending.lines_sublist (h : mode.Below mode') (coloured : Bool) (ending : Ending) :
    (ending.lines mode coloured).Sublist (ending.lines mode' coloured) := by
  have htally (t : Tally) :
      (Console.tally mode coloured t).Sublist (Console.tally mode' coloured t) :=
    Console.detail_sublist h _
  cases ending with
  | broken failure arrived => exact List.Sublist.refl _
  | finished findings => exact htally _
  | saved findings target changed => exact (htally _).append (Console.notice_sublist h _)
  | unsaved findings target fault => exact (htally _).append (List.Sublist.refl _)

end

/-! ## Louder invocations -/

section

variable {disk : Disk} {directory : Location} {streams : Streams} {log : Option Bytes}
  {words words' : List Bytes} {s s' : Settings}

theorem said_sublist (disk : Disk) (directory : Location) (hwork : s.work = s'.work)
    (hmode : s.mode.Below s'.mode) :
    (s.said disk directory).Sublist (s'.said disk directory) := by
  have hpaths : s.paths = s'.paths := congrArg Work.paths hwork
  unfold Settings.said
  split
  · rw [Program.progress, Program.progress, Program.opening, Program.opening, hpaths, hwork]
    refine List.Sublist.append ?_ (List.Sublist.refl _)
    exact List.Sublist.append (List.Sublist.refl _) ((Console.detail_sublist hmode _).map _)
  · exact List.Sublist.refl _

/-- What passes at a level passes at any higher level. -/
theorem passes_of_level_le (hlog : Filter.ofValue? log = none) (hlevel : s.level ≤ s'.level)
    (message : Message)
    (h : message.passes (logFilter (streams.environment disk directory log) s)) :
    message.passes (logFilter (streams.environment disk directory log) s') := by
  rw [logFilter_of_options hlog] at h ⊢
  cases message with
  | line text => rfl
  | event e =>
      simp only [Message.passes, lets_ofSeverity] at h ⊢
      refine Threshold.allows_mono ?_ h
      simp only [Threshold.rank, Settings.rank_severity]
      omega

theorem messages_sublist_of_level_le (hlog : Filter.ofValue? log = none)
    (hparse : Settings.parse words = .ok s) (hparse' : Settings.parse words' = .ok s')
    (hwork : s.work = s'.work) (hcolours : s.colours = s'.colours) (hlevel : s.level ≤ s'.level) :
    (execute disk directory streams log words).1.messages.Sublist
      (execute disk directory streams log words').1.messages := by
  have hmode : s.mode.Below s'.mode :=
    Settings.mode_below (Settings.consistent_of_parse_eq_ok hparse)
      (Settings.consistent_of_parse_eq_ok hparse') hlevel
  rw [messages_of_parse_eq_ok hparse, messages_of_parse_eq_ok hparse', hwork, hcolours]
  have hlines := (s'.work.ending disk directory streams.output).lines_sublist hmode
    (s'.colours.isOn streams.showsColours)
  -- More is said, and more of it passes; what is left of the messages stays in order.
  have hsaid := (said_sublist disk directory hwork hmode).append (hlines.map Message.line)
  exact (hsaid.filter _).trans (List.monotone_filter_right _ (passes_of_level_le hlog hlevel))

theorem stderr_eq_of_level_eq (hlog : Filter.ofValue? log = none)
    (hparse : Settings.parse words = .ok s) (hparse' : Settings.parse words' = .ok s')
    (hwork : s.work = s'.work) (hcolours : s.colours = s'.colours) (hlevel : s.level = s'.level) :
    (execute disk directory streams log words).1.stderr =
      (execute disk directory streams log words').1.stderr := by
  have hmessages : (execute disk directory streams log words).1.messages =
      (execute disk directory streams log words').1.messages := by
    -- Neither of the two says anything that the other does not say.
    apply List.Sublist.antisymm
    · exact messages_sublist_of_level_le hlog hparse hparse' hwork hcolours
        (Nat.le_of_eq hlevel)
    · exact messages_sublist_of_level_le hlog hparse' hparse hwork.symm hcolours.symm
        (Nat.le_of_eq hlevel.symm)
  rw [Transcript.stderr, hmessages, Transcript.stderr]

end

/-- Of two accepted invocations that ask for the same work in the same colours, where no valid log
filter is set, the louder one says all that the other says, in the same order, and equally loud ones
say the same.  This holds however the invocation ends.  So from quiet over plain to one, two and
three requests to be verbose nothing is lost at any step, and requests beyond the third add
nothing. -/
theorem messages_grow_with_level (disk : Disk) (directory : Location) (streams : Streams)
    (log : Option Bytes) (hlog : Filter.ofValue? log = none) :
    (∀ (words words' : List Bytes) (s s' : Settings),
      Settings.parse words = .ok s → Settings.parse words' = .ok s' →
      s.work = s'.work → s.colours = s'.colours →
        (s.level ≤ s'.level →
          (execute disk directory streams log words).1.messages.Sublist
            (execute disk directory streams log words').1.messages) ∧
        (s.level = s'.level →
          (execute disk directory streams log words).1.stderr =
            (execute disk directory streams log words').1.stderr)) ∧
    ∀ (w : Work) (colours : Option ColourChoice), w.report ≠ some ⟨[]⟩ →
      let said (quiet : Bool) (verbosity : Nat) : Transcript :=
        (execute disk directory streams log
          ((Manner.mk quiet verbosity colours).words ++ w.words)).1
      (said true 0).messages.Sublist (said false 0).messages ∧
        (said false 0).messages.Sublist (said false 1).messages ∧
        (said false 1).messages.Sublist (said false 2).messages ∧
        (said false 2).messages.Sublist (said false 3).messages ∧
        ∀ n, 3 ≤ n → (said false n).stderr = (said false 3).stderr := by
  refine ⟨?_, ?_⟩
  · intro words words' s s' hparse hparse' hwork hcolours
    exact ⟨messages_sublist_of_level_le hlog hparse hparse' hwork hcolours,
      stderr_eq_of_level_eq hlog hparse hparse' hwork hcolours⟩
  · intro w colours hreport said
    have hquiet := Settings.parse_words (m := ⟨true, 0, colours⟩)
      (fun hboth => Nat.lt_irrefl 0 hboth.2) hreport
    have hloud (n : Nat) := Settings.parse_words (m := ⟨false, n, colours⟩)
      (fun hboth => Bool.noConfusion hboth.1) hreport
    have hstep (n : Nat) : (said false n).messages.Sublist (said false (n + 1)).messages := by
      refine messages_sublist_of_level_le hlog (hloud n) (hloud (n + 1)) rfl rfl ?_
      simp only [Settings.level, Bool.false_eq_true, if_false]
      omega
    refine ⟨?_, hstep 0, hstep 1, hstep 2, ?_⟩
    · exact messages_sublist_of_level_le hlog hquiet (hloud 0) rfl rfl (Nat.zero_le _)
    · intro n hn
      -- The level stops at three, long before the limit of the count is reached.
      refine stderr_eq_of_level_eq hlog (hloud n) (hloud 3) rfl rfl ?_
      simp only [Settings.level, Bool.false_eq_true, if_false, Draft.verbosityLimit]
      omega

/-- A run that breaks off, one whose report cannot be stored, and one that comes to its end. -/
theorem messages_grow_for_oneScript :
    let said (words : List String) : Transcript :=
      (execute oneScript [] .piped none (words.map Utf8.encode)).1
    let w : Work := ⟨["a.ts", "gone.ts"], ⟨false, true⟩, none⟩
    (said ["-q", "gone.ts"]).messages.Sublist (said ["gone.ts", "-v"]).messages ∧
      (said ["--report-json", "/", "a.ts"]).messages.Sublist
        (said ["-vv", "--report-json=/", "a.ts"]).messages ∧
      (said ["a.ts", "-vvvv"]).stderr = (said ["-v", "a.ts", "-vv"]).stderr ∧
      (execute oneScript [] .piped none
        ((Manner.mk true 0 none).words ++ w.words)).1.messages.Sublist
          (execute oneScript [] .piped none
            ((Manner.mk false 0 none).words ++ w.words)).1.messages := by
  intro said w
  rcases messages_grow_with_level oneScript [] .piped none rfl with ⟨hany, hchain⟩
  refine ⟨?_, ?_, ?_, (hchain w none (by decide)).1⟩
  · exact (hany _ _ ⟨["gone.ts"], ⟨false, false⟩, none, 0, true, .auto⟩
      ⟨["gone.ts"], ⟨false, false⟩, none, 1, false, .auto⟩ rfl rfl rfl rfl).1 (by decide)
  · exact (hany _ _ ⟨["a.ts"], ⟨false, false⟩, some (Path.ofString "/"), 0, false, .auto⟩
      ⟨["a.ts"], ⟨false, false⟩, some (Path.ofString "/"), 2, false, .auto⟩ rfl rfl rfl rfl).1
      (by decide)
  · exact (hany _ _ ⟨["a.ts"], ⟨false, false⟩, none, 4, false, .auto⟩
      ⟨["a.ts"], ⟨false, false⟩, none, 3, false, .auto⟩ rfl rfl rfl rfl).2 rfl

/-! ## Quiet invocations -/

section

variable {disk : Disk} {directory : Location} {streams : Streams} {log : Option Bytes}
  {words : List Bytes} {s : Settings}

theorem Settings.mode_eq_quiet (h : s.manner.Consistent) (hquiet : s.quiet) : s.mode = .quiet := by
  have hsilent : ¬ 0 < s.verbosity := fun hverbose => h ⟨hquiet, hverbose⟩
  simp [mode, hsilent, hquiet]

/-- No event is as grave as an error. -/
theorem not_lets_error (e : Event) : (Filter.ofSeverity .error).lets e = false := by
  rw [lets_ofSeverity]
  cases e <;> rfl

theorem messages_of_quiet (hlog : Filter.ofValue? log = none)
    (hparse : Settings.parse words = .ok s) (hquiet : s.quiet) :
    (execute disk directory streams log words).1.messages =
      ((s.work.ending disk directory streams.output).lines .quiet
        (s.colours.isOn streams.showsColours)).map .line := by
  have hmode := Settings.mode_eq_quiet (Settings.consistent_of_parse_eq_ok hparse) hquiet
  have hfilter : logFilter (streams.environment disk directory log) s =
      Filter.ofSeverity .error := by
    rw [logFilter_of_options hlog, hquiet]
    rfl
  -- On the way there are only details, which are not shown, and events, none of them an error.
  have hsaid : Program.written (streams.environment disk directory log) s
      (s.said disk directory) = [] := by
    unfold Settings.said
    split
    · simp [Program.written, hfilter, Program.progress, Program.opening, hmode, Console.detail,
        Loudness.showsDetails, Message.passes, not_lets_error]
    · rfl
  rw [messages_of_parse_eq_ok hparse, hmode, Program.written, List.filter_append]
  exact (congrArg (· ++ _) hsaid).trans (written_lines _ s _)

theorem stderr_of_quiet_ending (hlog : Filter.ofValue? log = none)
    (hparse : Settings.parse words = .ok s) (hquiet : s.quiet) :
    (execute disk directory streams log words).1.stderr =
      Console.ofLines ((s.work.ending disk directory streams.output).lines .quiet
        (s.colours.isOn streams.showsColours)) := by
  rw [Transcript.stderr, messages_of_quiet hlog hparse hquiet, List.map_map]
  exact congrArg Console.ofLines (List.map_id _)

theorem ofLines_single (line : String) : Console.ofLines [line] = line ++ "\n" := by
  simp [Console.ofLines]

end

/-- An accepted invocation that asks to be quiet, where no valid log filter is set, writes nothing
to standard error if it comes to its end, whatever cannot be read on the way and whether or not it
stores a report.  If it breaks off at a file, or cannot store its report, the one line on standard
error says so.  The same goes for a working directory that is gone and a standard output that
refuses the failing paths. -/
theorem stderr_of_quiet (disk : Disk) (directory : Location) (streams : Streams)
    (log : Option Bytes) (words : List Bytes) (s : Settings) (hlog : Filter.ofValue? log = none)
    (hparse : Settings.parse words = .ok s) (hquiet : .flag .quiet ∈ items words) :
    let stderr := (execute disk directory streams log words).1.stderr
    let said (failure : Failure) : String :=
      errorLine (s.colours.isOn streams.showsColours) failure.message ++ "\n"
    (disk.isDirectory directory = false → stderr = said (.lost .notFound)) ∧
    (disk.isDirectory directory →
      (∀ u, (s.work.run disk directory).outcome = .error u → stderr = said (.unreadable u)) ∧
      ∀ findings, (s.work.run disk directory).outcome = .ok findings →
        let refusal := streams.output.refusal? (Findings.listing findings)
        (∀ fault, refusal = some fault → stderr = said (.unprinted fault)) ∧
        (refusal = none →
          (s.report = none → stderr = "") ∧
          ∀ target, s.report = some target →
            (∀ changed, disk.write directory target (Findings.report findings) = .ok changed →
              stderr = "") ∧
            ∀ fault, disk.write directory target (Findings.report findings) = .error fault →
              stderr = said (.unsaved target fault))) := by
  intro stderr said
  have hstderr : stderr =
      Console.ofLines ((s.work.ending disk directory streams.output).lines .quiet
        (s.colours.isOn streams.showsColours)) :=
    stderr_of_quiet_ending hlog hparse (Settings.quiet_of_mem_items hparse hquiet)
  have hreport : s.work.report = s.report := rfl
  -- All that is left to a quiet invocation is the error line of its ending, if there is one.
  refine ⟨?_, ?_⟩
  · intro hlost
    rw [hstderr, Work.ending_of_lost hlost]
    exact ofLines_single _
  · intro hthere
    refine ⟨?_, ?_⟩
    · intro u hu
      rw [hstderr, Work.ending_of_error hthere hu]
      exact ofLines_single _
    · intro findings hfindings refusal
      refine ⟨?_, ?_⟩
      · intro fault hrefused
        rw [hstderr, Work.ending_of_refused hthere hfindings hrefused]
        exact ofLines_single _
      · intro hlisted
        rw [hstderr, Work.ending_of_listed hthere hfindings hlisted]
        refine ⟨?_, ?_⟩
        · intro hnone
          rw [Work.endingOfListed_of_unreported (hreport.trans hnone)]
          rfl
        · intro target hsome
          refine ⟨?_, ?_⟩
          · intro changed hchanged
            rw [Work.endingOfListed_of_written (hreport.trans hsome) hchanged]
            rfl
          · intro fault hfault
            rw [Work.endingOfListed_of_unwritten (hreport.trans hsome) hfault]
            exact ofLines_single _

/-- A missing script is recorded without a word by a quiet run that goes on, and is the only thing
that one which breaks off speaks of, also where the log filter is no text.  A directory that is gone
is spoken of in colours where they are shown. -/
theorem stderr_of_quiet_missing_script :
    let going := ["-q", "--keep-going", "gone.ts"].map Utf8.encode
    let aborting := ["gone.ts", "--quiet"].map Utf8.encode
    let terminal : Streams := ⟨.unlimited, true⟩
    (execute oneScript [] .piped none going).1.stderr = "" ∧
      (execute oneScript [] .piped (some [0xFF]) aborting).1.stderr =
        "ERROR: Failed to read file 'gone.ts': No such file or directory (os error 2): " ++
          "No such file or directory (os error 2)\n" ∧
      (execute oneScript [Utf8.encode "gone"] terminal none going).1.stderr =
        "\x1b[31mERROR:\x1b[39m Failed to get current directory: " ++
          "No such file or directory (os error 2)\n" := by
  intro going aborting terminal
  have hgoing (directory : Location) (streams : Streams) :=
    stderr_of_quiet oneScript directory streams none going
      ⟨["gone.ts"], ⟨false, true⟩, none, 0, true, .auto⟩ rfl rfl (by decide)
  have haborting := stderr_of_quiet oneScript [] .piped (some [0xFF]) aborting
    ⟨["gone.ts"], ⟨false, false⟩, none, 0, true, .auto⟩ rfl rfl (by decide)
  refine ⟨(((hgoing [] .piped).2 rfl).2 _ rfl).2 rfl |>.1 rfl, ?_, ?_⟩
  · rw [(haborting.2 rfl).1 ⟨Path.ofString "gone.ts", .notFound⟩ rfl]
    decide +kernel
  · rw [(hgoing [Utf8.encode "gone"] terminal).1 rfl]
    decide +kernel

end HeaderAudit

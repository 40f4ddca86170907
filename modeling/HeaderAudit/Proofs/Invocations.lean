import HeaderAudit.Command.Program
import HeaderAudit.Proofs.Requests

/-!
# Invocations — one way through the program for each way to end

An accepted invocation is broken off before all failing paths are listed, or it lists them and then
ends with or without a report.  How it ends is found out from its work, its disk and the outlet of
its standard output; what it says depends on the rest of its settings and on its environment
besides.  This file defines:

* `Work.run` — the run that is asked for;
* `Ending` and `Work.ending` — how an invocation ends, with what it leaves behind;
* `Settings.said` — what an invocation says before that.

`execute_of_parse_eq_ok` follows the program once, so nothing behind it looks into the program
again.  `Work.ending_of_lost` and the lemmas after it say when an invocation ends in which way.
-/

namespace HeaderAudit

/-- The run that is asked for. -/
def Work.run (w : Work) (disk : Disk) (directory : Location) : Run :=
  Run.ofArguments (disk.read directory) (Exemptions.standard.under directory.path) w.options
    w.paths

/-! ## Endings -/

inductive Ending
  /-- The failing paths are not listed, or not as a whole. -/
  | broken (failure : Failure) (arrived : String)
  | finished (findings : List Finding)
  | saved (findings : List Finding) (target : Path) (changed : Disk)
  | unsaved (findings : List Finding) (target : Path) (fault : Fault)

namespace Ending

def exitCode : Ending → UInt8
  | .broken _ _ => abortedCode
  | .finished findings => Findings.exitCode findings
  | .saved findings _ _ => Findings.exitCode findings
  | .unsaved _ _ _ => abortedCode

def stdout : Ending → String
  | .broken _ arrived => arrived
  | .finished findings => Findings.listing findings
  | .saved findings _ _ => Findings.listing findings
  | .unsaved findings _ _ => Findings.listing findings

/-- Only a report that is stored changes the disk. -/
def disk (before : Disk) : Ending → Disk
  | .broken _ _ => before
  | .finished _ => before
  | .saved _ _ changed => changed
  | .unsaved _ _ _ => before

/-- The summary comes before what is said about the report. -/
def lines (mode : Loudness) (coloured : Bool) : Ending → List String
  | .broken failure _ => [errorLine coloured failure.message]
  | .finished findings => Console.tally mode coloured (Tally.ofFindings findings)
  | .saved findings target _ =>
      Console.tally mode coloured (Tally.ofFindings findings) ++
        Console.notice mode coloured (saveNotice target)
  | .unsaved findings target fault =>
      Console.tally mode coloured (Tally.ofFindings findings) ++
        [errorLine coloured (saveFailure target fault)]

end Ending

namespace Work

/-- The failing paths have been listed. -/
def endingOfListed (w : Work) (disk : Disk) (directory : Location) (findings : List Finding) :
    Ending :=
  match w.report with
  | none => .finished findings
  | some target =>
      match disk.write directory target (Findings.report findings) with
      | .ok changed => .saved findings target changed
      | .error fault => .unsaved findings target fault

/-- Run where there is a working directory, then list the failing paths, and only then write the
report. -/
def ending (w : Work) (disk : Disk) (directory : Location) (output : Outlet) : Ending :=
  if disk.isDirectory directory then
    match (w.run disk directory).outcome with
    | .error u => .broken (.unreadable u) ""
    | .ok findings =>
        match output.refusal? (Findings.listing findings) with
        | some fault => .broken (.unprinted fault) (output.arriving (Findings.listing findings))
        | none => w.endingOfListed disk directory findings
  else .broken (.lost .notFound) ""

section

variable {w : Work} {disk changed : Disk} {directory : Location} {output : Outlet}
  {findings : List Finding} {target : Path} {fault : Fault}

theorem ending_of_lost (h : disk.isDirectory directory = false) :
    w.ending disk directory output = .broken (.lost .notFound) "" := by
  simp [ending, h]

theorem ending_of_error {u : Unreadable} (hthere : disk.isDirectory directory)
    (h : (w.run disk directory).outcome = .error u) :
    w.ending disk directory output = .broken (.unreadable u) "" := by
  simp [ending, hthere, h]

theorem ending_of_refused (hthere : disk.isDirectory directory)
    (h : (w.run disk directory).outcome = .ok findings)
    (hrefused : output.refusal? (Findings.listing findings) = some fault) :
    w.ending disk directory output =
      .broken (.unprinted fault) (output.arriving (Findings.listing findings)) := by
  simp [ending, hthere, h, hrefused]

theorem ending_of_listed (hthere : disk.isDirectory directory)
    (h : (w.run disk directory).outcome = .ok findings)
    (hlisted : output.refusal? (Findings.listing findings) = none) :
    w.ending disk directory output = w.endingOfListed disk directory findings := by
  simp [ending, hthere, h, hlisted]

theorem endingOfListed_of_unreported (hreport : w.report = none) :
    w.endingOfListed disk directory findings = .finished findings := by
  simp [endingOfListed, hreport]

theorem endingOfListed_of_written (hreport : w.report = some target)
    (hwrite : disk.write directory target (Findings.report findings) = .ok changed) :
    w.endingOfListed disk directory findings = .saved findings target changed := by
  simp [endingOfListed, hreport, hwrite]

theorem endingOfListed_of_unwritten (hreport : w.report = some target)
    (hwrite : disk.write directory target (Findings.report findings) = .error fault) :
    w.endingOfListed disk directory findings = .unsaved findings target fault := by
  simp [endingOfListed, hreport, hwrite]

theorem stdout_endingOfListed (w : Work) (disk : Disk) (directory : Location)
    (findings : List Finding) :
    (w.endingOfListed disk directory findings).stdout = Findings.listing findings := by
  unfold endingOfListed
  split
  · rfl
  · split <;> rfl

end

end Work

/-! ## The way through the program -/

/-- What an invocation says before it ends.  Where there is no working directory, it has not said
anything yet. -/
def Settings.said (s : Settings) (disk : Disk) (directory : Location) : List Message :=
  if disk.isDirectory directory then
    Program.progress directory.path s (s.work.run disk directory)
  else []

section

variable {disk : Disk} {directory : Location} {output : Outlet} {environment : Environment}
  {s : Settings} {said : List Message}

/-- What an ending leaves behind, with all that was said. -/
def Ending.result (ending : Ending) (environment : Environment) (s : Settings)
    (said : List Message) (before : Disk) : Transcript × Disk :=
  (⟨ending.exitCode, ending.stdout, Program.written environment s
    (said ++ (ending.lines s.mode (Program.coloured environment s)).map .line)⟩,
      ending.disk before)

theorem carry_failed (failure : Failure) :
    (Program.failed environment s said failure).carry directory disk output =
      (Ending.broken failure "").result environment s said disk :=
  rfl

theorem carry_print_of_accepted {text : String} {resume : Except Fault Unit → Program}
    (h : output.refusal? text = none) :
    (Program.print text resume).carry directory disk output =
      let rest := (resume (.ok ())).carry directory disk (output.after text)
      ({ rest.1 with stdout := text ++ rest.1.stdout }, rest.2) := by
  simp [Program.carry, h, Outlet.arriving_eq_iff.2 h]

theorem carry_print_of_refused {text : String} {resume : Except Fault Unit → Program}
    {fault : Fault} (h : output.refusal? text = some fault) :
    (Program.print text resume).carry directory disk output =
      let rest := (resume (.error fault)).carry directory disk (output.after text)
      ({ rest.1 with stdout := output.arriving text ++ rest.1.stdout }, rest.2) := by
  simp [Program.carry, h]

/-- Behind the list nothing more is printed. -/
theorem carry_ofListed (findings : List Finding) :
    (Program.ofListed environment s said findings).carry directory disk output =
      let result := (s.work.endingOfListed disk directory findings).result environment s said disk
      ({ result.1 with stdout := "" }, result.2) := by
  have hwork : s.work.report = s.report := rfl
  cases hreport : s.report with
  | none =>
      rw [Work.endingOfListed_of_unreported (hwork.trans hreport)]
      simp [Program.ofListed, hreport, Program.completed, Program.carry, Ending.result,
        Ending.exitCode, Ending.lines, Ending.disk]
  | some target =>
      cases hwrite : disk.write directory target (Findings.report findings) with
      | ok changed =>
          rw [Work.endingOfListed_of_written (hwork.trans hreport) hwrite]
          simp [Program.ofListed, hreport, Program.carry, hwrite, Program.ofSaved,
            Program.completed, Ending.result, Ending.exitCode, Ending.lines, Ending.disk]
      | error fault =>
          rw [Work.endingOfListed_of_unwritten (hwork.trans hreport) hwrite]
          have hmessage : (Failure.unsaved target fault).message = saveFailure target fault := rfl
          simp [Program.ofListed, hreport, Program.carry, hwrite, Program.ofSaved,
            Program.failed, hmessage, Ending.result, Ending.exitCode, Ending.lines, Ending.disk]

theorem carry_ofRun (hthere : disk.isDirectory directory) :
    (Program.ofRun environment s directory.path (s.work.run disk directory)).carry directory disk
        output =
      (s.work.ending disk directory output).result environment s
        (Program.progress directory.path s (s.work.run disk directory)) disk := by
  cases houtcome : (s.work.run disk directory).outcome with
  | error u =>
      rw [Work.ending_of_error hthere houtcome]
      simp only [Program.ofRun, houtcome, carry_failed]
  | ok findings =>
      -- The list is printed at once, so the outlet decides what comes next.
      have hprints : Program.ofRun environment s directory.path (s.work.run disk directory) =
          .print (Findings.listing findings) (Program.ofPrinted environment s
            (Program.progress directory.path s (s.work.run disk directory)) findings) := by
        simp only [Program.ofRun, houtcome]
      rw [hprints]
      cases hrefusal : output.refusal? (Findings.listing findings) with
      | some fault =>
          rw [carry_print_of_refused hrefusal, Work.ending_of_refused hthere houtcome hrefusal]
          simp [Program.ofPrinted, carry_failed, Ending.result, Ending.exitCode, Ending.stdout,
            Ending.lines, Ending.disk]
      | none =>
          rw [carry_print_of_accepted hrefusal, Work.ending_of_listed hthere houtcome hrefusal]
          simp [Program.ofPrinted, carry_ofListed, Ending.result, Work.stdout_endingOfListed]

end

/-- An accepted invocation ends as its work does.  Its messages are what it says up to then and the
lines of its ending, as far as they pass the filter. -/
theorem execute_of_parse_eq_ok {disk : Disk} {directory : Location} {streams : Streams}
    {log : Option Bytes} {words : List Bytes} {s : Settings} (h : Settings.parse words = .ok s) :
    execute disk directory streams log words =
      (s.work.ending disk directory streams.output).result
        (streams.environment disk directory log) s (s.said disk directory) disk := by
  unfold execute
  -- The working directory is asked for before anything is said.
  cases hthere : disk.isDirectory directory with
  | false =>
      have hlost : (streams.environment disk directory log).directory = .error .notFound := by
        simp [Streams.environment, Disk.workingDirectory, hthere]
      have hsaid : s.said disk directory = [] := by simp [Settings.said, hthere]
      simp only [Program.start, h, hlost, carry_failed, Work.ending_of_lost hthere, hsaid]
  | true =>
      have hpath : (streams.environment disk directory log).directory = .ok directory.path := by
        simp [Streams.environment, Disk.workingDirectory, hthere]
      have hsaid : s.said disk directory =
          Program.progress directory.path s (s.work.run disk directory) := by
        simp [Settings.said, hthere]
      have hrun : Program.runWith (disk.read directory) directory.path s =
          s.work.run disk directory := rfl
      simp only [Program.start, h, hpath, hrun, hsaid]
      exact carry_ofRun hthere

end HeaderAudit

import HeaderAudit.Command.Help
import HeaderAudit.Command.Transcript
import HeaderAudit.Disk.Update
import HeaderAudit.Document

/-!
# Program — a whole invocation

An invocation reads its settings, runs, prints the failing paths, and only then writes the report,
so what is on standard output stays true when the report cannot be written.  It is broken off where
the working directory has no path, where a file cannot be read, where the failing paths cannot be
printed, and where the report cannot be written.

The program is a function of what it can read.  It asks for a text to be printed or for a file to be
written, goes on with how that went, and ends with an exit code and the messages on standard error.
This file defines:

* `Program.start` — the program for a command line;
* `Program.carry` — a program carried through on a disk and an outlet;
* `execute` — both together.
-/

namespace HeaderAudit

inductive Program
  | done (exitCode : UInt8) (messages : List Message)
  | print (text : String) (resume : Except Fault Unit → Program)
  | save (target : Path) (content : Bytes) (resume : Except Fault Unit → Program)

namespace Program

def exemptions (directory : Path) : Exemptions :=
  Exemptions.standard.under directory

def coloured (environment : Environment) (settings : Settings) : Bool :=
  settings.colours.isOn environment.showsColours

/-! ## The run -/

/-- What is said before the first file is looked at. -/
def opening (directory : Path) (settings : Settings) : List Message :=
  [.event (.resolvingAgainst directory), .event (.exemptionCount (exemptions directory).size)] ++
    (Console.detail settings.mode
      ("Received " ++ toString settings.paths.length ++ " paths")).map .line

/-- What is said by the time the run ends or breaks off. -/
def progress (directory : Path) (settings : Settings) (r : Run) : List Message :=
  opening directory settings ++ r.events.map .event

def runWith (read : Reader) (directory : Path) (settings : Settings) : Run :=
  Run.ofArguments read (exemptions directory) settings.options settings.paths

/-! ## Endings -/

/-- The messages that pass the log filter. -/
def written (environment : Environment) (settings : Settings) (messages : List Message) :
    List Message :=
  messages.filter (Message.passes (logFilter environment settings))

/-- The failure is the last thing that is said. -/
def failed (environment : Environment) (settings : Settings) (said : List Message)
    (failure : Failure) : Program :=
  .done abortedCode (written environment settings
    (said ++ [.line (errorLine (coloured environment settings) failure.message)]))

def completed (environment : Environment) (settings : Settings) (said : List Message)
    (findings : List Finding) : Program :=
  .done (Findings.exitCode findings) (written environment settings said)

def ofSaved (environment : Environment) (settings : Settings) (said : List Message)
    (findings : List Finding) (target : Path) : Except Fault Unit → Program
  | .ok () =>
      completed environment settings (said ++ (Console.notice settings.mode
        (coloured environment settings) (saveNotice target)).map .line) findings
  | .error fault => failed environment settings said (.unsaved target fault)

/-- The failing paths have been printed. -/
def ofListed (environment : Environment) (settings : Settings) (said : List Message)
    (findings : List Finding) : Program :=
  -- The summary does not wait for the report, so it is there also where the report is refused.
  let said := said ++ (Console.tally settings.mode (coloured environment settings)
    (Tally.ofFindings findings)).map .line
  match settings.report with
  | none => completed environment settings said findings
  | some target =>
      .save target (Findings.report findings) (ofSaved environment settings said findings target)

def ofPrinted (environment : Environment) (settings : Settings) (said : List Message)
    (findings : List Finding) : Except Fault Unit → Program
  | .ok () => ofListed environment settings said findings
  | .error fault => failed environment settings said (.unprinted fault)

def ofRun (environment : Environment) (settings : Settings) (directory : Path) (r : Run) :
    Program :=
  let said := progress directory settings r
  match r.outcome with
  | .error u => failed environment settings said (.unreadable u)
  | .ok findings =>
      .print (Findings.listing findings) (ofPrinted environment settings said findings)

/-! ## The invocation -/

/-- Whether help arrives is not asked. -/
def ofStop : Stop → Program
  | .usage e => .done abortedCode [.line e.message]
  | .help full => .print (Console.ofLines (Help.lines full)) fun _ => .done 0 []
  | .version => .print (Console.ofLines [Help.versionLine]) fun _ => .done 0 []

def start (read : Reader) (environment : Environment) (words : List Bytes) : Program :=
  match Settings.parse words with
  | .error reason => ofStop reason
  | .ok settings =>
      -- Exempt paths are relative to the working directory, so no file is looked at without one.
      match environment.directory with
      | .error fault => failed environment settings [] (.lost fault)
      | .ok directory => ofRun environment settings directory (runWith read directory settings)

/-- The paths that an invocation may read. -/
def wanted (words : List Bytes) : List Path :=
  match Settings.parse words with
  | .error _ => []
  | .ok settings =>
      (settings.paths.map Path.ofString).filter (forwards settings.options.everyStyle)

/-- What is printed comes out of the outlet, as far as there is room. -/
def carry (directory : Location) : Program → Disk → Outlet → Transcript × Disk
  | .done exitCode messages, disk, _ => (⟨exitCode, "", messages⟩, disk)
  | .print text resume, disk, output =>
      let reply : Except Fault Unit :=
        match output.refusal? text with
        | none => .ok ()
        | some fault => .error fault
      let rest := (resume reply).carry directory disk (output.after text)
      ({ rest.1 with stdout := output.arriving text ++ rest.1.stdout }, rest.2)
  | .save target content resume, disk, output =>
      match disk.write directory target content with
      | .ok changed => (resume (.ok ())).carry directory changed output
      | .error fault => (resume (.error fault)).carry directory disk output

end Program

/-- What an invocation in a directory finds around it. -/
def Streams.environment (streams : Streams) (disk : Disk) (directory : Location)
    (log : Option Bytes) : Environment :=
  ⟨disk.workingDirectory directory, log, streams.showsColours⟩

/-- The whole program in a directory of a disk. -/
def execute (disk : Disk) (directory : Location) (streams : Streams) (log : Option Bytes)
    (words : List Bytes) : Transcript × Disk :=
  (Program.start (disk.read directory) (streams.environment disk directory log) words).carry
    directory disk streams.output

end HeaderAudit

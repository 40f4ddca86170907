import HeaderAudit.Command.Settings
import HeaderAudit.Console.Outlet
import HeaderAudit.Diagnostic.Filter

/-!
# Transcript — what an invocation says

Standard error carries two kinds of messages in one order: events of the run, which pass a log
filter, and plain lines, which do not.  The filter is taken from the environment as a whole or, if
the environment has no valid one, from the options.

This file defines messages, transcripts, the failures that break an invocation off, and the lines
that tell how a report was saved.

The lines are those of a standard error that is no terminal and takes in whatever is written.  On a
terminal the labels of the log and the texts that refuse arguments or give help are coloured
besides, whatever colours are asked for.
-/

namespace HeaderAudit

/-- What an invocation finds around it: the absolute path of the working directory or the reason why
it has none, the value that describes a log filter, if one is set, and whether standard error is
found to support colours. -/
structure Environment where
  directory : Except Fault Path
  log : Option Bytes
  showsColours : Bool
deriving Repr

/-- The environment variable that holds a log filter. -/
def logVariable : String := "HEADERCHECK_LOG"

/-- What the program exits with when a run does not come to its end. -/
def abortedCode : UInt8 := 2

/-! ## Messages -/

/-- Events pass a log filter before they are written, lines do not. -/
inductive Message
  | event (e : Event)
  | line (s : String)
deriving DecidableEq, Repr

namespace Message

def passes (f : Filter) : Message → Bool
  | .event e => f.lets e
  | .line _ => true

def text : Message → String
  | .event e => e.line
  | .line s => s

end Message

/-! ## Transcripts -/

/-- What an invocation leaves behind besides files.  The messages are those that are written. -/
structure Transcript where
  exitCode : UInt8
  stdout : String
  messages : List Message
deriving DecidableEq, Repr

def Transcript.stderr (t : Transcript) : String :=
  Console.ofLines (t.messages.map Message.text)

/-! ## Wording -/

def errorLine (coloured : Bool) (message : String) : String :=
  Colour.red.paint coloured "ERROR:" ++ " " ++ message

def saveFailure (target : Path) (fault : Fault) : String :=
  "Failed to write report to " ++ target.display ++ ": " ++ fault.message

def saveNotice (target : Path) : String :=
  "Generated JSON report at " ++ target.display

/-! ## Failures -/

/-- Whatever can break an invocation off once its settings are read. -/
inductive Failure
  /-- There is no path to the working directory. -/
  | lost (fault : Fault)
  | unreadable (u : Unreadable)
  /-- The failing paths could not be printed. -/
  | unprinted (fault : Fault)
  /-- The report could not be written. -/
  | unsaved (target : Path) (fault : Fault)
deriving DecidableEq, Repr

/-- What could not be done, and the cause behind it. -/
def Failure.message : Failure → String
  | .lost fault => "Failed to get current directory: " ++ fault.message
  | .unreadable u => u.message ++ ": " ++ u.cause.message
  | .unprinted fault => "Failed to write to stdout: " ++ fault.message
  | .unsaved target fault => saveFailure target fault

/-! ## The log filter -/

/-- The filter of the environment, or else the one that the options ask for. -/
def logFilter (environment : Environment) (settings : Settings) : Filter :=
  (Filter.ofValue? environment.log).getD
    (Filter.ofSeverity (Settings.severity settings.quiet settings.verbosity))

end HeaderAudit

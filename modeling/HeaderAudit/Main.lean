import HeaderAudit.Command.Program

/-!
# Main — the program at a real command line

The files that the command line names are read first; then the program is started on what was read,
and does in the system what it asks for.
-/

namespace HeaderAudit

/-- The number of the refusal "file name too long", which some calls give negated. -/
def nameTooLongCodes : List UInt32 := [36, 0 - 36]

def faultOf (e : IO.Error) : Fault :=
  match e with
  | .noFileOrDirectory _ _ _ => .notFound
  | .inappropriateType _ code _ => if code = 21 then .isDirectory else .notDirectory
  | .invalidArgument _ code _ =>
      if code ∈ nameTooLongCodes then .nameTooLong else .system (toString e)
  | _ => .system (toString e)

def readFile (p : Path) : IO (Except Fault Bytes) := do
  try
    let content ← IO.FS.readBinFile p.display
    return .ok content.data.toList
  catch e =>
    return .error (faultOf e)

def writeFile (p : Path) (content : Bytes) : IO (Except Fault Unit) := do
  try
    IO.FS.writeBinFile p.display content.toByteArray
    return .ok ()
  catch e =>
    return .error (faultOf e)

def printText (text : String) : IO (Except Fault Unit) := do
  try
    IO.print text
    (← IO.getStdout).flush
    return .ok ()
  catch e =>
    return .error (faultOf e)

def workingDirectory : IO (Except Fault Path) := do
  try
    return .ok (Path.ofString (toString (← IO.currentDir)))
  catch e =>
    return .error (faultOf e)

/-- What was read, as a reader. -/
def readerOf (files : List (Path × Except Fault Bytes)) : Reader := fun p =>
  (files.lookup p).getD (.error .notFound)

def perform : Program → IO UInt32
  | .done exitCode messages => do
      IO.eprint (Console.ofLines (messages.map Message.text))
      return exitCode.toUInt32
  | .print text resume => do perform (resume (← printText text))
  | .save target content resume => do perform (resume (← writeFile target content))

end HeaderAudit

open HeaderAudit in
/-- A terminal is taken to support colours. -/
def main (arguments : List String) : IO UInt32 := do
  let words := arguments.map Utf8.encode
  let log := (← IO.getEnv logVariable).map Utf8.encode
  let environment : Environment :=
    ⟨← workingDirectory, log, ← (← IO.getStderr).isTty⟩
  let files ← (Program.wanted words).mapM fun p => do return (p, ← readFile p)
  perform (Program.start (readerOf files) environment words)

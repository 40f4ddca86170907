import HeaderAudit.Console.ControlSequence

/-!
# Usage — how a command line can be wrong

The ways in which arguments are refused, and the line that says so.  What was given on the command
line is repeated in it without anything that would drive a terminal.
-/

namespace HeaderAudit

inductive UsageError
  /-- An argument that is neither an option nor a path. -/
  | unexpectedArgument (argument : String)
  /-- A value given to an option that takes none. -/
  | unexpectedValue (option value : String)
  | invalidValue (option value : String)
  | valueRequired (option : String)
  | repeated (option : String)
  | conflict (first second : String)
  /-- A path that is not text. -/
  | notText
deriving DecidableEq, Repr

namespace UsageError

/-- A word of the command line, as a message repeats it. -/
def quoted (word : String) : String :=
  "'" ++ ControlSequence.strip word ++ "'"

def message : UsageError → String
  | .unexpectedArgument argument => "error: unexpected argument " ++ quoted argument ++ " found"
  | .unexpectedValue option value =>
      "error: unexpected value " ++ quoted value ++ " for '" ++ option ++
        "' found; no more were expected"
  | .invalidValue option value =>
      "error: invalid value " ++ quoted value ++ " for '" ++ option ++ "'"
  | .valueRequired option =>
      "error: a value is required for '" ++ option ++ "' but none was supplied"
  | .repeated option => "error: the argument '" ++ option ++ "' cannot be used multiple times"
  | .conflict first second =>
      "error: the argument '" ++ first ++ "' cannot be used with '" ++ second ++ "'"
  | .notText => "error: invalid UTF-8 was detected in one or more arguments"

end UsageError
end HeaderAudit

import HeaderAudit.Path.Basic

/-!
# Fault — why a file cannot be read or written

The causes, the sentence for each, and `Unreadable`, a cause together with the path that met it.
-/

namespace HeaderAudit

inductive Fault
  | notFound
  | notDirectory
  | isDirectory
  | nameTooLong
  | zeroByteInName
  | notText
  /-- Any other refusal of the system, in its own words. -/
  | system (description : String)
deriving DecidableEq, Repr

def Fault.message : Fault → String
  | .notFound => "No such file or directory (os error 2)"
  | .notDirectory => "Not a directory (os error 20)"
  | .isDirectory => "Is a directory (os error 21)"
  | .nameTooLong => "File name too long (os error 36)"
  | .zeroByteInName => "file name contained an unexpected NUL byte"
  | .notText => "stream did not contain valid UTF-8"
  | .system description => description

/-- A path whose content cannot be had as text. -/
structure Unreadable where
  path : Path
  cause : Fault
deriving DecidableEq, Repr

def Unreadable.message (u : Unreadable) : String :=
  "Failed to read file '" ++ u.path.display ++ "': " ++ u.cause.message

/-- What reading a path gives: its bytes or the reason why there are none. -/
abbrev Reader := Path → Except Fault Bytes

/-- Reading as text: the bytes must be the encoding of one. -/
def Reader.text (read : Reader) (p : Path) : Except Fault String :=
  match read p with
  | .error fault => .error fault
  | .ok bytes =>
      match Utf8.decode? bytes with
      | some content => .ok content
      | none => .error .notText

/-- Text is read exactly where the bytes encode it. -/
theorem Reader.text_eq_ok_iff {read : Reader} {p : Path} {content : String} :
    read.text p = .ok content ↔ read p = .ok (Utf8.encode content) := by
  unfold Reader.text
  cases read p with
  | error fault => simp
  | ok bytes =>
      rw [Except.ok.injEq, ← Utf8.decode?_eq_some_iff]
      cases h : Utf8.decode? bytes <;> simp [h]

end HeaderAudit

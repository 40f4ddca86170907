import HeaderAudit.Text.Utf8

/-!
# ControlSequence — text without what drives a terminal

A terminal takes some bytes not as text but as commands.  Most control characters are commands by
themselves; the escape character begins a longer one, whose extent depends on the byte after it.
This file defines:

* `ControlSequence.Phase` and `after` — what a byte belongs to, and what the next one will;
* `ControlSequence.isShown` — the bytes that are text;
* `ControlSequence.strip` — the text alone.  A blank amid a command ends the command.
-/

namespace HeaderAudit
namespace ControlSequence

/-! ## Where a byte stands -/

inductive Phase
  | text
  /-- Inside a character of several bytes: how many it needs after the next one. -/
  | character (further : Nat)
  /-- Behind the escape character. -/
  | escape
  /-- Behind the escape character and a byte that asks for one more. -/
  | designation
  /-- Behind an opening bracket, up to a letter. -/
  | bracket
  /-- Behind a closing bracket, up to the bell. -/
  | command
  /-- The head of a device string, up to a letter. -/
  | deviceHead
  /-- A string that the terminal does not show, up to the byte `0x9C`. -/
  | hidden
deriving DecidableEq, Repr

def bell : UInt8 := 0x07

def cancel : UInt8 := 0x18

def substitute : UInt8 := 0x1A

def escapeByte : UInt8 := 0x1B

def delete : UInt8 := 0x7F

def stringEnd : UInt8 := 0x9C

/-- Control characters that are blanks: tab, line feed, form feed and return. -/
def isControlBlank (b : UInt8) : Bool :=
  b = 0x09 || b = 0x0A || b = 0x0C || b = 0x0D

/-- The bytes that end a command with parameters. -/
def isFinal (b : UInt8) : Bool :=
  0x40 ≤ b && b ≤ 0x7E

/-- The bytes that ask for another one behind the escape character. -/
def isIntermediate (b : UInt8) : Bool :=
  0x20 ≤ b && b ≤ 0x2F

/-- A byte of text, which may begin a longer character. -/
def afterText (b : UInt8) : Phase :=
  if 0xC2 ≤ b ∧ b ≤ 0xDF then .character 0
  else if 0xE0 ≤ b ∧ b ≤ 0xEF then .character 1
  else if 0xF0 ≤ b ∧ b ≤ 0xF4 then .character 2
  else .text

/-- The byte behind the escape character, which tells what kind of command begins. -/
def afterEscape (b : UInt8) : Phase :=
  if b = 0x5B then .bracket
  else if b = 0x5D then .command
  else if b = 0x50 then .deviceHead
  else if b = 0x58 ∨ b = 0x5E ∨ b = 0x5F then .hidden
  else if isIntermediate b then .designation
  else if 0x30 ≤ b ∧ b ≤ 0x7E then .text
  else .escape

/-- Every phase but a character of several bytes is left at once by the escape character and by the
two characters that cancel a command. -/
def after (phase : Phase) (b : UInt8) : Phase :=
  match phase with
  | .character 0 => .text
  | .character (further + 1) => .character further
  | _ =>
      if b = escapeByte then .escape
      else if b = cancel ∨ b = substitute then .text
      else match phase with
        | .escape => if isControlBlank b then .text else afterEscape b
        | .designation =>
            if isControlBlank b ∨ (0x30 ≤ b ∧ b ≤ 0x7E) then .text else .designation
        | .bracket => if isControlBlank b ∨ isFinal b then .text else .bracket
        | .command => if b = bell then .text else .command
        | .deviceHead => if isFinal b then .hidden else .deviceHead
        | .hidden => if b = stringEnd then .text else .hidden
        | _ => afterText b

/-! ## What is shown -/

/-- The bytes of a character, and in text everything from the blank on that is not a stray byte.  A
control character that is a blank is shown unless it lies in a string. -/
def isShown (phase : Phase) (b : UInt8) : Bool :=
  match phase with
  | .character _ => true
  | .text => isControlBlank b || (0x20 ≤ b && b < delete) || (0xC2 ≤ b && b ≤ 0xF4)
  | .escape => isControlBlank b
  | .designation => isControlBlank b
  | .bracket => isControlBlank b
  | .command => false
  | .deviceHead => false
  | .hidden => false

def keep : Phase → Bytes → Bytes
  | _, [] => []
  | phase, b :: rest =>
      if isShown phase b then b :: keep (after phase b) rest else keep (after phase b) rest

def strip (s : String) : String :=
  Utf8.decodeLossy (keep .text (Utf8.encode s))

end ControlSequence
end HeaderAudit

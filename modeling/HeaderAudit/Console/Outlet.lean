import HeaderAudit.Disk.Fault

/-!
# Outlet — where printed text goes

What is printed goes to a terminal, a file or a pipe, and one that is full, or that nobody reads any
more, refuses what has no room.  By then the front of the text has arrived.  This file defines:

* `Outlet` — how much is taken in, and the fault that is met beyond;
* `Outlet.refusal?` and `Outlet.arriving` — whether a text is refused, and what arrives of it;
* `Streams` — where the two streams of an invocation lead.

`arriving_eq_iff` says that a text arrives as a whole exactly if it is not refused.

Room is counted in bytes, but only whole characters arrive.  Standard error takes in everything.
-/

namespace HeaderAudit

inductive Outlet
  | unlimited
  /-- There is room for so many bytes. -/
  | limited (room : Nat) (fault : Fault)
deriving DecidableEq, Repr

namespace Outlet

/-- The reason why the text cannot be printed as a whole. -/
def refusal? : Outlet → String → Option Fault
  | .unlimited, _ => none
  | .limited room fault, text => if (Utf8.encode text).length ≤ room then none else some fault

/-- The characters in front that there is room for. -/
def fitting : Nat → List Char → List Char
  | _, [] => []
  | room, c :: rest =>
      let size := (String.utf8EncodeChar c).length
      if size ≤ room then c :: fitting (room - size) rest else []

def arriving : Outlet → String → String
  | .unlimited, text => text
  | .limited room _, text => String.ofList (fitting room text.toList)

/-- The outlet behind a text that was printed. -/
def after : Outlet → String → Outlet
  | .unlimited, _ => .unlimited
  | .limited room fault, text => .limited (room - (Utf8.encode text).length) fault

theorem fitting_prefix (room : Nat) (s : List Char) : fitting room s <+: s := by
  induction s generalizing room with
  | nil => exact List.prefix_refl _
  | cons c rest ih =>
      rw [fitting]
      split
      · exact List.cons_prefix_cons.2 ⟨rfl, ih _⟩
      · exact List.nil_prefix

theorem fitting_eq_iff {room : Nat} {s : List Char} :
    fitting room s = s ↔ (s.flatMap String.utf8EncodeChar).length ≤ room := by
  induction s generalizing room with
  | nil => simp [fitting]
  | cons c rest ih =>
      rw [fitting, List.flatMap_cons, List.length_append]
      split
      · rename_i hsize
        rw [List.cons_inj_right, ih]
        omega
      · rename_i hsize
        simp only [false_iff, reduceCtorEq]
        omega

variable {output : Outlet} {text : String}

/-- What arrives is the front of the text. -/
theorem arriving_prefix (output : Outlet) (text : String) :
    (output.arriving text).toList <+: text.toList := by
  cases output with
  | unlimited => exact List.prefix_refl _
  | limited room fault => simpa [arriving] using fitting_prefix room text.toList

theorem arriving_eq_iff : output.arriving text = text ↔ output.refusal? text = none := by
  cases output with
  | unlimited => simp [arriving, refusal?]
  | limited room fault =>
      rw [arriving, ← String.toList_inj, String.toList_ofList, fitting_eq_iff]
      simp [refusal?, Utf8.encode]

/-- Where there is nothing to print, nothing is refused. -/
theorem refusal?_empty (output : Outlet) : output.refusal? "" = none :=
  arriving_eq_iff.1 (by cases output <;> rfl)

end Outlet

/-- Where an invocation's standard output leads, and whether its standard error is found to support
colours. -/
structure Streams where
  output : Outlet
  showsColours : Bool
deriving DecidableEq, Repr

end HeaderAudit

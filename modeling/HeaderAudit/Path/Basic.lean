import HeaderAudit.Text.Pieces
import HeaderAudit.Text.Utf8

/-!
# Path — file names as bytes between slashes

A path is any sequence of bytes, and only the slash separates.  This file defines:

* `Path.pieces` — what stands between the slashes, empty pieces included;
* `Path.route` — the path up to spelling: whether it is absolute, and its segments without empty
  pieces and without `.`, while `..` stays;
* `Path.fileName?` and `extension?` — the name of the file and what follows its last dot;
* `Path.ofString` and `Path.display` — the path of a text, and the text to show for a path.

`display_ofString` says that a path made from text is shown as that text.
-/

namespace HeaderAudit

/-- What stands between two slashes. -/
abbrev Segment := Bytes

structure Path where
  bytes : Bytes
deriving DecidableEq, Repr

/-- A path up to spelling. -/
structure Route where
  absolute : Bool
  segments : List Segment
deriving DecidableEq, Repr

namespace Segment

def dot : UInt8 := 0x2E

/-- The segment `.`, which names the directory it stands in. -/
def current : Segment := [dot]

/-- The segment `..`, which names the directory above. -/
def parent : Segment := [dot, dot]

/-- The parts of a name before and after its last dot. -/
def cutLastDot? : Segment → Option (Bytes × Bytes)
  | [] => none
  | b :: rest =>
      match cutLastDot? rest with
      | some (stem, ext) => some (b :: stem, ext)
      | none => if b = dot then some ([], rest) else none

/-- What follows the last dot of a name.  A name that has its only dot in front, such as `.ts`, has
no extension. -/
def extension? (name : Segment) : Option Bytes :=
  match cutLastDot? name with
  | some ([], _) => none
  | some (_ :: _, ext) => some ext
  | none => none

end Segment

namespace Path

def slash : UInt8 := 0x2F

/-! ## Text -/

def ofString (s : String) : Path :=
  ⟨Utf8.encode s⟩

def display (p : Path) : String :=
  Utf8.decodeLossy p.bytes

@[simp]
theorem display_ofString (s : String) : (ofString s).display = s :=
  Utf8.decodeLossy_encode s

/-! ## Pieces and segments -/

def pieces (p : Path) : List Segment :=
  p.bytes.splitOn slash

def segments (p : Path) : List Segment :=
  p.pieces.filter fun s => s ≠ [] ∧ s ≠ Segment.current

def isAbsolute (p : Path) : Bool :=
  p.bytes.head? == some slash

def route (p : Path) : Route :=
  ⟨p.isAbsolute, p.segments⟩

/-- The last segment, unless it is `..`. -/
def fileName? (p : Path) : Option Segment :=
  p.segments.getLast?.filter (· ≠ Segment.parent)

def extension? (p : Path) : Option Bytes :=
  p.fileName?.bind Segment.extension?

/-- The absolute path through the given names, from the root downwards. -/
def ofNames (names : List Segment) : Path :=
  match names with
  | [] => ⟨[slash]⟩
  | _ :: _ => ⟨names.flatMap (slash :: ·)⟩

/-- No piece holds a slash. -/
theorem slash_not_mem_of_mem_pieces {p : Path} {s : Segment} (h : s ∈ p.pieces) : slash ∉ s :=
  not_mem_of_mem_splitOn h

end Path
end HeaderAudit

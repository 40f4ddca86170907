import HeaderAudit.Disk.Fault

/-!
# Disk — a tree of directories and files

A disk says what stands at each location.  A path is followed from the root or from a working
directory one name at a time, and every name needs a directory to be looked up in: `.` stays, `..`
goes up, and any other name must be there.  This file defines:

* `Disk.enter` and `Disk.follow` — one name, and a list of names;
* `Disk.locate` — a whole path, with the refusals that need no look at the disk;
* `Disk.read` — the bytes of the file at a path;
* `Disk.workingDirectory` — the path of the directory that an invocation is started in.

`follow_append` says that a list of names may be followed in parts, and `follow_of_locate` that a
path leads where its names do.

There is nothing on a disk but directories and files that anyone may read and write.  Links,
permissions, devices and other special files are left out, as is a write that fails after the file
was opened: it would leave the file empty or cut off.
-/

namespace HeaderAudit

/-- The names that lead to a place, the innermost first.  The root is the empty list. -/
abbrev Location := List Segment

inductive Entry
  | directory
  | file (content : Bytes)
deriving DecidableEq, Repr

structure Disk where
  entry? : Location → Option Entry

/-! ## What a path asks for -/

namespace Path

/-- The longest name that a directory can hold, in bytes. -/
def nameLimit : Nat := 255

/-- A path must be shorter than this, in bytes. -/
def lengthLimit : Nat := 4096

/-- Paths that are refused before any lookup. -/
def refusal? (p : Path) : Option Fault :=
  if 0 ∈ p.bytes then some .zeroByteInName
  else if p.bytes = [] then some .notFound
  else if lengthLimit ≤ p.bytes.length then some .nameTooLong
  else none

/-- The names to be looked up one after the other. -/
def names (p : Path) : List Segment :=
  p.pieces.filter (· ≠ [])

/-- A slash at the end asks for a directory. -/
def endsInSlash (p : Path) : Bool :=
  p.bytes.getLast? == some slash

/-- Where the lookup of a path starts. -/
def origin (directory : Location) (p : Path) : Location :=
  if p.isAbsolute then [] else directory

end Path

/-- The absolute path of a location. -/
def Location.path (place : Location) : Path :=
  Path.ofNames place.reverse

namespace Disk

/-! ## Lookup -/

/-- The root is always a directory. -/
def at? (disk : Disk) : Location → Option Entry
  | [] => some .directory
  | name :: above => disk.entry? (name :: above)

def isDirectory (disk : Disk) (place : Location) : Bool :=
  disk.at? place == some .directory

/-- One name looked up in the place reached so far. -/
def enter (disk : Disk) (place : Location) (name : Segment) : Except Fault Location :=
  match disk.at? place with
  | none => .error .notFound
  | some (.file _) => .error .notDirectory
  | some .directory =>
      if name = Segment.current then .ok place
      else if name = Segment.parent then .ok place.tail
      else if Path.nameLimit < name.length then .error .nameTooLong
      else if disk.at? (name :: place) = none then .error .notFound
      else .ok (name :: place)

def follow (disk : Disk) : Location → List Segment → Except Fault Location
  | place, [] => .ok place
  | place, name :: rest =>
      match disk.enter place name with
      | .error fault => .error fault
      | .ok next => disk.follow next rest

/-- The place that a path names. -/
def locate (disk : Disk) (directory : Location) (p : Path) : Except Fault Location :=
  match p.refusal? with
  | some fault => .error fault
  | none =>
      match disk.follow (p.origin directory) p.names with
      | .error fault => .error fault
      | .ok place =>
          if p.endsInSlash && !disk.isDirectory place then .error .notDirectory
          else .ok place

def read (disk : Disk) (directory : Location) : Reader := fun p =>
  match disk.locate directory p with
  | .error fault => .error fault
  | .ok place =>
      match disk.at? place with
      | none => .error .notFound
      | some .directory => .error .isDirectory
      | some (.file content) => .ok content

/-- A directory that has been removed has no path any more. -/
def workingDirectory (disk : Disk) (directory : Location) : Except Fault Path :=
  if disk.isDirectory directory then .ok directory.path else .error .notFound

theorem follow_append (disk : Disk) (place : Location) (first second : List Segment) :
    disk.follow place (first ++ second) =
      match disk.follow place first with
      | .error fault => .error fault
      | .ok next => disk.follow next second := by
  induction first generalizing place with
  | nil => rfl
  | cons name rest ih =>
      simp only [List.cons_append, follow]
      cases disk.enter place name with
      | error fault => rfl
      | ok next => exact ih next

theorem follow_of_locate {disk : Disk} {directory place : Location} {p : Path}
    (h : disk.locate directory p = .ok place) :
    p.refusal? = none ∧ disk.follow (p.origin directory) p.names = .ok place := by
  unfold locate at h
  cases hrefusal : p.refusal? with
  | some fault => simp [hrefusal] at h
  | none =>
      cases hfollow : disk.follow (p.origin directory) p.names with
      | error fault => simp [hrefusal, hfollow] at h
      | ok there =>
          simp only [hrefusal, hfollow] at h
          split at h
          · cases h
          · exact ⟨rfl, congrArg Except.ok (Except.ok.inj h)⟩

end Disk
end HeaderAudit

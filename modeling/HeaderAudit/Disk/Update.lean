import HeaderAudit.Disk.Basic

/-!
# Update — changing a disk

This file defines `Disk.write`, which creates or replaces one file in a directory that exists, and
the operations that prepare a disk: `createDirectories`, `install` (a file together with the
directories above it) and `erase` (a place and everything below it).

`at?_put` says that putting an entry changes nothing elsewhere.
-/

namespace HeaderAudit
namespace Disk

/-! ## One entry -/

def put (disk : Disk) (place : Location) (entry : Entry) : Disk :=
  ⟨fun other => if other = place then some entry else disk.entry? other⟩

def empty : Disk :=
  ⟨fun _ => none⟩

theorem at?_put {disk : Disk} {place : Location} {entry : Entry} (hplace : place ≠ [])
    (other : Location) :
    (disk.put place entry).at? other = if other = place then some entry else disk.at? other := by
  cases other with
  | nil => simp [at?, hplace.symm]
  | cons name above => rfl

/-! ## Writing a file -/

/-- The last name of a path has to be the name of a file that is or can be in the directory before
it.  So `.`, `..` and a slash at the end are refused, as is the name of a directory. -/
def writeIn (disk : Disk) (place : Location) (name : Segment) (endsInSlash : Bool)
    (content : Bytes) : Except Fault Disk :=
  match disk.at? place with
  | none => .error .notFound
  | some (.file _) => .error .notDirectory
  | some .directory =>
      if name = Segment.current ∨ name = Segment.parent ∨ endsInSlash then .error .isDirectory
      else if Path.nameLimit < name.length then .error .nameTooLong
      else if disk.isDirectory (name :: place) then .error .isDirectory
      else .ok (disk.put (name :: place) (.file content))

def write (disk : Disk) (directory : Location) (p : Path) (content : Bytes) :
    Except Fault Disk :=
  match p.refusal? with
  | some fault => .error fault
  | none =>
      match p.names.getLast? with
      | none => .error .isDirectory
      | some name =>
          match disk.follow (p.origin directory) p.names.dropLast with
          | .error fault => .error fault
          | .ok place => disk.writeIn place name p.endsInSlash content

/-! ## Preparing a disk -/

/-- Names that are missing on the way become directories. -/
def createDirectories (disk : Disk) : Location → List Segment → Except Fault Disk
  | _, [] => .ok disk
  | place, name :: rest =>
      match disk.enter place name with
      | .ok next => disk.createDirectories next rest
      | .error .notFound =>
          (disk.put (name :: place) .directory).createDirectories (name :: place) rest
      | .error fault => .error fault

def makeDirectory (disk : Disk) (directory : Location) (p : Path) : Except Fault Disk :=
  disk.createDirectories (p.origin directory) p.names

/-- Writes a file after making the directories above it. -/
def install (disk : Disk) (directory : Location) (p : Path) (content : Bytes) :
    Except Fault Disk :=
  match disk.createDirectories (p.origin directory) p.names.dropLast with
  | .error fault => .error fault
  | .ok disk => disk.write directory p content

def erase (disk : Disk) (directory : Location) (p : Path) : Except Fault Disk :=
  match disk.locate directory p with
  | .error fault => .error fault
  | .ok place => .ok ⟨fun other => if place.isSuffixOf other then none else disk.entry? other⟩

end Disk
end HeaderAudit

import HeaderAudit.Disk.Basic

/-!
# Footprint — the places that decide what a read gives

To follow a path is to look at one place after the other, and a read ends as soon as a name cannot
be entered.  This file defines:

* `Disk.asked` and `Disk.footprint` — the places that are looked at while names are followed, and
  while a path is read;
* `Disk.AgreeAt` — two disks with the same entries at given places.

`read_congr` says that a disk may be changed in any way outside of the footprint of a path without
the path reading differently.
-/

namespace HeaderAudit
namespace Disk

/-! ## What is looked at -/

/-- The places that are looked at to enter one name: the directory, and what the name is to lead
down to unless the name is refused before that. -/
def askedAt (disk : Disk) (place : Location) (name : Segment) : List Location :=
  if disk.isDirectory place ∧ name ≠ Segment.current ∧ name ≠ Segment.parent ∧
      name.length ≤ Path.nameLimit then
    [place, name :: place]
  else [place]

/-- The places that are looked at while names are followed, with the one they lead to. -/
def asked (disk : Disk) : Location → List Segment → List Location
  | place, [] => [place]
  | place, name :: rest =>
      disk.askedAt place name ++
        match disk.enter place name with
        | .error _ => []
        | .ok next => disk.asked next rest

/-- The places that are looked at while a path is read.  A path that is refused needs none. -/
def footprint (disk : Disk) (directory : Location) (p : Path) : List Location :=
  match p.refusal? with
  | some _ => []
  | none => disk.asked (p.origin directory) p.names

def AgreeAt (disk other : Disk) (places : List Location) : Prop :=
  ∀ place ∈ places, other.at? place = disk.at? place

variable {disk other : Disk} {directory place next : Location} {name : Segment}
  {names : List Segment} {p : Path}

/-! ## Following and reading -/

theorem enter_congr (h : disk.AgreeAt other (disk.askedAt place name)) :
    other.enter place name = disk.enter place name := by
  have hplace : other.at? place = disk.at? place := by
    apply h
    unfold askedAt
    split <;> simp
  unfold enter
  rw [hplace]
  cases hentry : disk.at? place with
  | none => rfl
  | some entry =>
      cases entry with
      | file content => rfl
      | directory =>
          by_cases hdown : name ≠ Segment.current ∧ name ≠ Segment.parent ∧
              name.length ≤ Path.nameLimit
          · have hnext : other.at? (name :: place) = disk.at? (name :: place) := by
              apply h
              simp [askedAt, isDirectory, hentry, hdown]
            simp only [hnext]
          · -- A name that does not go down is dealt with before its place is looked at.
            by_cases hcurrent : name = Segment.current
            · simp [hcurrent]
            · by_cases hparent : name = Segment.parent
              · simp [hparent]
              · have hlong : Path.nameLimit < name.length :=
                  Nat.lt_of_not_le fun hshort => hdown ⟨hcurrent, hparent, hshort⟩
                simp [hcurrent, hparent, hlong]

theorem follow_congr (h : disk.AgreeAt other (disk.asked place names)) :
    other.follow place names = disk.follow place names := by
  -- What is asked behind a name is asked from where it leads, which is the same on both disks.
  induction names generalizing place with
  | nil => rfl
  | cons name rest ih =>
      have henter : other.enter place name = disk.enter place name := by
        apply enter_congr
        intro there hthere
        exact h there (List.mem_append_left _ hthere)
      unfold follow
      rw [henter]
      cases hnext : disk.enter place name with
      | error fault => rfl
      | ok next =>
          apply ih
          intro there hthere
          apply h
          simp [asked, hnext, hthere]

/-- Where names lead is the last place that is looked at. -/
theorem mem_asked_of_follow (h : disk.follow place names = .ok next) :
    next ∈ disk.asked place names := by
  induction names generalizing place with
  | nil =>
      cases h
      simp [asked]
  | cons name rest ih =>
      unfold follow at h
      cases hthere : disk.enter place name with
      | error fault => simp [hthere] at h
      | ok there =>
          rw [hthere] at h
          simp [asked, hthere, ih h]

theorem locate_congr (h : disk.AgreeAt other (disk.footprint directory p)) :
    other.locate directory p = disk.locate directory p := by
  unfold locate
  cases hrefusal : p.refusal? with
  | some fault => rfl
  | none =>
      have hasked : disk.AgreeAt other (disk.asked (p.origin directory) p.names) := by
        simpa [footprint, hrefusal] using h
      rw [follow_congr hasked]
      cases hfollow : disk.follow (p.origin directory) p.names with
      | error fault => rfl
      | ok place =>
          have hplace := hasked place (mem_asked_of_follow hfollow)
          have hdirectory : other.isDirectory place = disk.isDirectory place := by
            rw [isDirectory, isDirectory, hplace]
          simp only [hdirectory]

theorem mem_footprint_of_locate (h : disk.locate directory p = .ok place) :
    place ∈ disk.footprint directory p := by
  rcases follow_of_locate h with ⟨hrefusal, hfollow⟩
  simpa [footprint, hrefusal] using mem_asked_of_follow hfollow

/-- What is at a path is known from its footprint alone. -/
theorem read_congr (h : disk.AgreeAt other (disk.footprint directory p)) :
    other.read directory p = disk.read directory p := by
  unfold read
  rw [locate_congr h]
  cases hplace : disk.locate directory p with
  | error fault => rfl
  | ok place => simp only [h place (mem_footprint_of_locate hplace)]

end Disk
end HeaderAudit

import HeaderAudit.Disk.Update

/-!
# WrittenFile — a file that was written is found where it was written

Writing follows all names of a path but the last and puts a file under the last one.  Reading
follows all of them on the disk that results.  The new file is the only change, and it does not lie
on the way to itself, so both arrive at the same place: `exists_place_of_write` says so, and that
everything else on the disk stays.
-/

namespace HeaderAudit
namespace Disk

variable {disk changed : Disk} {directory place next target : Location} {name : Segment}
  {content : Bytes} {p : Path}

/-! ## One name -/

/-- What a name can lead to.  It is looked up in a directory: `.` stays, `..` goes up, and another
name goes down to something that is there. -/
theorem enter_eq_ok_iff :
    disk.enter place name = .ok next ↔ disk.at? place = some .directory ∧
      ((name = Segment.current ∧ next = place) ∨
        (name = Segment.parent ∧ next = place.tail) ∨
        (name ≠ Segment.current ∧ name ≠ Segment.parent ∧ name.length ≤ Path.nameLimit ∧
          disk.at? (name :: place) ≠ none ∧ next = name :: place)) := by
  have hdistinct : Segment.parent ≠ Segment.current := by decide
  unfold enter
  -- In a directory a name is tested for `.`, for `..`, for its length, and for what it leads to.
  cases disk.at? place with
  | none => simp
  | some entry =>
      cases entry with
      | file content => simp
      | directory =>
          by_cases hcurrent : name = Segment.current
          · simp [hcurrent, hdistinct.symm, eq_comm]
          · by_cases hparent : name = Segment.parent
            · simp [hparent, hdistinct, eq_comm]
            · by_cases hlong : Path.nameLimit < name.length
              · simp [hcurrent, hparent, hlong, Nat.not_le.2 hlong]
              · by_cases hnone : disk.at? (name :: place) = none
                · simp [hcurrent, hparent, hlong, hnone]
                · simp [hcurrent, hparent, hlong, hnone, Nat.le_of_not_lt hlong, eq_comm]

/-- A name that leads somewhere still does so after a file was put where no directory is. -/
theorem enter_put (htarget : target ≠ []) (hfile : disk.at? target ≠ some .directory)
    (h : disk.enter place name = .ok next) :
    (disk.put target (.file content)).enter place name = .ok next := by
  rcases enter_eq_ok_iff.1 h with ⟨hplace, hname⟩
  have hne : place ≠ target := fun heq => hfile (heq ▸ hplace)
  apply enter_eq_ok_iff.2
  refine ⟨by simpa [at?_put htarget, hne] using hplace, ?_⟩
  rcases hname with hcurrent | hparent | ⟨hcurrent, hparent, hshort, hthere, hnext⟩
  · exact Or.inl hcurrent
  · exact Or.inr (Or.inl hparent)
  · refine Or.inr (Or.inr ⟨hcurrent, hparent, hshort, ?_, hnext⟩)
    by_cases heq : name :: place = target
    · simp [at?_put htarget, heq]
    · simpa [at?_put htarget, heq] using hthere

/-! ## All names -/

theorem follow_put (htarget : target ≠ []) (hfile : disk.at? target ≠ some .directory)
    {names : List Segment} (h : disk.follow place names = .ok next) :
    (disk.put target (.file content)).follow place names = .ok next := by
  induction names generalizing place with
  | nil => exact h
  | cons name rest ih =>
      cases henter : disk.enter place name with
      | error fault => simp [follow, henter] at h
      | ok there =>
          have hrest : disk.follow there rest = .ok next := by
            simpa [follow, henter] using h
          simpa [follow, enter_put htarget hfile henter] using ih hrest

/-! ## The whole path -/

/-- What the last name of a path has to be for a file to be written under it. -/
theorem writeIn_eq_ok_iff {endsInSlash : Bool} :
    disk.writeIn place name endsInSlash content = .ok changed ↔
      disk.at? place = some .directory ∧ name ≠ Segment.current ∧ name ≠ Segment.parent ∧
        endsInSlash = false ∧ name.length ≤ Path.nameLimit ∧
        disk.at? (name :: place) ≠ some .directory ∧
        changed = disk.put (name :: place) (.file content) := by
  unfold writeIn isDirectory
  cases disk.at? place with
  | none => simp
  | some entry =>
      cases entry with
      | file content => simp
      | directory =>
          -- Three names are refused in one test, before the place is looked at.
          by_cases hrefused : name = Segment.current ∨ name = Segment.parent ∨ endsInSlash
          · constructor
            · intro h
              simp [hrefused] at h
            · rintro ⟨_, hcurrent, hparent, hslash, _⟩
              simp [hcurrent, hparent, hslash] at hrefused
          · rcases not_or.1 hrefused with ⟨hcurrent, hrest⟩
            rcases not_or.1 hrest with ⟨hparent, hslash⟩
            by_cases hlong : Path.nameLimit < name.length
            · simp [hcurrent, hparent, hslash, hlong, Nat.not_le.2 hlong]
            · by_cases hdirectory : disk.at? (name :: place) = some .directory
              · simp [hcurrent, hparent, hslash, hlong, hdirectory]
              · simp [hcurrent, hparent, hslash, hlong, hdirectory, Nat.le_of_not_lt hlong]
                exact eq_comm

/-- What a write that succeeds has found on its way. -/
theorem exists_of_write_eq_ok (h : disk.write directory p content = .ok changed) :
    ∃ place name, p.refusal? = none ∧ p.names.getLast? = some name ∧
      disk.follow (p.origin directory) p.names.dropLast = .ok place ∧
      disk.writeIn place name p.endsInSlash content = .ok changed := by
  unfold write at h
  cases hrefusal : p.refusal? with
  | some fault => simp [hrefusal] at h
  | none =>
      cases hname : p.names.getLast? with
      | none => simp [hrefusal, hname] at h
      | some name =>
          cases hplace : disk.follow (p.origin directory) p.names.dropLast with
          | error fault => simp [hrefusal, hname, hplace] at h
          | ok place =>
              refine ⟨place, name, rfl, rfl, rfl, ?_⟩
              simpa [hrefusal, hname, hplace] using h

/-- After a write the path leads to the new file, and nothing else has changed. -/
theorem exists_place_of_write (h : disk.write directory p content = .ok changed) :
    ∃ place, changed.locate directory p = .ok place ∧
      changed.at? place = some (.file content) ∧
      ∀ other, other ≠ place → changed.at? other = disk.at? other := by
  rcases exists_of_write_eq_ok h with ⟨above, name, hrefusal, hname, habove, hwrite⟩
  rcases writeIn_eq_ok_iff.1 hwrite with
    ⟨hdirectory, hcurrent, hparent, hslash, hshort, hfile, rfl⟩
  have hne : name :: above ≠ [] := List.cons_ne_nil name above
  have hput (other : Location) : (disk.put (name :: above) (.file content)).at? other =
      if other = name :: above then some (.file content) else disk.at? other :=
    at?_put hne other
  refine ⟨name :: above, ?_, by simp [hput], fun other hother => by simp [hput, hother]⟩
  -- The names before the last lead where they led, and the last leads to the new file.
  rcases List.getLast?_eq_some_iff.1 hname with ⟨front, hnames⟩
  have hfront : p.names.dropLast = front := by simp [hnames]
  have hlast : (disk.put (name :: above) (.file content)).enter above name =
      .ok (name :: above) := by
    apply enter_eq_ok_iff.2
    refine ⟨by simpa [hput] using hdirectory, Or.inr (Or.inr ?_)⟩
    exact ⟨hcurrent, hparent, hshort, by simp [hput], rfl⟩
  have hfollow : (disk.put (name :: above) (.file content)).follow (p.origin directory) p.names =
      .ok (name :: above) := by
    rw [hnames, follow_append, follow_put hne hfile (hfront ▸ habove)]
    simp [follow, hlast]
  simp [locate, hrefusal, hfollow, hslash]

theorem read_of_write (h : disk.write directory p content = .ok changed) :
    changed.read directory p = .ok content := by
  rcases exists_place_of_write h with ⟨place, hlocate, hplace, _⟩
  simp [read, hlocate, hplace]

end Disk
end HeaderAudit

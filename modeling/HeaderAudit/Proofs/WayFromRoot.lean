import HeaderAudit.Proofs.PlainSpelling
import HeaderAudit.Proofs.RootedExemption
import HeaderAudit.Proofs.WrittenFile

/-!
# WayFromRoot — the one relative path that leads from a root to a file

Seen from a root, a file lies at the end of exactly one way: up to the last directory that the two
have in common, and down from there.  Where neither goes up itself, the walk always finds this way,
and going it leads to the file again.  This file defines:

* `Route.common` — what two lists of segments have in common in front;
* `Location.resolve` — the place that names lead to if each `..` takes away the name before it.

`Route.walk_eq_some` says which way a walk finds, `Route.resolve_walk` that it leads to where it
should, and `Disk.locate_eq_resolve` that places on a disk are resolved in this manner.
`Exemptions.covers_by_one_way` is what follows for lists of exemptions.
-/

namespace HeaderAudit

/-! ## What is common in front -/

namespace Route

def common : List Segment → List Segment → List Segment
  | r :: root, s :: path => if s = r then r :: common root path else []
  | _, _ => []

variable {root path way front : List Segment}

theorem common_prefix : common root path <+: root ∧ common root path <+: path := by
  induction root generalizing path with
  | nil => simp [common]
  | cons r root ih =>
      cases path with
      | nil => simp [common]
      | cons s path =>
          by_cases hsame : s = r
          · simpa [common, hsame] using ih
          · simp [common, hsame]

/-- Nothing longer is common. -/
theorem prefix_common (hroot : front <+: root) (hpath : front <+: path) :
    front <+: common root path := by
  induction front generalizing root path with
  | nil => exact List.nil_prefix
  | cons s front ih =>
      rcases hroot with ⟨root, rfl⟩
      rcases hpath with ⟨path, rfl⟩
      simpa [common] using ih (List.prefix_append front root) (List.prefix_append front path)

/-- Where the root does not go up, there is always a way: up to what is common, and then down. -/
theorem walk_eq_some (hroot : Segment.parent ∉ root) :
    walk root path = some (climb (root.drop (common root path).length) ++
      path.drop (common root path).length) := by
  induction root generalizing path with
  | nil => simp [walk, common, climb]
  | cons r root ih =>
      have hr : r ≠ Segment.parent := fun heq => hroot (by simp [heq])
      cases path with
      | nil => simp [walk, common]
      | cons s path =>
          -- The way goes along with both as long as they agree, and then climbs out of the root.
          by_cases hsame : s = r
          · have hrest : Segment.parent ∉ root := fun hmem => hroot (List.mem_cons_of_mem r hmem)
            simp [walk, common, hsame, ih hrest]
          · simp [walk, common, hsame, hr]

end Route

/-! ## Where names lead -/

namespace Location

/-- The place that names lead to from another, if each `..` takes away the name before it. -/
def resolve (place : Location) : List Segment → Location
  | [] => place
  | name :: rest =>
      if name = Segment.parent then resolve place.tail rest else resolve (name :: place) rest

theorem resolve_append (place : Location) (names rest : List Segment) :
    resolve place (names ++ rest) = resolve (resolve place names) rest := by
  induction names generalizing place with
  | nil => rfl
  | cons name names ih =>
      simp only [List.cons_append, resolve]
      split
      · exact ih place.tail
      · exact ih (name :: place)

theorem resolve_of_not_parent (place : Location) {names : List Segment}
    (h : Segment.parent ∉ names) : resolve place names = names.reverse ++ place := by
  induction names generalizing place with
  | nil => rfl
  | cons name names ih =>
      have hname : name ≠ Segment.parent := fun heq => h (by simp [heq])
      have hnames := ih (name :: place) fun hmem => h (List.mem_cons_of_mem name hmem)
      simp [resolve, hname, hnames]

/-- Each step up leaves one name behind. -/
theorem resolve_climb (place : Location) (up : List Segment) :
    resolve place (Route.climb up) = place.drop up.length := by
  induction up generalizing place with
  | nil => rfl
  | cons name up ih =>
      have hstep : resolve place (Route.climb (name :: up)) =
          resolve place.tail (Route.climb up) := by
        simp [Route.climb, resolve]
      rw [hstep, ih, List.drop_tail, List.length_cons]

end Location

namespace Disk

variable {disk : Disk} {directory place next : Location} {p : Path}

/-- A disk has no other places than those that names resolve to. -/
theorem follow_eq_resolve {names : List Segment} (h : disk.follow place names = .ok next) :
    next = place.resolve (names.filter (· ≠ Segment.current)) := by
  have hdistinct : Segment.parent ≠ Segment.current := by decide
  induction names generalizing place with
  | nil =>
      cases h
      rfl
  | cons name rest ih =>
      cases henter : disk.enter place name with
      | error fault => simp [follow, henter] at h
      | ok there =>
          have hrest : next = there.resolve (rest.filter (· ≠ Segment.current)) :=
            ih (by simpa [follow, henter] using h)
          -- Each name moves the place as the resolution of names does.
          rcases (enter_eq_ok_iff.1 henter).2 with
            ⟨rfl, rfl⟩ | ⟨rfl, rfl⟩ | ⟨hcurrent, hparent, _, _, rfl⟩
          · simpa using hrest
          · simpa [hdistinct, Location.resolve] using hrest
          · simpa [hcurrent, hparent, Location.resolve] using hrest

theorem locate_eq_resolve (h : disk.locate directory p = .ok place) :
    place = (p.origin directory).resolve p.segments := by
  have hnames : p.segments = p.names.filter (· ≠ Segment.current) := by
    simp only [Path.segments, Path.names, List.filter_filter]
    apply List.filter_congr
    intro s _
    simp [and_comm]
  rw [hnames]
  exact follow_eq_resolve (follow_of_locate h).2

end Disk

/-! ## The way -/

namespace Route

variable {root path way : List Segment}

/-- Going the way that a walk has found leads from the root to the path. -/
theorem resolve_walk (hroot : Segment.parent ∉ root) (hpath : Segment.parent ∉ path)
    (h : walk root path = some way) : Location.resolve [] (root ++ way) = path.reverse := by
  rcases exists_of_walk_eq_some h with ⟨front, up, down, rfl, rfl, rfl⟩
  have hdown : Segment.parent ∉ down := fun hmem => hpath (List.mem_append_right front hmem)
  -- The steps up undo what the root has behind the common part, and what is left is the path.
  have hclimbed : (up.reverse ++ front.reverse).drop up.length = front.reverse := by
    rw [← List.length_reverse, List.drop_left]
  calc
    Location.resolve [] (front ++ up ++ (climb up ++ down))
        = Location.resolve ((up.reverse ++ front.reverse).drop up.length) down := by
          rw [Location.resolve_append, Location.resolve_of_not_parent [] hroot,
            Location.resolve_append, Location.resolve_climb, List.reverse_append, List.append_nil]
    _ = down.reverse ++ front.reverse := by
          rw [hclimbed, Location.resolve_of_not_parent _ hdown]
    _ = (front ++ down).reverse := List.reverse_append.symm

/-- A way has the segments of the path and `..`. -/
theorem isName_of_mem_walk {p : Path} (h : walk root p.segments = some way) :
    ∀ s ∈ way, s.IsName := by
  rcases exists_of_walk_eq_some h with ⟨front, up, down, _, hp, rfl⟩
  intro s hs
  rcases List.mem_append.1 hs with hup | hdown
  · rcases List.mem_map.1 hup with ⟨_, _, rfl⟩
    exact ⟨by decide, by decide, by decide⟩
  · have hmem : s ∈ p.segments := hp ▸ List.mem_append_right front hdown
    exact Path.isName_of_mem_segments hmem

theorem climb_eq_replicate (up : List Segment) :
    climb up = List.replicate up.length Segment.parent :=
  List.map_const'

end Route

namespace Exemptions

variable {root p : Path}

/-- A single listed path covers a path if it is the way there. -/
theorem covers_under_single_iff (e : Path) (hroot : root.isAbsolute) (hp : p.isAbsolute) :
    ((ofPaths [e]).under root).covers p ↔ e.isAbsolute = false ∧
      Route.walk root.segments p.segments = some e.segments := by
  simp [covers_under_ofPaths_iff [e] hroot hp]

theorem covers_under_names_iff {way : List Segment} (hnames : ∀ s ∈ way, s.IsName)
    (hroot : root.isAbsolute) (hp : p.isAbsolute) :
    ((ofPaths [Route.path ⟨false, way⟩]).under root).covers p ↔
      Route.walk root.segments p.segments = some way := by
  have hroute : (Route.path ⟨false, way⟩).route = ⟨false, way⟩ := Route.route_path hnames
  have hrelative : (Route.path ⟨false, way⟩).isAbsolute = false := congrArg Route.absolute hroute
  have hsegments : (Route.path ⟨false, way⟩).segments = way := congrArg Route.segments hroute
  rw [covers_under_single_iff _ hroot hp, hsegments]
  simp [hrelative]

/-- Between an absolute root and an absolute path that do not go up there is exactly one relative
list of names that, as the only exemption, covers the path under the root.  Whatever single path
covers it is relative and has these names: a `..` for each segment of the root behind the longest
part that root and path have in common in front, and then the rest of the path.  From the root, they
resolve to the path; and where both can be found on a disk, they are found in the same place. -/
theorem covers_by_one_way (root p : Path) (hroot : root.isAbsolute) (hp : p.isAbsolute)
    (hrootDown : Segment.parent ∉ root.segments) (hpDown : Segment.parent ∉ p.segments) :
    (∃! way : List Segment, (∀ s ∈ way, s.IsName) ∧
      ((ofPaths [Route.path ⟨false, way⟩]).under root).covers p) ∧
    ∀ e : Path, ((ofPaths [e]).under root).covers p →
      e.isAbsolute = false ∧
      Location.resolve [] (root.segments ++ e.segments) = p.segments.reverse ∧
      (∀ front, front <+: root.segments → front <+: p.segments →
        (∀ other, other <+: root.segments → other <+: p.segments →
          other.length ≤ front.length) →
        e.segments.count Segment.parent = root.segments.length - front.length ∧
        e.segments = List.replicate (root.segments.length - front.length) Segment.parent ++
          p.segments.drop front.length) ∧
      ∀ (disk : Disk) (directory place place' : Location),
        disk.locate directory (root.join e) = .ok place → disk.locate directory p = .ok place' →
        place = place' := by
  have hwalk : Route.walk root.segments p.segments = some _ := Route.walk_eq_some hrootDown
  refine ⟨?_, ?_⟩
  -- A list of names that covers the path has to be the way, because the walk finds only one.
  · have hnames := Route.isName_of_mem_walk hwalk
    refine ⟨_, ⟨hnames, (covers_under_names_iff hnames hroot hp).2 hwalk⟩, ?_⟩
    rintro other ⟨hother, hcovers⟩
    have hsame := (covers_under_names_iff hother hroot hp).1 hcovers
    exact Option.some.inj (hsame.symm.trans hwalk)
  · intro e hcovers
    rcases (covers_under_single_iff e hroot hp).1 hcovers with ⟨hrelative, he⟩
    have hresolve := Route.resolve_walk hrootDown hpDown he
    refine ⟨hrelative, hresolve, ?_, ?_⟩
    · intro front hfrontRoot hfrontPath hlongest
      -- The longest part in front is the common one, so the way is the one that the walk takes.
      have hfront : front = Route.common root.segments p.segments := by
        have hprefix := Route.prefix_common hfrontRoot hfrontPath
        exact hprefix.eq_of_length_le
          (hlongest _ Route.common_prefix.1 Route.common_prefix.2)
      have hway : e.segments = List.replicate (root.segments.length - front.length)
          Segment.parent ++ p.segments.drop front.length := by
        rw [hfront, Option.some.inj (he.symm.trans hwalk), Route.climb_eq_replicate,
          List.length_drop]
      have hrest : Segment.parent ∉ p.segments.drop front.length :=
        fun hmem => hpDown (List.mem_of_mem_drop hmem)
      refine ⟨?_, hway⟩
      rw [hway, List.count_append, List.count_replicate_self, List.count_eq_zero_of_not_mem hrest]
      rfl
    · intro disk directory place place' hplace hplace'
      have hjoined : (root.join e).origin directory = [] :=
        if_pos (Path.isAbsolute_join hroot e)
      have hplain : p.origin directory = [] := if_pos hp
      calc
        place = Location.resolve [] (root.segments ++ e.segments) := by
              rw [Disk.locate_eq_resolve hplace, hjoined, Path.segments_join]
        _ = p.segments.reverse := hresolve
        _ = Location.resolve [] p.segments := by
              rw [Location.resolve_of_not_parent [] hpDown, List.append_nil]
        _ = place' := by rw [Disk.locate_eq_resolve hplace', hplain]

/-- The way to a file beside the root. -/
theorem covers_by_one_way_beside_root :
    let root := Path.ofString "/w/repo"
    let p := Path.ofString "/w/shared/x.ts"
    let e := Path.ofString "../shared/x.ts"
    root.isAbsolute ∧ p.isAbsolute ∧ Segment.parent ∉ root.segments ∧
      Segment.parent ∉ p.segments ∧ ((ofPaths [e]).under root).covers p ∧
      Location.resolve [] (root.segments ++ e.segments) = p.segments.reverse := by
  intro root p e
  have hcovers : ((ofPaths [e]).under root).covers p := by decide
  have hway := covers_by_one_way root p rfl rfl (by decide) (by decide)
  exact ⟨rfl, rfl, by decide, by decide, hcovers, (hway.2 e hcovers).2.1⟩

/-- A detour through the root itself is not the way that the walk takes. -/
example :
    let root := Path.ofString "/w"
    ¬ ((ofPaths [Path.ofString "../w/x.ts"]).under root).covers (Path.ofString "/w/x.ts") := by
  decide

end Exemptions
end HeaderAudit

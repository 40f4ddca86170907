import HeaderAudit.Proofs.FileNames
import HeaderAudit.Proofs.PathSpelling
import Mathlib.Data.Finset.Card
import Mathlib.Data.Finset.Dedup

/-!
# PlainSpelling — one spelling for each route

A route can be written out again: its segments with one slash between each two, and one slash in
front if it is absolute.  This file defines:

* `Segment.IsName` — what can stand as a segment of a route;
* `Route.path` and `Path.plain` — a route written out, and a path in its plain spelling.

`Route.route_path` says that nothing is lost in writing and nothing added, so alike paths are those
with the same plain spelling.  `Exemptions.covers_iff_alike` says that a list of exemptions covers
what is alike to one of its paths, and how many paths it holds.
-/

namespace HeaderAudit

/-! ## Names -/

/-- Neither empty nor `.`, and without a slash.  The segment `..` is a name. -/
def Segment.IsName (s : Segment) : Prop :=
  s ≠ [] ∧ s ≠ Segment.current ∧ Path.slash ∉ s

namespace Path

variable {names : List Segment} {p q : Path}

theorem isName_of_mem_segments {s : Segment} (h : s ∈ p.segments) : s.IsName := by
  rcases List.mem_filter.1 h with ⟨hpiece, hproper⟩
  have hproper : s ≠ [] ∧ s ≠ Segment.current := by simpa using hproper
  exact ⟨hproper.1, hproper.2, slash_not_mem_of_mem_pieces hpiece⟩

theorem proper_of_isName (h : ∀ s ∈ names, s.IsName) : proper names = names := by
  apply List.filter_eq_self.2
  intro s hs
  simpa using And.intro (h s hs).1 (h s hs).2.1

end Path

/-! ## Routes written out -/

namespace Route

/-- The plainest path of a route. -/
def path (r : Route) : Path :=
  if r.absolute then Path.ofNames r.segments
  else
    match r.segments with
    | [] => Path.empty
    | first :: rest => ⟨first ++ rest.flatMap (Path.slash :: ·)⟩

/-- Writing a route loses none of its segments and adds none. -/
theorem route_path {r : Route} (h : ∀ s ∈ r.segments, s.IsName) : r.path.route = r := by
  -- Only an absolute route begins with a slash, so the two kinds are cut in different ways.
  rcases r with ⟨absolute, names⟩
  cases absolute with
  | true =>
      cases names with
      | nil => rfl
      | cons first rest =>
          have hpieces : (path ⟨true, first :: rest⟩).pieces = [] :: first :: rest := by
            have hslashes : ∀ s ∈ first :: rest, Path.slash ∉ s := fun s hs => (h s hs).2.2
            exact splitOn_append_flatMap List.not_mem_nil hslashes
          have hsegments : (path ⟨true, first :: rest⟩).segments = first :: rest := by
            rw [Path.segments, hpieces]
            exact Path.proper_of_isName h
          rw [Path.route, hsegments]
          rfl
  | false =>
      cases names with
      | nil => rfl
      | cons first rest =>
          rcases h first List.mem_cons_self with ⟨hne, _, hslash⟩
          have hpieces : (path ⟨false, first :: rest⟩).pieces = first :: rest := by
            have hslashes : ∀ s ∈ rest, Path.slash ∉ s := fun s hs =>
              (h s (List.mem_cons_of_mem first hs)).2.2
            exact splitOn_append_flatMap hslash hslashes
          have hsegments : (path ⟨false, first :: rest⟩).segments = first :: rest := by
            rw [Path.segments, hpieces]
            exact Path.proper_of_isName h
          -- What comes first is a name, so there is no slash in front.
          have hrelative : (path ⟨false, first :: rest⟩).isAbsolute = false := by
            cases first with
            | nil => exact absurd rfl hne
            | cons b first =>
                have hb : b ≠ Path.slash := fun heq => hslash (by simp [heq])
                simpa [path, Path.isAbsolute] using hb
          rw [Path.route, hsegments, hrelative]

end Route

namespace Path

/-- The same route, spelled plainly. -/
def plain (p : Path) : Path :=
  p.route.path

theorem route_plain (p : Path) : p.plain.route = p.route :=
  Route.route_path fun _ hs => isName_of_mem_segments hs

/-- A plain spelling stands for all spellings of its route. -/
theorem plain_eq_iff {p q : Path} : p.plain = q.plain ↔ p.Alike q := by
  constructor
  · intro h
    apply alike_iff_route_eq.2
    rw [← route_plain p, h, route_plain q]
  · intro h
    exact congrArg Route.path (alike_iff_route_eq.1 h)

end Path

/-! ## What a list covers -/

namespace Exemptions

variable {root : Option Path} {query : Path}

/-- A path is seen from the root only if both are absolute. -/
theorem lookupRoute?_of_unrooted (entries : List Path)
    (h : query.isAbsolute = true → ∀ r ∈ root, r.isAbsolute = false) :
    (ofEntries entries root).lookupRoute? query = some query.route := by
  unfold lookupRoute?
  rw [root_ofEntries]
  cases root with
  | none => rfl
  | some r =>
      have hinert : ¬ (query.route.absolute = true ∧ r.route.absolute = true) := by
        rintro ⟨hquery, hr⟩
        have hrelative := h hquery r rfl
        rw [Path.route] at hr
        simp [hrelative] at hr
      simp [Route.relativeTo, hinert]

theorem covers_of_unrooted (entries : List Path)
    (h : query.isAbsolute = true → ∀ r ∈ root, r.isAbsolute = false) :
    (ofEntries entries root).covers query ↔ ∃ e ∈ entries, e.Alike query := by
  rw [covers_iff, lookupRoute?_of_unrooted entries h, routes_ofEntries]
  constructor
  · rintro ⟨route, hroute, hquery⟩
    rcases mem_routes_ofPaths.1 hroute with ⟨e, he, rfl⟩
    exact ⟨e, he, Path.alike_iff_route_eq.2 (Option.some.inj hquery).symm⟩
  · rintro ⟨e, he, halike⟩
    refine ⟨e.route, mem_routes_ofPaths.2 ⟨e, he, rfl⟩, ?_⟩
    exact congrArg some (Path.alike_iff_route_eq.1 halike).symm

theorem size_ofEntries (entries : List Path) :
    (ofEntries entries root).size = (entries.map Path.route).toFinset.card := by
  have hroutes : (ofPaths entries).routes.toFinset = (entries.map Path.route).toFinset := by
    ext route
    simp [mem_routes_ofPaths]
  rw [size, routes_ofEntries, ← hroutes]
  exact (List.toFinset_card_of_nodup (nodup_routes_ofPaths entries)).symm

/-- What makes paths alike tells routes apart as well. -/
theorem card_routes (entries : List Path) :
    (entries.map Path.route).toFinset.card = (entries.map fun e =>
      (e.isAbsolute, Path.proper (e.bytes.splitOn Path.slash))).toFinset.card := by
  let parts (r : Route) : Bool × List Segment := (r.absolute, r.segments)
  have hinjective : Function.Injective parts := by
    rintro ⟨absolute, segments⟩ ⟨absolute', segments'⟩ h
    simpa [parts] using h
  have himage : (entries.map fun e =>
      (e.isAbsolute, Path.proper (e.bytes.splitOn Path.slash))).toFinset =
        (entries.map Path.route).toFinset.image parts := by
    ext pair
    simp [parts, Path.route, Path.segments_eq_proper]
  rw [himage, Finset.card_image_of_injective _ hinjective]

/-- Unless both the path and the root are absolute, a list of exemptions covers a path exactly if
the path is alike to one of the list, that is, if the plain spelling of the path is that of one of
the list.  Neither the order of the list counts nor how often a path stands on it, whatever the
root.  The size of the list is the number of its paths up to spelling. -/
theorem covers_iff_alike (entries : List Path) (root : Option Path) :
    (∀ query : Path, (query.isAbsolute = true → ∀ r ∈ root, r.isAbsolute = false) →
      ((ofEntries entries root).covers query ↔ ∃ e ∈ entries, e.Alike query) ∧
      ((ofEntries entries root).covers query ↔ query.plain ∈ entries.map Path.plain)) ∧
    (∀ entries' : List Path, (∀ e, e ∈ entries ↔ e ∈ entries') →
      (∀ query, (ofEntries entries root).covers query = (ofEntries entries' root).covers query) ∧
      (ofEntries entries root).size = (ofEntries entries' root).size) ∧
    (ofEntries entries root).size = (entries.map fun e =>
      (e.isAbsolute, Path.proper (e.bytes.splitOn Path.slash))).toFinset.card := by
  refine ⟨?_, ?_, ?_⟩
  · intro query h
    have hcovers := covers_of_unrooted entries h
    refine ⟨hcovers, hcovers.trans ?_⟩
    simp only [List.mem_map, Path.plain_eq_iff]
  · intro entries' hsame
    -- A list counts only through the set of its routes.
    have hroutes (route : Route) :
        route ∈ (ofPaths entries).routes ↔ route ∈ (ofPaths entries').routes := by
      simp only [mem_routes_ofPaths, hsame]
    have hdistinct : (entries.map Path.route).toFinset = (entries'.map Path.route).toFinset := by
      ext route
      simp [hsame]
    refine ⟨?_, ?_⟩
    · intro query
      apply Bool.eq_iff_iff.2
      simp only [covers_iff, lookupRoute?, root_ofEntries, routes_ofEntries, hroutes]
    · rw [size_ofEntries, size_ofEntries, hdistinct]
  · exact (size_ofEntries entries).trans (card_routes entries)

/-- Five paths, two of them the same in other words, under a root that does not count. -/
theorem covers_iff_alike_among_five :
    let entries := ["", "../a.ts", "a.ts/", "/b.ts", ".//a.ts"].map Path.ofString
    let e := ofEntries entries (some (Path.ofString "w"))
    let twice := ofEntries (entries.reverse ++ entries) (some (Path.ofString "w"))
    (∃ listed ∈ entries, listed.Alike (Path.ofString "/./b.ts")) ∧
      e.covers (Path.ofString "/./b.ts") ∧ ¬ e.covers (Path.ofString "w/../a.ts") ∧
      e.size = 4 ∧ twice.size = 4 := by
  intro entries e twice
  have hall := covers_iff_alike entries (some (Path.ofString "w"))
  have hlisted : ∃ listed ∈ entries, listed.Alike (Path.ofString "/./b.ts") :=
    ⟨Path.ofString "/b.ts", by decide, by decide⟩
  have hcovered := (hall.1 (Path.ofString "/./b.ts") fun _ r hr => by cases hr; rfl).1
  have hsize : e.size = 4 := rfl
  have hsame : ∀ p, p ∈ entries ↔ p ∈ entries.reverse ++ entries := by
    intro p
    simp
  exact ⟨hlisted, hcovered.2 hlisted, by decide, hsize, (hall.2.1 _ hsame).2 ▸ hsize⟩

end Exemptions
end HeaderAudit

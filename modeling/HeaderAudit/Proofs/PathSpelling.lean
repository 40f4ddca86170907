import HeaderAudit.Run
import HeaderAudit.Proofs.JoinedPath

/-!
# PathSpelling — what a path is called does not matter

The same place can be spelled in many ways: with `.` in between, with doubled slashes, with a slash
at the end.  Three analyses look at a path, for its comment style, for an exemption and for the test
that forwards it, and each has its own use of the segments.  This file defines:

* `Path.Alike` — two paths with the same segments that count;
* `Path.Respells` — one change of spelling, at any place of a path;
* `Exemptions.ofEntries` — a list of exempt paths with or without a root.

`Path.judged_alike` says that alike paths are forwarded, exempted and judged alike, also where the
lists of exemptions are themselves spelled in two ways.
-/

namespace HeaderAudit
namespace Path

/-! ## Spelling -/

/-- The parts that count: neither empty nor `.`. -/
def proper (parts : List Segment) : List Segment :=
  parts.filter fun part => part ≠ [] ∧ part ≠ Segment.current

/-- Both absolute or both relative, with the same parts that count between the slashes. -/
def Alike (p q : Path) : Prop :=
  p.isAbsolute = q.isAbsolute ∧
    proper (p.bytes.splitOn slash) = proper (q.bytes.splitOn slash)

instance (p q : Path) : Decidable (p.Alike q) :=
  inferInstanceAs (Decidable (_ ∧ _))

/-- The empty path. -/
def empty : Path := ⟨[]⟩

/-- The path `.`. -/
def here : Path := ⟨Segment.current⟩

/-- One change of spelling: a `./` in front of a relative path, a slash doubled or a `/./` put for
a slash, and a slash or `/.` at the end of a path that is not empty. -/
inductive Respells : Path → Path → Prop
  | leadingHere (p : Path) : p.isAbsolute = false → Respells (here.join p) p
  | doubledSlash (a b : Path) : Respells (a.join (empty.join b)) (a.join b)
  | innerHere (a b : Path) : Respells (a.join (here.join b)) (a.join b)
  | trailingSlash (p : Path) : p ≠ empty → Respells (p.join empty) p
  | trailingHere (p : Path) : p ≠ empty → Respells (p.join here) p

theorem segments_eq_proper (p : Path) : p.segments = proper (p.bytes.splitOn slash) :=
  rfl

/-- Alike paths are those with the same route. -/
theorem alike_iff_route_eq {p q : Path} : p.Alike q ↔ p.route = q.route := by
  simp [Alike, route, segments_eq_proper]

theorem Alike.segments_eq {p q : Path} (h : p.Alike q) : p.segments = q.segments :=
  congrArg Route.segments (alike_iff_route_eq.1 h)

/-! ## Changes of spelling -/

/-- What stands in front decides whether a path is absolute. -/
theorem isAbsolute_join_eq (a b c : Path) : (a.join b).isAbsolute = (a.join c).isAbsolute := by
  cases h : a.bytes with
  | nil => simp [isAbsolute, join, h]
  | cons first rest => simp [isAbsolute, join, h]

theorem isAbsolute_join_of_ne {p : Path} (h : p ≠ empty) (b : Path) :
    (p.join b).isAbsolute = p.isAbsolute := by
  cases hbytes : p.bytes with
  | nil => exact absurd (congrArg Path.mk hbytes) h
  | cons first rest => simp [isAbsolute, join, hbytes]

/-- Neither the empty path nor `.` has a segment, so at the seam of two paths they are lost. -/
theorem Respells.alike {p q : Path} (h : Respells p q) : p.Alike q := by
  have hempty : empty.segments = [] := rfl
  have hhere : here.segments = [] := rfl
  apply alike_iff_route_eq.2
  -- A change of spelling puts in one more part, which has no segment.
  cases h with
  | leadingHere p hrelative =>
      have habsolute : (here.join q).isAbsolute = q.isAbsolute := by
        simp [isAbsolute_join_of_ne (p := here) (by decide), hrelative]
        rfl
      simp [route, habsolute, segments_join, hhere]
  | doubledSlash a b =>
      simp [route, isAbsolute_join_eq a (empty.join b) b, segments_join, hempty]
  | innerHere a b =>
      simp [route, isAbsolute_join_eq a (here.join b) b, segments_join, hhere]
  | trailingSlash p hne =>
      simp [route, isAbsolute_join_of_ne hne, segments_join, hempty]
  | trailingHere p hne =>
      simp [route, isAbsolute_join_of_ne hne, segments_join, hhere]

/-! ## What looks at a path -/

variable {p q : Path}

theorem fileName?_congr (h : p.segments = q.segments) : p.fileName? = q.fileName? := by
  simp [fileName?, h]

theorem ofPath?_congr (h : p.segments = q.segments) :
    CommentStyle.ofPath? p = CommentStyle.ofPath? q := by
  simp [CommentStyle.ofPath?, extension?, fileName?_congr h]

theorem forwards_congr (everyStyle : Bool) (h : p.segments = q.segments) :
    forwards everyStyle p = forwards everyStyle q := by
  simp [forwards, fileName?_congr h]

end Path

/-! ## Lists of exemptions -/

namespace Exemptions

/-- A list of exempt paths, seen from a root if there is one. -/
def ofEntries (entries : List Path) : Option Path → Exemptions
  | none => ofPaths entries
  | some root => (ofPaths entries).under root

/-- Every path of either list is alike to one of the other. -/
def EntriesAlike (entries entries' : List Path) : Prop :=
  (∀ e ∈ entries, ∃ e' ∈ entries', e.Alike e') ∧
    ∀ e' ∈ entries', ∃ e ∈ entries, e.Alike e'

variable {p q : Path} {entries entries' : List Path} {root root' : Option Path}

theorem routes_ofEntries : (ofEntries entries root).routes = (ofPaths entries).routes := by
  cases root <;> rfl

theorem root_ofEntries : (ofEntries entries root).root = root.map Path.route := by
  cases root <;> rfl

/-- Lists that are alike hold the same routes. -/
theorem mem_routes_congr (h : EntriesAlike entries entries') (route : Route) :
    route ∈ (ofPaths entries).routes ↔ route ∈ (ofPaths entries').routes := by
  constructor
  · intro hmem
    rcases mem_routes_ofPaths.1 hmem with ⟨e, he, rfl⟩
    rcases h.1 e he with ⟨e', he', halike⟩
    exact mem_routes_ofPaths.2 ⟨e', he', (Path.alike_iff_route_eq.1 halike).symm⟩
  · intro hmem
    rcases mem_routes_ofPaths.1 hmem with ⟨e', he', rfl⟩
    rcases h.2 e' he' with ⟨e, he, halike⟩
    exact mem_routes_ofPaths.2 ⟨e, he, Path.alike_iff_route_eq.1 halike⟩

theorem root_congr (h : Option.Rel Path.Alike root root') :
    root.map Path.route = root'.map Path.route := by
  cases h with
  | none => rfl
  | some halike => exact congrArg some (Path.alike_iff_route_eq.1 halike)

theorem covers_congr (hpath : p.Alike q) (hentries : EntriesAlike entries entries')
    (hroot : Option.Rel Path.Alike root root') :
    (ofEntries entries root).covers p = (ofEntries entries' root').covers q := by
  have hlookup :
      (ofEntries entries root).lookupRoute? p = (ofEntries entries' root').lookupRoute? q := by
    simp [lookupRoute?, root_ofEntries, root_congr hroot, Path.alike_iff_route_eq.1 hpath]
  apply Bool.eq_iff_iff.2
  simp only [covers_iff, routes_ofEntries, hlookup, mem_routes_congr hentries]

end Exemptions

namespace Path

open Exemptions

/-- The verdict looks at a path only for its exemption and for its comment style. -/
theorem verdict_congr {e e' : Exemptions} {p q : Path} (hcovers : e.covers p = e'.covers q)
    (hstyle : CommentStyle.ofPath? p = CommentStyle.ofPath? q) (content : String) :
    Verdict.of e p content = Verdict.of e' q content := by
  simp [Verdict.of, hcovers, hstyle]

/-- Every change of spelling leads to an alike path.  Alike paths have the same comment style and
pass the same test for being forwarded; and under lists of exemptions whose paths and whose roots
are alike they are covered alike and get the same verdict on every content. -/
theorem judged_alike :
    (∀ p q : Path, Respells p q → p.Alike q) ∧
    ∀ p q : Path, p.Alike q →
      CommentStyle.ofPath? p = CommentStyle.ofPath? q ∧
      (∀ everyStyle, forwards everyStyle p = forwards everyStyle q) ∧
      ∀ (entries entries' : List Path) (root root' : Option Path),
        EntriesAlike entries entries' → Option.Rel Alike root root' →
        (ofEntries entries root).covers p = (ofEntries entries' root').covers q ∧
        ∀ content, Verdict.of (ofEntries entries root) p content =
          Verdict.of (ofEntries entries' root') q content := by
  refine ⟨fun p q h => h.alike, ?_⟩
  intro p q hpath
  have hsegments := hpath.segments_eq
  have hstyle := ofPath?_congr hsegments
  refine ⟨hstyle, fun everyStyle => forwards_congr everyStyle hsegments, ?_⟩
  intro entries entries' root root' hentries hroot
  have hcovers := covers_congr hpath hentries hroot
  exact ⟨hcovers, verdict_congr hcovers hstyle⟩

/-- Two spellings of a listed file below two spellings of a root. -/
theorem judged_alike_below_root :
    let p := ofString "/w/.//package.json"
    let q := ofString "/w/package.json/."
    let entries := ["./package.json", "a.ts"].map ofString
    let entries' := ["a.ts/", "package.json"].map ofString
    let e := ofEntries entries (some (ofString "//w"))
    let e' := ofEntries entries' (some (ofString "/w/"))
    p.Alike q ∧ EntriesAlike entries entries' ∧ e.covers p = e'.covers q ∧ e'.covers q ∧
      Verdict.of e p "" = Verdict.of e' q "" := by
  intro p q entries entries' e e'
  have hpath : p.Alike q := by decide
  have hentries : EntriesAlike entries entries' := by
    refine ⟨List.forall_mem_cons.2 ⟨?_, List.forall_mem_singleton.2 ?_⟩,
      List.forall_mem_cons.2 ⟨?_, List.forall_mem_singleton.2 ?_⟩⟩
    · exact ⟨ofString "package.json", by decide, by decide⟩
    · exact ⟨ofString "a.ts/", by decide, by decide⟩
    · exact ⟨ofString "a.ts", by decide, by decide⟩
    · exact ⟨ofString "./package.json", by decide, by decide⟩
  have hroot : Option.Rel Alike (some (ofString "//w")) (some (ofString "/w/")) :=
    .some (by decide)
  rcases (judged_alike.2 p q hpath).2.2 entries entries' _ _ hentries hroot with ⟨hcovers, hof⟩
  exact ⟨hpath, hentries, hcovers, by decide, hof ""⟩

end Path
end HeaderAudit

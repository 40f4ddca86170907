import HeaderAudit.Exemption
import HeaderAudit.Proofs.JoinedPath

/-!
# RootedExemption — exemptions seen from a root

Under a root, an absolute path is walked to from that root before it is looked up.
`exists_of_walk_eq_some` says what every walk does: it drops what the root and the path have in
common in front, climbs out of the rest of the root, and goes down the rest of the path.  A listed
path that never goes up therefore covers exactly itself below the root, which is
`covers_under_iff_segments`.
-/

namespace HeaderAudit
namespace Route

variable {root path rest : List Segment}

theorem exists_of_walk_eq_some (h : walk root path = some rest) :
    ∃ common up down, root = common ++ up ∧ path = common ++ down ∧
      rest = climb up ++ down := by
  -- Only the first case of the walk goes on, so the induction is on what it takes off the root.
  induction root generalizing path with
  | nil =>
      have hrest : path = rest := by simpa [walk] using h
      exact ⟨[], [], rest, rfl, hrest, rfl⟩
  | cons r root ih =>
      cases path with
      | nil =>
          cases h
          exact ⟨[], r :: root, [], rfl, rfl, (List.append_nil _).symm⟩
      | cons s path =>
          unfold walk at h
          split at h
          · -- A common segment in front belongs to neither of the two rests.
            rename_i hsame
            rcases ih h with ⟨common, up, down, rfl, rfl, hrest⟩
            exact ⟨r :: common, up, down, rfl, by simp [hsame], hrest⟩
          · split at h
            · cases h
            · cases h
              exact ⟨[], r :: root, s :: path, rfl, rfl, rfl⟩

/-- A walk that never goes up starts at a directory above its end. -/
theorem walk_eq_some_iff_of_not_parent (hrest : Segment.parent ∉ rest) :
    walk root path = some rest ↔ path = root ++ rest := by
  constructor
  · intro h
    rcases exists_of_walk_eq_some h with ⟨common, up, down, rfl, rfl, rfl⟩
    cases up with
    | nil => simp [climb]
    | cons r up =>
        -- What is left of the root costs a step up, and there is none.
        have hparent : Segment.parent ∈ climb (r :: up) := by simp [climb]
        exact absurd (List.mem_append_left down hparent) hrest
  · intro h
    have hwalk := walk_append root rest
    rwa [← h] at hwalk

end Route

/-- Relative, and without `..`. -/
def Path.Descends (p : Path) : Prop :=
  p.isAbsolute = false ∧ Segment.parent ∉ p.segments

instance : DecidablePred Path.Descends :=
  fun _ => inferInstanceAs (Decidable (_ ∧ _))

namespace Exemptions

variable {root p : Path}

/-- Of a list of paths, an absolute path is covered by those that say how to walk to it. -/
theorem covers_under_ofPaths_iff (entries : List Path) (hroot : root.isAbsolute)
    (hp : p.isAbsolute) :
    ((ofPaths entries).under root).covers p ↔
      ∃ e ∈ entries, e.isAbsolute = false ∧
        Route.walk root.segments p.segments = some e.segments := by
  -- Since both are absolute, what is looked up is the way from the root to the path.
  have hlookup : ((ofPaths entries).under root).lookupRoute? p =
      (Route.walk root.segments p.segments).map (⟨false, ·⟩) := by
    have habsolute : p.route.absolute ∧ root.route.absolute := ⟨hp, hroot⟩
    simp only [lookupRoute?, under, Route.relativeTo, habsolute, and_self, if_true]
    rfl
  have hcovers := @covers_iff ((ofPaths entries).under root) p
  constructor
  · intro h
    rcases hcovers.1 h with ⟨route, hroute, hroutes⟩
    have hwalk := hlookup.symm.trans hroutes
    rcases mem_routes_ofPaths.1 hroute with ⟨e, he, rfl⟩
    rcases Option.map_eq_some_iff.1 hwalk with ⟨segments, hsegments, heq⟩
    have habsolute : e.isAbsolute = false := (congrArg Route.absolute heq).symm
    have hsame : segments = e.segments := congrArg Route.segments heq
    exact ⟨e, he, habsolute, hsame ▸ hsegments⟩
  · intro h
    rcases h with ⟨e, he, habsolute, hwalk⟩
    have hroute : e.route ∈ (ofPaths entries).routes := mem_routes_ofPaths.2 ⟨e, he, rfl⟩
    refine hcovers.2 ⟨e.route, hroute, ?_⟩
    simp [hlookup, hwalk, Path.route, habsolute]

theorem descends_of_mem_standard : ∀ e ∈ standardPaths.map Path.ofString, e.Descends := by
  decide

/-- The standard list holds only paths that descend.  Such a list, seen from an absolute root,
covers of the absolute paths exactly those that have the segments of the root and then those of a
listed path; so nothing outside of the root is covered, and every listed path below the root is. -/
theorem covers_under_iff_segments :
    (∀ e ∈ standardPaths.map Path.ofString, e.Descends) ∧
    ∀ (entries : List Path) (root : Path), (∀ e ∈ entries, e.Descends) → root.isAbsolute →
      (∀ p : Path, p.isAbsolute →
        (((ofPaths entries).under root).covers p ↔
          ∃ e ∈ entries, p.segments = root.segments ++ e.segments)) ∧
      (∀ p : Path, p.isAbsolute → ¬ root.segments <+: p.segments →
        ((ofPaths entries).under root).covers p = false) ∧
      ∀ e ∈ entries, ((ofPaths entries).under root).covers (root.join e) := by
  refine ⟨descends_of_mem_standard, ?_⟩
  intro entries root hentries hroot
  -- A way that does not climb is what the path has behind the root.
  have hcovers : ∀ p : Path, p.isAbsolute →
      (((ofPaths entries).under root).covers p ↔
        ∃ e ∈ entries, p.segments = root.segments ++ e.segments) := by
    intro p hp
    have hwalks := covers_under_ofPaths_iff entries hroot hp
    constructor
    · intro h
      rcases hwalks.1 h with ⟨e, he, _, hwalk⟩
      exact ⟨e, he, (Route.walk_eq_some_iff_of_not_parent (hentries e he).2).1 hwalk⟩
    · intro h
      rcases h with ⟨e, he, hsegments⟩
      have hwalk := (Route.walk_eq_some_iff_of_not_parent (hentries e he).2).2 hsegments
      exact hwalks.2 ⟨e, he, (hentries e he).1, hwalk⟩
  refine ⟨hcovers, ?_, ?_⟩
  · intro p hp houtside
    apply Bool.eq_false_iff.2
    intro h
    rcases (hcovers p hp).1 h with ⟨e, _, hsegments⟩
    exact houtside ⟨e.segments, hsegments.symm⟩
  · intro e he
    apply (hcovers (root.join e) (Path.isAbsolute_join hroot e)).2
    exact ⟨e, he, Path.segments_join root e⟩

/-- A root counts as it is written, with its `..`. -/
theorem covers_under_iff_segments_with_parent :
    let root := Path.ofString "/a/.."
    let listed := Path.ofString "esbuild.mjs"
    listed ∈ standardPaths.map Path.ofString ∧ listed.Descends ∧ root.isAbsolute ∧
      (standard.under root).covers (root.join listed) ∧
      (standard.under root).covers (Path.ofString "/a/.././esbuild.mjs") ∧
      (standard.under root).covers (Path.ofString "/esbuild.mjs") = false := by
  intro root listed
  have hlisted : listed ∈ standardPaths.map Path.ofString := by decide
  rcases covers_under_iff_segments with ⟨hdescends, hcovers⟩
  rcases hcovers (standardPaths.map Path.ofString) root hdescends (by decide) with
    ⟨hsegments, houtside, hjoined⟩
  refine ⟨hlisted, hdescends listed hlisted, by decide, hjoined listed hlisted, ?_, ?_⟩
  · exact (hsegments (Path.ofString "/a/.././esbuild.mjs") (by decide)).2
      ⟨listed, hlisted, by decide⟩
  · exact houtside (Path.ofString "/esbuild.mjs") (by decide) (by decide)

end Exemptions
end HeaderAudit

import HeaderAudit.Proofs.Tallies
import Mathlib.Data.List.Basic

/-!
# FailureListing — the list on standard output can be read back

Whoever reads standard output line by line finds the banner, and then the failing paths.  As long as
no path has a line feed in it, this is all that can be found there.  This file defines:

* `Console.lines?` — the lines of a text, if all of them are ended;
* `Console.pathsListed?` — the paths on a list, if the text is one.

`lines?_eq_some_iff` and `pathsListed?_eq_some_iff` say that nothing else is read than what is
written.  `ofLines_prefix_iff` compares texts by their fronts, and `failureList_reads_back` puts all
of it together.
-/

namespace HeaderAudit
namespace Console

/-! ## Lines -/

/-- No line feed is part of a line. -/
def OneLine (s : String) : Prop :=
  '\n' ∉ s.toList

instance : DecidablePred OneLine :=
  fun s => inferInstanceAs (Decidable ('\n' ∉ s.toList))

/-- The lines of a text.  There is no reading where the last line is not ended. -/
def lines? (text : String) : Option (List String) :=
  match (text.toList.splitOn '\n').reverse with
  | [] :: ended => some (ended.reverse.map String.ofList)
  | _ => none

theorem splitOn_ofLines_append {lines : List String} (h : ∀ line ∈ lines, OneLine line)
    (rest : List Char) :
    ((ofLines lines).toList ++ rest).splitOn '\n' =
      lines.map String.toList ++ rest.splitOn '\n' := by
  induction lines with
  | nil => rfl
  | cons line others ih =>
      have hline : '\n' ∉ line.toList := h line (by simp)
      have hothers : ∀ other ∈ others, OneLine other :=
        fun other hmem => h other (List.mem_cons_of_mem line hmem)
      rw [toList_ofLines_cons, List.append_assoc, List.cons_append,
        List.splitOn_append_cons_self_of_not_mem hline, ih hothers]
      rfl

theorem splitOn_ofLines {lines : List String} (h : ∀ line ∈ lines, OneLine line) :
    (ofLines lines).toList.splitOn '\n' = lines.map String.toList ++ [[]] := by
  simpa using splitOn_ofLines_append h []

theorem toList_ofLines_ofList (parts : List (List Char)) :
    (ofLines (parts.map String.ofList)).toList = ['\n'].intercalate (parts ++ [[]]) := by
  induction parts with
  | nil => rfl
  | cons part others ih =>
      rw [List.map_cons, toList_ofLines_cons, ih, List.cons_append,
        List.intercalate_cons_of_ne_nil (by simp)]
      simp

/-- Reading lines is the converse of writing them. -/
theorem lines?_eq_some_iff {text : String} {lines : List String} :
    lines? text = some lines ↔ (∀ line ∈ lines, OneLine line) ∧ text = ofLines lines := by
  constructor
  · intro h
    unfold lines? at h
    split at h
    · rename_i ended hended
      -- The last part stands behind the last line feed, and here it is empty.
      have hparts : text.toList.splitOn '\n' = ended.reverse ++ [[]] := by
        simpa using congrArg List.reverse hended
      cases h
      refine ⟨?_, ?_⟩
      · intro line hline
        rcases List.mem_map.1 hline with ⟨part, hpart, rfl⟩
        have hmem : part ∈ text.toList.splitOn '\n' := by
          rw [hparts]
          exact List.mem_append_left _ hpart
        simpa [OneLine] using not_mem_of_mem_splitOn hmem
      · apply String.toList_injective
        rw [toList_ofLines_ofList, ← hparts, List.intercalate_splitOn]
    · cases h
  · rintro ⟨hlines, rfl⟩
    simp [lines?, splitOn_ofLines hlines]

/-- One text of lines begins with another exactly if its lines begin with the other's. -/
theorem ofLines_prefix_iff {lines others : List String} (h : ∀ line ∈ lines, OneLine line)
    (h' : ∀ line ∈ others, OneLine line) :
    (ofLines lines).toList <+: (ofLines others).toList ↔ lines <+: others := by
  constructor
  · rintro ⟨rest, hrest⟩
    -- Both sides are cut at their line feeds; what is left over gives at least one part.
    have hparts : lines.map String.toList ++ rest.splitOn '\n' =
        others.map String.toList ++ [[]] := by
      rw [← splitOn_ofLines_append h, hrest, splitOn_ofLines h']
    have hleft : 0 < (rest.splitOn '\n').length :=
      List.length_pos_iff.2 (List.splitOn_ne_nil '\n' rest)
    have hshort : (lines.map String.toList).length ≤ (others.map String.toList).length := by
      have hlengths := congrArg List.length hparts
      simp only [List.length_append, List.length_singleton] at hlengths
      omega
    have hfront : lines.map String.toList <+: others.map String.toList :=
      List.prefix_of_prefix_length_le ⟨_, hparts⟩ (List.prefix_append _ _) hshort
    have hinjective : Function.Injective String.toList := fun _ _ => String.toList_injective
    exact (List.prefix_map_iff_of_injective hinjective).1 hfront
  · rintro ⟨more, rfl⟩
    simp [ofLines, String.toList_join]

/-! ## The list of failing paths -/

/-- The paths on a list of failures. -/
def pathsListed? (text : String) : Option (List String) :=
  match lines? text with
  | some [] => some []
  | some (first :: path :: rest) => if first = banner then some (path :: rest) else none
  | _ => none

theorem oneLine_banner : OneLine banner := by
  decide

variable {paths others : List String}

theorem failureList_of_ne_nil (h : paths ≠ []) : failureList paths = ofLines (banner :: paths) := by
  cases paths with
  | nil => exact absurd rfl h
  | cons first rest => rfl

theorem oneLine_of_mem_listing (h : ∀ path ∈ paths, OneLine path) :
    ∀ line ∈ banner :: paths, OneLine line :=
  List.forall_mem_cons.2 ⟨oneLine_banner, h⟩

theorem lines?_failureList (h : ∀ path ∈ paths, OneLine path) (hne : paths ≠ []) :
    lines? (failureList paths) = some (banner :: paths) :=
  lines?_eq_some_iff.2 ⟨oneLine_of_mem_listing h, failureList_of_ne_nil hne⟩

/-- The banner alone is no list, since nothing is printed where no path fails. -/
theorem pathsListed?_eq_some_iff {text : String} :
    pathsListed? text = some paths ↔ (∀ path ∈ paths, OneLine path) ∧ text = failureList paths := by
  constructor
  · intro h
    unfold pathsListed? at h
    -- Without a line no path is listed, and a first line has to be the banner.
    split at h
    · rename_i hlines
      cases h
      exact ⟨by simp, (lines?_eq_some_iff.1 hlines).2⟩
    · rename_i first path rest hlines
      split at h
      · rename_i hbanner
        cases h
        rcases lines?_eq_some_iff.1 hlines with ⟨honeLine, rfl⟩
        refine ⟨fun other hother => honeLine other (List.mem_cons_of_mem first hother), ?_⟩
        rw [hbanner]
        rfl
      · cases h
    · cases h
  · rintro ⟨hpaths, rfl⟩
    cases paths with
    | nil => rfl
    | cons first rest =>
        have hlines := lines?_failureList hpaths (List.cons_ne_nil first rest)
        simp [pathsListed?, hlines]

theorem failureList_prefix_iff (h : ∀ path ∈ paths, OneLine path)
    (h' : ∀ path ∈ others, OneLine path) :
    (failureList paths).toList <+: (failureList others).toList ↔ paths <+: others := by
  by_cases hne : paths = []
  · subst hne
    exact iff_of_true List.nil_prefix List.nil_prefix
  · by_cases hne' : others = []
    · -- Nothing is printed for the other list, so the front of it is not printed either.
      subst hne'
      have hnothing : (failureList []).toList = [] := rfl
      rw [hnothing, List.prefix_nil, List.prefix_nil, String.toList_eq_nil_iff,
        failureList_eq_empty_iff]
    · rw [failureList_of_ne_nil hne, failureList_of_ne_nil hne',
        ofLines_prefix_iff (oneLine_of_mem_listing h) (oneLine_of_mem_listing h'),
        List.cons_prefix_cons]
      simp

/-- More paths are printed behind those that are there, whatever is in them. -/
theorem failureList_prefix_append (paths more : List String) :
    (failureList paths).toList <+: (failureList (paths ++ more)).toList := by
  cases paths with
  | nil => exact List.nil_prefix
  | cons first rest => simp [failureList, ofLines, String.toList_join]

/-- Of failing paths without line feeds, which may be empty, look like the banner or come more than
once, the text on standard output is empty exactly if there are none.  Otherwise all of its lines
are ended, the first is the banner and the others are the paths in order.  A reader of the text gets
these paths, and gets them from no other text.  So another list is not printed as the same text, and
the text of a list is the front of the text of another exactly if the list is the front of it. -/
theorem failureList_reads_back (paths : List String) (h : ∀ path ∈ paths, OneLine path) :
    (failureList paths = "" ↔ paths = []) ∧
      (paths ≠ [] → lines? (failureList paths) = some (banner :: paths) ∧
        (failureList paths).toList.splitOn '\n' = (banner :: paths).map String.toList ++ [[]]) ∧
      (∀ text, pathsListed? text = some paths ↔ text = failureList paths) ∧
      (∀ more, (failureList paths).toList <+: (failureList (paths ++ more)).toList) ∧
      ∀ others, (∀ path ∈ others, OneLine path) →
        (failureList paths = failureList others ↔ paths = others) ∧
        ((failureList paths).toList <+: (failureList others).toList ↔ paths <+: others) := by
  have hread (text : String) : pathsListed? text = some paths ↔ text = failureList paths := by
    rw [pathsListed?_eq_some_iff, and_iff_right h]
  refine ⟨failureList_eq_empty_iff paths, ?_, hread, failureList_prefix_append paths, ?_⟩
  · intro hne
    refine ⟨lines?_failureList h hne, ?_⟩
    rw [failureList_of_ne_nil hne]
    exact splitOn_ofLines (oneLine_of_mem_listing h)
  · intro others hothers
    refine ⟨?_, failureList_prefix_iff h hothers⟩
    -- A reader gets one list from a text, so equal texts are those of equal lists.
    constructor
    · intro hsame
      have hread' : pathsListed? (failureList others) = some others :=
        pathsListed?_eq_some_iff.2 ⟨hothers, rfl⟩
      rw [← hsame, (hread _).2 rfl] at hread'
      exact Option.some.inj hread'
    · rintro rfl
      rfl

/-- An empty path, one that looks like the banner, and one that comes twice. -/
theorem failureList_reads_back_beside_banner :
    let paths := ["", banner, "a.ts", "a.ts"]
    (∀ path ∈ paths, OneLine path) ∧
      lines? (failureList paths) = some [banner, "", banner, "a.ts", "a.ts"] ∧
      pathsListed? (failureList paths) = some paths ∧
      failureList paths ≠ failureList [banner, "", "a.ts", "a.ts"] ∧
      ¬ (failureList paths).toList <+: (failureList ["", banner, "a.ts"]).toList := by
  intro paths
  have hpaths : ∀ path ∈ paths, OneLine path := by decide
  rcases failureList_reads_back paths hpaths with ⟨_, hlines, hread, _, hcompare⟩
  have hturned := (hcompare [banner, "", "a.ts", "a.ts"] (by decide)).1
  have hshorter := (hcompare ["", banner, "a.ts"] (by decide)).2
  refine ⟨hpaths, (hlines (by decide)).1, (hread _).2 rfl, ?_, ?_⟩
  · exact mt hturned.1 (by decide)
  · exact mt hshorter.1 (by decide)

end Console
end HeaderAudit

import HeaderAudit.Proofs.NoticeSpelling
import HeaderAudit.Proofs.OnePass
import Mathlib.Logic.ExistsUnique

/-!
# OneMiddle — what trimming leaves, and when to unify the breaks

There is only one way to cut blanks off both ends of a text so that what is left is solid or empty,
and `trim` finds it.  Breaks are blanks, and a solid middle touches them with characters that are
none.  So no break reaches from the margins into the middle, and the breaks of a text may be unified
before it is trimmed or after.  This file defines `Framed`, a text cut into two margins and a
middle.

`Framed.trim_eq` says that the middle is what trimming leaves, `existsUnique_margins` that the
margins are determined as well, and `trim_unify` that the two steps commute.
`trim_finds_one_middle` puts them together, with what this means for the verdict on a file.
-/

namespace HeaderAudit
namespace Blank

open Newline

/-! ## Both ends -/

theorem trimEnd_eq_reverse (s : List Char) : trimEnd s = (trimStart s.reverse).reverse :=
  rfl

theorem trimStart_eq_nil {s : List Char} (h : ∀ c ∈ s, isBlank c) : trimStart s = [] := by
  simpa [trimStart] using trimStart_append_of_blank h []

theorem trimEnd_append_of_blank {b : List Char} (hb : ∀ c ∈ b, isBlank c) (s : List Char) :
    trimEnd (s ++ b) = trimEnd s := by
  have hreverse : ∀ c ∈ b.reverse, isBlank c := fun c hc => hb c (List.mem_reverse.1 hc)
  have hdrop : trimStart (b.reverse ++ s.reverse) = trimStart s.reverse :=
    trimStart_append_of_blank hreverse s.reverse
  rw [trimEnd_eq_reverse, List.reverse_append, hdrop, trimEnd_eq_reverse]

theorem Solid.reverse {s : List Char} (h : Solid s) : Solid s.reverse := by
  rcases h with ⟨hfirst, hlast⟩
  exact ⟨by rwa [List.head?_reverse], by rwa [List.getLast?_reverse]⟩

theorem Solid.trimEnd_eq {s : List Char} (h : Solid s) : trimEnd s = s := by
  have hkept : trimStart s.reverse = s.reverse := by simpa using h.reverse.trimStart_append []
  rw [trimEnd_eq_reverse, hkept, List.reverse_reverse]

theorem trim_eq_nil_or_solid (s : List Char) : trim s = [] ∨ Solid (trim s) := by
  by_cases hnil : trim s = []
  · exact Or.inl hnil
  · have hfirst := List.head?_eq_some_head hnil
    have hlast := List.getLast?_eq_some_getLast hnil
    exact Or.inr ⟨⟨_, hfirst, isBlank_head_trim hfirst⟩, _, hlast, isBlank_getLast_trim hlast⟩

/-! ## Cuts -/

/-- The text is blanks, then a middle that is empty or solid, and then blanks. -/
structure Framed (front middle back s : List Char) : Prop where
  split : s = front ++ middle ++ back
  front_blank : ∀ c ∈ front, isBlank c
  back_blank : ∀ c ∈ back, isBlank c
  middle_solid : middle = [] ∨ Solid middle

theorem exists_framed_trim (s : List Char) : ∃ front back, Framed front (trim s) back s := by
  rcases exists_eq_append_trim s with ⟨front, back, hsplit, hfront, hback⟩
  exact ⟨front, back, hsplit, hfront, hback, trim_eq_nil_or_solid s⟩

namespace Framed

variable {front middle back s : List Char}

theorem of_blank (h : ∀ c ∈ s, isBlank c) : Framed s [] [] s where
  split := by simp
  front_blank := h
  back_blank := by simp
  middle_solid := Or.inl rfl

/-- Whichever way the blanks are cut off, the same middle is left. -/
theorem trim_eq (h : Framed front middle back s) : trim s = middle := by
  have hstart : trimStart s = trimStart (middle ++ back) := by
    rw [h.split, List.append_assoc, trimStart_append_of_blank h.front_blank]
  -- A solid middle stops the trimming from both sides; without one the blanks go all at once.
  rcases h.middle_solid with hnil | hsolid
  · have hrest : trimStart (middle ++ back) = [] := by
      simpa [hnil] using trimStart_eq_nil h.back_blank
    rw [trim, hstart, hrest, hnil]
    rfl
  · calc
      trim s = trimEnd (trimStart (middle ++ back)) := by rw [trim, hstart]
      _ = trimEnd (middle ++ back) := by rw [hsolid.trimStart_append]
      _ = trimEnd middle := trimEnd_append_of_blank h.back_blank middle
      _ = middle := hsolid.trimEnd_eq

theorem front_eq (h : Framed front middle back s) (hsolid : Solid middle) :
    front = s.takeWhile isBlank := by
  rcases hsolid with ⟨⟨c, hc, hcblank⟩, _⟩
  rcases List.head?_eq_some_iff.1 hc with ⟨rest, rfl⟩
  rw [h.split, List.append_assoc, List.takeWhile_append_of_pos h.front_blank]
  simp [hcblank]

theorem back_eq {other : List Char} (h : Framed front middle back s)
    (hother : Framed front middle other s) : back = other :=
  List.append_cancel_left (h.split.symm.trans hother.split)

end Framed

theorem trim_eq_nil_iff (s : List Char) : trim s = [] ↔ ∀ c ∈ s, isBlank c := by
  constructor
  · intro hnil
    rcases exists_framed_trim s with ⟨front, back, h⟩
    intro c hc
    rw [h.split, hnil, List.append_nil] at hc
    rcases List.mem_append.1 hc with hc | hc
    · exact h.front_blank c hc
    · exact h.back_blank c hc
  · intro hblank
    exact (Framed.of_blank hblank).trim_eq

/-- A text that is blank throughout may be cut anywhere, so it is counted as the front margin. -/
theorem existsUnique_margins (s : List Char) :
    ∃! margins : List Char × List Char,
      Framed margins.1 (trim s) margins.2 s ∧ ((∀ c ∈ s, isBlank c) → margins.1 = s) := by
  by_cases hblank : ∀ c ∈ s, isBlank c
  · have hframed : Framed s (trim s) [] s := by
      rw [(trim_eq_nil_iff s).2 hblank]
      exact Framed.of_blank hblank
    refine ⟨(s, []), ⟨hframed, fun _ => rfl⟩, ?_⟩
    rintro ⟨front, back⟩ ⟨hother, hfront⟩
    have hfront : front = s := hfront hblank
    subst hfront
    exact Prod.ext rfl (hother.back_eq hframed)
  -- Otherwise the first character of the middle says where the front margin ends.
  · have hsolid : Solid (trim s) :=
      (trim_eq_nil_or_solid s).resolve_left (mt (trim_eq_nil_iff s).1 hblank)
    rcases exists_framed_trim s with ⟨front, back, hframed⟩
    refine ⟨(front, back), ⟨hframed, fun hall => absurd hall hblank⟩, ?_⟩
    rintro ⟨front', back'⟩ ⟨hother, _⟩
    have hfront : front' = front := (hother.front_eq hsolid).trans (hframed.front_eq hsolid).symm
    subst hfront
    exact Prod.ext rfl (hother.back_eq hframed)

/-! ## Unifying first or last -/

theorem ne_break_of_not_blank {c : Char} (h : isBlank c = false) : c ≠ '\n' ∧ c ≠ '\r' := by
  constructor
  · rintro rfl
    exact absurd h (by decide)
  · rintro rfl
    exact absurd h (by decide)

theorem unify_singleton {c : Char} (h : isBlank c = false) : unify [c] = [c] := by
  refine unify_eq_self ?_
  simpa using (ne_break_of_not_blank h).2.symm

theorem isBlank_of_mem_unify {w : List Char} (hw : ∀ c ∈ w, isBlank c) :
    ∀ c ∈ unify w, isBlank c := by
  intro c hc
  rw [unify_eq_scan] at hc
  exact isBlank_of_mem_scan hw hc

/-- The first and the last character stay where they are. -/
theorem solid_unify {s : List Char} (h : Solid s) : Solid (unify s) := by
  rcases h with ⟨⟨c, hc, hcblank⟩, d, hd, hdblank⟩
  -- Neither end is part of a break, so the text may be cut behind the first character and in front
  -- of the last.
  constructor
  · rcases List.head?_eq_some_iff.1 hc with ⟨rest, rfl⟩
    have hcut : ¬ ([c].getLast? = some '\r' ∧ rest.head? = some '\n') := by
      simp [(ne_break_of_not_blank hcblank).2]
    have hparts : unify ([c] ++ rest) = unify [c] ++ unify rest := (unify_append_iff _ _).2 hcut
    rw [unify_singleton hcblank] at hparts
    exact ⟨c, by simpa using congrArg List.head? hparts, hcblank⟩
  · rcases List.getLast?_eq_some_iff.1 hd with ⟨rest, rfl⟩
    have hcut : ¬ (rest.getLast? = some '\r' ∧ [d].head? = some '\n') := by
      simp [(ne_break_of_not_blank hdblank).1]
    have hparts : unify (rest ++ [d]) = unify rest ++ unify [d] := (unify_append_iff _ _).2 hcut
    rw [unify_singleton hdblank] at hparts
    exact ⟨d, by simpa using congrArg List.getLast? hparts, hdblank⟩

/-- No break reaches into a solid text from outside. -/
theorem Solid.unify_append {middle : List Char} (h : Solid middle) (front back : List Char) :
    unify (front ++ middle ++ back) = unify front ++ unify middle ++ unify back := by
  rcases h with ⟨⟨c, hc, hcblank⟩, d, hd, hdblank⟩
  simp only [Option.mem_def] at hc hd
  -- Only a cut between a return and a line feed would matter, and a solid text has neither there.
  have hfirst : ¬ (front.getLast? = some '\r' ∧ middle.head? = some '\n') := by
    simp [hc, (ne_break_of_not_blank hcblank).1]
  have hlast : ¬ ((front ++ middle).getLast? = some '\r' ∧ back.head? = some '\n') := by
    simp [List.getLast?_append, hd, (ne_break_of_not_blank hdblank).2]
  rw [(unify_append_iff _ _).2 hlast, (unify_append_iff _ _).2 hfirst]

theorem Framed.unified {front middle back s : List Char} (h : Framed front middle back s)
    (hsolid : Solid middle) : Framed (unify front) (unify middle) (unify back) (unify s) where
  split := by rw [h.split, hsolid.unify_append]
  front_blank := isBlank_of_mem_unify h.front_blank
  back_blank := isBlank_of_mem_unify h.back_blank
  middle_solid := Or.inr (solid_unify hsolid)

theorem trim_unify (s : List Char) : trim (unify s) = unify (trim s) := by
  rcases trim_eq_nil_or_solid s with hnil | hsolid
  -- In a text of blanks the margins may share a break, so it is looked at as a whole.
  · have hblank : ∀ c ∈ unify s, isBlank c := isBlank_of_mem_unify ((trim_eq_nil_iff s).1 hnil)
    rw [hnil, (trim_eq_nil_iff (unify s)).2 hblank]
    rfl
  · rcases exists_framed_trim s with ⟨front, back, h⟩
    exact (h.unified hsolid).trim_eq

theorem opens_eq_isPrefixOf_unify_trim (style : CommentStyle) (content : String) :
    Notice.opens style content =
      (Notice.chars style).isPrefixOf (unify (trim content.toList)) := by
  rw [Notice.opens, trim_unify]

/-- Of all that can stand between two runs of blanks in a text, only one is solid or empty, and it
is what trimming leaves.  The runs are determined too, if a text of nothing but blanks is counted as
the first of them.  Trimming and unifying the breaks may change places, so that a file lacks its
notice exactly if it is not exempt, owes one, and has none in front once it is first trimmed and
then unified. -/
theorem trim_finds_one_middle :
    (∀ s middle, trim s = middle ↔ ∃ front back, Framed front middle back s) ∧
      (∀ s, ∃! margins : List Char × List Char,
        Framed margins.1 (trim s) margins.2 s ∧ ((∀ c ∈ s, isBlank c) → margins.1 = s)) ∧
      (∀ s, trim (unify s) = unify (trim s)) ∧
      ∀ exemptions p content, Verdict.of exemptions p content = .missing ↔
        exemptions.covers p = false ∧ ∃ style ∈ CommentStyle.ofPath? p,
          ¬ Notice.chars style <+: unify (trim content.toList) := by
  refine ⟨?_, existsUnique_margins, trim_unify, ?_⟩
  · intro s middle
    constructor
    · rintro rfl
      exact exists_framed_trim s
    · rintro ⟨front, back, h⟩
      exact h.trim_eq
  · intro exemptions p content
    simp only [Verdict.of_eq_missing_iff, opens_eq_isPrefixOf_unify_trim,
      ← List.isPrefixOf_iff_prefix, Bool.not_eq_true]

example : trim (unify ['\r', 'a', '\r', '\n', 'b', '\r', '\n']) = ['a', '\n', 'b'] := by decide

end Blank
end HeaderAudit

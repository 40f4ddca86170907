import HeaderAudit.Verdict
import HeaderAudit.Proofs.LineBreaks
import HeaderAudit.Proofs.Margins

/-!
# NoticeSpelling — the files that carry the notice

A file carries the notice if its text is made of blanks, then the twelve lines of the notice with
breaks of any kind between them, and then anything at all.  `opens_iff_spelled` says so of the test
on the content, which works on a unified and trimmed copy, and `of_decided_by_spelling` says what
this means for the verdict on a path.
-/

namespace HeaderAudit
namespace Notice

open Newline Blank

/-! ## The lines of the notice -/

/-- What holds of the characters of a literal holds of the literal as a list.  To compute the list
instead takes time quadratic in its length. -/
theorem toList_literal (P : List Char → Prop) {l : List Char} (h : P l) :
    P (String.ofList l).toList := by
  simpa only [String.toList_ofList] using h

theorem unbroken_of_mem_wording : ∀ line ∈ wording, Unbroken line.toList := by
  unfold wording
  repeat refine List.forall_mem_cons.2 ⟨toList_literal Unbroken (by decide), ?_⟩
  exact List.forall_mem_nil _

theorem isLine_leader (style : CommentStyle) : IsLine style.leader.toList := by
  cases style <;> decide

theorem isLine_comment (style : CommentStyle) {line : String} (h : Unbroken line.toList) :
    IsLine (comment style line) := by
  rcases isLine_leader style with ⟨hne, hfeed, hreturn⟩
  unfold comment
  split
  · exact ⟨hne, hfeed, hreturn⟩
  · exact ⟨by simp [hne], by simp [hfeed, h.1], by simp [hreturn, h.2]⟩

theorem isLine_rule (style : CommentStyle) : IsLine (rule style).toList := by
  cases style with
  | slashes => exact toList_literal IsLine (by decide)
  | hash => exact toList_literal IsLine (by decide)

theorem isLine_of_mem_lines (style : CommentStyle) : ∀ line ∈ lines style, IsLine line := by
  intro line hline
  simp only [lines, List.cons_append, List.mem_cons, List.mem_append, List.mem_map,
    List.not_mem_nil, or_false] at hline
  rcases hline with rfl | ⟨words, hwords, rfl⟩ | rfl
  · exact isLine_rule style
  · exact isLine_comment style (unbroken_of_mem_wording words hwords)
  · exact isLine_rule style

theorem lines_ne_nil (style : CommentStyle) : lines style ≠ [] := by
  simp [lines]

/-! ## The notice as a whole -/

theorem solid_rule (style : CommentStyle) : Solid (rule style).toList := by
  cases style with
  | slashes => exact toList_literal Solid ⟨⟨'/', rfl, by decide⟩, '/', rfl, by decide⟩
  | hash => exact toList_literal Solid ⟨⟨'#', rfl, by decide⟩, '#', rfl, by decide⟩

theorem suffix_intercalate_concat (sep : List Char) (lines : List (List Char))
    (line : List Char) : line <:+ sep.intercalate (lines ++ [line]) := by
  induction lines with
  | nil => simp
  | cons first lines ih =>
      have hne : lines ++ [line] ≠ [] := by simp
      rcases ih with ⟨front, hfront⟩
      refine ⟨first ++ sep ++ front, ?_⟩
      simp [List.intercalate_cons_of_ne_nil hne, ← hfront]

/-- The rules above and below keep the notice from being trimmed. -/
theorem solid_chars (style : CommentStyle) : Solid (chars style) := by
  refine (solid_rule style).of_prefix_of_suffix ?_ ?_
  · have hne : wording.map (comment style) ++ [(rule style).toList] ≠ [] := by simp
    simp [chars, lines, List.intercalate_cons_of_ne_nil hne]
  · exact suffix_intercalate_concat _ _ _

/-- The content is blanks, then the lines of the notice with a break of any kind between each two,
then anything. -/
def Carries (style : CommentStyle) (content : String) : Prop :=
  ∃ w s t, content.toList = w ++ s ++ t ∧ (∀ c ∈ w, isBlank c) ∧ Spells (lines style) s

theorem carries_of_opens {style : CommentStyle} {content : String}
    (h : opens style content) : Carries style content := by
  have hprefix : chars style <+: trim (unify content.toList) := opens_iff.1 h
  rcases (prefix_trim_iff (solid_chars style)).1 hprefix with ⟨a, y, hunify, ha⟩
  have hparts : scan false content.toList = a ++ (chars style ++ y) := by
    simpa only [unify_eq_scan, List.append_assoc] using hunify
  -- The blanks are undone first, because a break among them may be spelled with two characters.
  rcases exists_of_scan_eq_blank_append ha hparts with ⟨w, rest, hcontent, hw, hrest⟩
  have hlines : ∀ line ∈ lines style, '\n' ∉ line :=
    fun line hline => (isLine_of_mem_lines style line hline).2.1
  rcases exists_spelling_of_scan (lines_ne_nil style) hlines hrest with ⟨s, t, rfl, hs, _⟩
  refine ⟨w, s, t, ?_, hw, hs⟩
  simpa only [List.append_assoc] using hcontent

theorem opens_of_carries {style : CommentStyle} {content : String}
    (h : Carries style content) : opens style content := by
  rcases h with ⟨w, s, t, hcontent, hw, hs⟩
  have hlines := isLine_of_mem_lines style
  -- No break reaches over the two seams, since a line begins with no line feed.
  have hscan : unify content.toList = scan false w ++ chars style ++ scan false t := by
    calc
      unify content.toList
          = scan false (w ++ (s ++ t)) := by
            rw [unify_eq_scan, hcontent, List.append_assoc]
      _ = scan false w ++ scan false (s ++ t) :=
            scan_append_of_head?_ne false w (hs.head?_append_ne hlines t)
      _ = scan false w ++ (chars style ++ scan false t) :=
            congrArg (scan false w ++ ·) (hs.scan_eq hlines t)
      _ = scan false w ++ chars style ++ scan false t :=
            (List.append_assoc _ _ _).symm
  have hblank : ∀ c ∈ scan false w, isBlank c :=
    fun c hc => isBlank_of_mem_scan hw hc
  apply opens_iff.2
  exact (prefix_trim_iff (solid_chars style)).2 ⟨scan false w, scan false t, hscan, hblank⟩

theorem opens_iff_carries (style : CommentStyle) (content : String) :
    opens style content ↔ Carries style content :=
  ⟨carries_of_opens, opens_of_carries⟩

end Notice

namespace Verdict

variable {exemptions : Exemptions} {p : Path}

theorem of_eq_pass_of_unstyled (content : String) (h : exemptions.covers p = false)
    (hstyle : CommentStyle.ofPath? p = none) : of exemptions p content = .pass := by
  simp [of, h, hstyle]

theorem of_eq_of_style {style : CommentStyle} (content : String) (h : exemptions.covers p = false)
    (hstyle : CommentStyle.ofPath? p = some style) :
    of exemptions p content = if Notice.opens style content then .pass else .missing := by
  simp [of, h, hstyle]

theorem of_eq_missing_iff {content : String} :
    of exemptions p content = .missing ↔
      exemptions.covers p = false ∧
        ∃ style ∈ CommentStyle.ofPath? p, Notice.opens style content = false := by
  cases hcovers : exemptions.covers p with
  | true => simp [of_eq_exempt_iff.2 hcovers]
  | false =>
      cases hstyle : CommentStyle.ofPath? p with
      | none => simp [of_eq_pass_of_unstyled content hcovers hstyle]
      | some style =>
          rw [of_eq_of_style content hcovers hstyle]
          cases hopens : Notice.opens style content <;> simp [hopens]

/-- An exempt path is exempt whatever it holds, and a path without a comment style passes.  Any
other path passes exactly if its content carries the notice of its style, all twelve lines of it. -/
theorem of_decided_by_spelling (exemptions : Exemptions) (p : Path) (content : String) :
    (∀ style, (Notice.lines style).length = 12) ∧
    (of exemptions p content = .exempt ↔ exemptions.covers p) ∧
    (exemptions.covers p = false → CommentStyle.ofPath? p = none →
      of exemptions p content = .pass) ∧
    ∀ style, exemptions.covers p = false → CommentStyle.ofPath? p = some style →
      (of exemptions p content = .pass ↔ Notice.Carries style content) ∧
      (of exemptions p content = .missing ↔ ¬ Notice.Carries style content) := by
  refine ⟨Notice.length_lines, of_eq_exempt_iff, of_eq_pass_of_unstyled content, ?_⟩
  intro style h hstyle
  have hof := of_eq_of_style content h hstyle
  have hcarries := Notice.opens_iff_carries style content
  rw [hof, ← hcarries]
  cases Notice.opens style content <;> simp

end Verdict
end HeaderAudit

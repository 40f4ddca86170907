import HeaderAudit.Proofs.LineBreaks
import HeaderAudit.Text.Blank

/-!
# Margins — what trimming can and cannot take away

A text is solid if it begins and ends with characters that are not blank.  Trimming removes blanks
around a solid text and nothing of the text itself, so `prefix_trim_iff` can say where a solid text
has to stand in order to come first after trimming: behind blanks only, and before anything.
-/

namespace HeaderAudit
namespace Blank

/-- Not empty, and with no blank at either end. -/
def Solid (s : List Char) : Prop :=
  (∃ c ∈ s.head?, isBlank c = false) ∧ ∃ c ∈ s.getLast?, isBlank c = false

theorem Solid.of_prefix_of_suffix {s u : List Char} (h : Solid s) (hfront : s <+: u)
    (hback : s <:+ u) : Solid u := by
  rcases h with ⟨⟨c, hc, hcblank⟩, d, hd, hdblank⟩
  rcases hfront with ⟨t, rfl⟩
  rcases hback with ⟨a, ha⟩
  refine ⟨⟨c, ?_, hcblank⟩, d, ?_, hdblank⟩
  · simp only [Option.mem_def] at hc ⊢
    simp [List.head?_append, hc]
  · simp only [Option.mem_def] at hd ⊢
    rw [← ha]
    simp [List.getLast?_append, hd]

theorem trimStart_append_of_blank {a : List Char} (ha : ∀ c ∈ a, isBlank c) (s : List Char) :
    trimStart (a ++ s) = trimStart s :=
  List.dropWhile_append_of_pos ha

theorem Solid.trimStart_append {s : List Char} (h : Solid s) (t : List Char) :
    trimStart (s ++ t) = s ++ t := by
  rcases h with ⟨⟨c, hc, hblank⟩, _⟩
  rcases List.head?_eq_some_iff.1 hc with ⟨rest, rfl⟩
  simp [trimStart, hblank]

theorem Solid.prefix_trimEnd_append {s : List Char} (h : Solid s) (t : List Char) :
    s <+: trimEnd (s ++ t) := by
  rcases h with ⟨_, c, hc, hblank⟩
  rcases List.getLast?_eq_some_iff.1 hc with ⟨front, rfl⟩
  unfold trimEnd
  simp only [List.reverse_append, List.reverse_singleton, List.singleton_append]
  -- Either all of `t` is blank and goes, or the last of its other characters keeps the rest.
  by_cases hall : (t.reverse.dropWhile isBlank).isEmpty
  · simp [List.dropWhile_append, hall, hblank]
  · simp [List.dropWhile_append, hall]

theorem prefix_trim_iff {s u : List Char} (h : Solid s) :
    s <+: trim u ↔ ∃ a t, u = a ++ s ++ t ∧ ∀ c ∈ a, isBlank c := by
  -- A solid text begins with no blank, so trimming in front stops where it begins.
  constructor
  · rintro ⟨t, ht⟩
    rcases exists_eq_append_trim u with ⟨a, b, hu, ha, _⟩
    refine ⟨a, t ++ b, ?_, ha⟩
    calc
      u = a ++ trim u ++ b := hu
      _ = a ++ (s ++ t) ++ b := by rw [ht]
      _ = a ++ s ++ (t ++ b) := by simp only [List.append_assoc]
  · rintro ⟨a, t, rfl, ha⟩
    have hstart : trimStart (a ++ s ++ t) = s ++ t := by
      have hdrop := trimStart_append_of_blank ha (s ++ t)
      rw [h.trimStart_append] at hdrop
      simpa only [List.append_assoc] using hdrop
    rw [trim, hstart]
    exact h.prefix_trimEnd_append t

/-! ## Breaks are blanks -/

open Newline

theorem isBlank_of_mem_spellings {c d : Char} {u : List Char} (hu : u ∈ spellings c)
    (hd : d ∈ u) (hc : isBlank c) : isBlank d := by
  unfold spellings at hu
  split at hu
  · have hbreak : ∀ u ∈ breaks, ∀ d ∈ u, d = '\n' ∨ d = '\r' := by simp [breaks]
    rcases hbreak u hu d hd with rfl | rfl
    · decide
    · decide
  · have hsame : u = [c] := by simpa using hu
    have heq : d = c := by simpa [hsame] using hd
    rwa [heq]

theorem isBlank_of_mem_scan {afterReturn : Bool} {w : List Char} (hw : ∀ c ∈ w, isBlank c)
    {c : Char} (hc : c ∈ scan afterReturn w) : isBlank c := by
  rcases mem_of_mem_scan hc with rfl | hmem
  · decide
  · exact hw c hmem

/-- Blanks in front of a unified text come from blanks. -/
theorem exists_of_scan_eq_blank_append {a s y : List Char} (ha : ∀ c ∈ a, isBlank c)
    (h : scan false s = a ++ y) :
    ∃ w rest, s = w ++ rest ∧ (∀ c ∈ w, isBlank c) ∧ scan false rest = y := by
  induction a generalizing s with
  | nil => exact ⟨[], s, rfl, by simp, h⟩
  | cons c a ih =>
      -- The first blank was spelled in one of its ways, and all of these are blank.
      rcases exists_of_scan_eq_cons h with ⟨u, hu, rest, rfl, hrest⟩
      have htail : ∀ d ∈ a, isBlank d := fun d hd => ha d (List.mem_cons_of_mem c hd)
      rcases ih htail hrest with ⟨w, rest', rfl, hw, hrest'⟩
      refine ⟨u ++ w, rest', by simp, ?_, hrest'⟩
      intro d hd
      rcases List.mem_append.1 hd with hd | hd
      · exact isBlank_of_mem_spellings hu hd (ha c (by simp))
      · exact hw d hd

end Blank
end HeaderAudit

import HeaderAudit.Text.Newline

/-!
# LineBreaks — which texts are read as which lines

`Newline.unify` gives every line break one spelling.  This file goes back from the unified text to
the texts it may have come from.  It defines:

* `breaks` — the three ways to end a line;
* `Spells lines s` — `s` is made of the given lines, with one break of any kind between each two.

`exists_spelling_of_scan` says that a text which begins with some lines once its breaks are unified
begins with a spelling of these lines, and `Spells.scan_eq` is the converse.
-/

namespace HeaderAudit
namespace Newline

/-! ## Reading in parts -/

/-- Whether the text read so far ends in a return. -/
def endsInReturn : Bool → List Char → Bool
  | afterReturn, [] => afterReturn
  | _, c :: rest => endsInReturn (c == '\r') rest

theorem scan_append (afterReturn : Bool) (s t : List Char) :
    scan afterReturn (s ++ t) = scan afterReturn s ++ scan (endsInReturn afterReturn s) t := by
  -- The state is general, because the rest is read in the state that the first character leaves.
  induction s generalizing afterReturn with
  | nil =>
      simp [scan, endsInReturn]
  | cons c rest ih =>
      by_cases hreturn : c = '\r'
      · simp [scan, endsInReturn, hreturn, ih]
      · by_cases hpair : c = '\n' ∧ afterReturn
        · simp [scan, endsInReturn, hpair, ih]
        · have hends : (c == '\r') = false := by simpa using hreturn
          simp [scan, endsInReturn, hreturn, hpair, hends, ih]

/-- Only a line feed can belong to the return before it. -/
theorem scan_eq_of_head?_ne (afterReturn : Bool) {s : List Char} (h : s.head? ≠ some '\n') :
    scan afterReturn s = scan false s := by
  cases s with
  | nil =>
      cases afterReturn <;> rfl
  | cons c rest =>
      have hc : c ≠ '\n' := fun heq => h (by simp [heq])
      cases afterReturn with
      | false => rfl
      | true => exact scan_true_of_ne rest hc

theorem scan_append_of_head?_ne (afterReturn : Bool) (s : List Char) {t : List Char}
    (h : t.head? ≠ some '\n') :
    scan afterReturn (s ++ t) = scan afterReturn s ++ scan false t := by
  have hsplit := scan_append afterReturn s t
  rwa [scan_eq_of_head?_ne _ h] at hsplit

/-- Apart from line feeds, nothing comes out that did not go in. -/
theorem mem_of_mem_scan {afterReturn : Bool} {s : List Char} {c : Char}
    (h : c ∈ scan afterReturn s) : c = '\n' ∨ c ∈ s := by
  induction s generalizing afterReturn with
  | nil =>
      cases afterReturn <;> simp [scan] at h
  | cons d rest ih =>
      have hrest {state : Bool} (hmem : c ∈ scan state rest) : c = '\n' ∨ c ∈ d :: rest := by
        rcases ih hmem with hfeed | hin
        · exact Or.inl hfeed
        · exact Or.inr (List.mem_cons_of_mem d hin)
      -- The first character comes out as a line feed, not at all, or as it is.
      by_cases hreturn : d = '\r'
      · have hmem : c ∈ '\n' :: scan true rest := by simpa [scan, hreturn] using h
        rcases List.mem_cons.1 hmem with hfeed | hmem
        · exact Or.inl hfeed
        · exact hrest hmem
      · by_cases hpair : d = '\n' ∧ afterReturn
        · have hmem : c ∈ scan false rest := by simpa [scan, hpair] using h
          exact hrest hmem
        · have hmem : c ∈ d :: scan false rest := by simpa [scan, hreturn, hpair] using h
          rcases List.mem_cons.1 hmem with hd | hmem
          · exact Or.inr (by simp [hd])
          · exact hrest hmem

/-! ## Breaks -/

/-- The ways to end a line. -/
def breaks : List (List Char) :=
  [['\n'], ['\r', '\n'], ['\r']]

/-- What one character of a unified text may have been. -/
def spellings (c : Char) : List (List Char) :=
  if c = '\n' then breaks else [[c]]

theorem spellings_of_ne {c : Char} (h : c ≠ '\n') : spellings c = [[c]] := by
  simp [spellings, h]

/-- A break is read as one line feed, unless a line feed follows that it would swallow. -/
theorem scan_break_append {b t : List Char} (hb : b ∈ breaks) (ht : t.head? ≠ some '\n') :
    scan false (b ++ t) = '\n' :: scan false t := by
  have hone : scan false b = ['\n'] := by
    simp only [breaks, List.mem_cons, List.not_mem_nil, or_false] at hb
    rcases hb with rfl | rfl | rfl <;> rfl
  have hsplit := scan_append_of_head?_ne false b ht
  simpa [hone] using hsplit

/-- The first character of a unified text comes from one of its spellings. -/
theorem exists_of_scan_eq_cons {s y : List Char} {c : Char} (h : scan false s = c :: y) :
    ∃ u ∈ spellings c, ∃ rest, s = u ++ rest ∧ scan false rest = y := by
  cases s with
  | nil => simp [scan] at h
  | cons d rest =>
      by_cases hreturn : d = '\r'
      · subst hreturn
        have hcons : '\n' :: scan true rest = c :: y := by simpa [scan] using h
        cases hcons
        by_cases hfeed : rest.head? = some '\n'
        · -- The line feed that follows is the second half of the same break.
          rcases List.head?_eq_some_iff.1 hfeed with ⟨tail, rfl⟩
          exact ⟨['\r', '\n'], by simp [spellings, breaks], tail, rfl, by simp [scan]⟩
        · refine ⟨['\r'], by simp [spellings, breaks], rest, rfl, ?_⟩
          exact (scan_eq_of_head?_ne true hfeed).symm
      · have hcons : d :: scan false rest = c :: y := by simpa [scan, hreturn] using h
        rcases List.cons.inj hcons with ⟨rfl, htail⟩
        refine ⟨[d], ?_, rest, rfl, htail⟩
        by_cases hfeed : d = '\n'
        · simp [spellings, breaks, hfeed]
        · simp [spellings, hfeed]

/-! ## Lines -/

def Unbroken (s : List Char) : Prop :=
  '\n' ∉ s ∧ '\r' ∉ s

instance : DecidablePred Unbroken :=
  fun _ => inferInstanceAs (Decidable (_ ∧ _))

/-- A line that can stand between two breaks without changing what they are. -/
def IsLine (line : List Char) : Prop :=
  line ≠ [] ∧ Unbroken line

instance : DecidablePred IsLine :=
  fun _ => inferInstanceAs (Decidable (_ ∧ _))

/-- The lines with one break between each two, every break spelled in its own way. -/
inductive Spells : List (List Char) → List Char → Prop
  | last (line : List Char) : Spells [line] line
  | next {lines : List (List Char)} {b s : List Char} (line : List Char)
      (hb : b ∈ breaks) (h : Spells lines s) : Spells (line :: lines) (line ++ b ++ s)

theorem scan_line_append {line : List Char} (h : '\r' ∉ line) (t : List Char) :
    scan false (line ++ t) = line ++ scan false t := by
  induction line with
  | nil => rfl
  | cons c rest ih =>
      have hc : c ≠ '\r' := fun heq => h (by simp [heq])
      have hrest : '\r' ∉ rest := fun hmem => h (List.mem_cons_of_mem c hmem)
      simp [scan, hc, ih hrest]

theorem exists_of_scan_eq_line_append {line s y : List Char} (hline : '\n' ∉ line)
    (h : scan false s = line ++ y) : ∃ rest, s = line ++ rest ∧ scan false rest = y := by
  induction line generalizing s with
  | nil => exact ⟨s, rfl, h⟩
  | cons c line ih =>
      have hc : c ≠ '\n' := fun heq => hline (by simp [heq])
      -- A character of a line is no break, so it is its own and only spelling.
      rcases exists_of_scan_eq_cons h with ⟨u, hu, rest, rfl, hrest⟩
      have hu : u = [c] := by simpa [spellings_of_ne hc] using hu
      have htail : '\n' ∉ line := fun hmem => hline (List.mem_cons_of_mem c hmem)
      rcases ih htail hrest with ⟨rest', rfl, hrest'⟩
      exact ⟨rest', by simp [hu], hrest'⟩

namespace Spells

variable {lines : List (List Char)} {s : List Char}

theorem head?_append_ne (h : Spells lines s) (hlines : ∀ line ∈ lines, IsLine line)
    (t : List Char) : (s ++ t).head? ≠ some '\n' := by
  have hfirst {line : List Char} (hline : IsLine line) (rest : List Char) :
      (line ++ rest).head? ≠ some '\n' := by
    rcases hline with ⟨hne, hfeed, _⟩
    cases line with
    | nil => exact absurd rfl hne
    | cons c line =>
        intro heq
        have hc : c = '\n' := by simpa using heq
        exact hfeed (by simp [hc])
  -- Whether one line is spelled or several, the text begins with the first of them.
  cases h with
  | last =>
      exact hfirst (hlines s (by simp)) t
  | @next _ b r line =>
      have hhead := hfirst (hlines line (by simp)) (b ++ (r ++ t))
      simpa only [List.append_assoc] using hhead

/-- A spelling of some lines is read as these lines, whatever follows. -/
theorem scan_eq (h : Spells lines s) (hlines : ∀ line ∈ lines, IsLine line) (t : List Char) :
    scan false (s ++ t) = ['\n'].intercalate lines ++ scan false t := by
  induction h with
  | last line =>
      have hline : '\r' ∉ line := (hlines line (by simp)).2.2
      simpa using scan_line_append hline t
  | @next lines b s line hb h ih =>
      have hline : '\r' ∉ line := (hlines line (by simp)).2.2
      have hrest : ∀ line ∈ lines, IsLine line :=
        fun l hl => hlines l (List.mem_cons_of_mem line hl)
      have hne : lines ≠ [] := by
        intro hnil
        subst hnil
        cases h
      -- No line begins with a line feed, so the break before the next line stays by itself.
      have hbreak : scan false (b ++ (s ++ t)) = '\n' :: scan false (s ++ t) :=
        scan_break_append hb (h.head?_append_ne hrest t)
      calc
        scan false (line ++ b ++ s ++ t)
            = scan false (line ++ (b ++ (s ++ t))) := by simp only [List.append_assoc]
        _ = line ++ scan false (b ++ (s ++ t)) := scan_line_append hline _
        _ = line ++ '\n' :: scan false (s ++ t) := by rw [hbreak]
        _ = line ++ '\n' :: (['\n'].intercalate lines ++ scan false t) := by rw [ih hrest]
        _ = ['\n'].intercalate (line :: lines) ++ scan false t := by
              simp [List.intercalate_cons_of_ne_nil hne]

end Spells

/-- A text that begins with some lines once its breaks are unified begins with a spelling of
them. -/
theorem exists_spelling_of_scan {lines : List (List Char)} {s y : List Char} (hne : lines ≠ [])
    (hlines : ∀ line ∈ lines, '\n' ∉ line)
    (h : scan false s = ['\n'].intercalate lines ++ y) :
    ∃ r t, s = r ++ t ∧ Spells lines r ∧ scan false t = y := by
  induction lines generalizing s with
  | nil => exact absurd rfl hne
  | cons line lines ih =>
      have hline : '\n' ∉ line := hlines line (by simp)
      by_cases hlast : lines = []
      · subst hlast
        rcases exists_of_scan_eq_line_append hline (by simpa using h) with ⟨t, rfl, ht⟩
        exact ⟨line, t, rfl, Spells.last line, ht⟩
      · have hshape : scan false s = line ++ ('\n' :: (['\n'].intercalate lines ++ y)) := by
          simpa [List.intercalate_cons_of_ne_nil hlast] using h
        -- The line comes off the front first, and then the break behind it.
        rcases exists_of_scan_eq_line_append hline hshape with ⟨s₁, rfl, hs₁⟩
        rcases exists_of_scan_eq_cons hs₁ with ⟨b, hb, s₂, rfl, hs₂⟩
        have hbreak : b ∈ breaks := by simpa [spellings] using hb
        have hrest : ∀ l ∈ lines, '\n' ∉ l := fun l hl => hlines l (List.mem_cons_of_mem line hl)
        rcases ih hlast hrest hs₂ with ⟨r, t, rfl, hr, ht⟩
        exact ⟨line ++ b ++ r, t, by simp, Spells.next line hbreak hr, ht⟩

end Newline
end HeaderAudit

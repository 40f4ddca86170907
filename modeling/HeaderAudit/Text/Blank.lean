/-!
# Blank — the characters that may surround a text without counting

A character is blank if Unicode gives it the property `White_Space`, or if it is one of the four
ASCII separators from `U+001C` to `U+001F`.  This file defines the class `isBlank` and `trim`, which
drops blank characters at both ends.  `exists_eq_append_trim` splits a text into blanks, its trimmed
middle and blanks; `isBlank_head_trim` and `isBlank_getLast_trim` say that the middle begins and
ends with no blank.
-/

namespace HeaderAudit
namespace Blank

/-! ## The class -/

/-- The code points of `White_Space`, as inclusive ranges. -/
def whiteSpace : List (Nat × Nat) :=
  [(0x09, 0x0D), (0x20, 0x20), (0x85, 0x85), (0xA0, 0xA0), (0x1680, 0x1680), (0x2000, 0x200A),
    (0x2028, 0x2029), (0x202F, 0x202F), (0x205F, 0x205F), (0x3000, 0x3000)]

def isWhiteSpace (c : Char) : Bool :=
  whiteSpace.any fun range => range.1 ≤ c.toNat && c.toNat ≤ range.2

def isSeparator (c : Char) : Bool :=
  0x1C ≤ c.toNat && c.toNat ≤ 0x1F

def isBlank (c : Char) : Bool :=
  isWhiteSpace c || isSeparator c

/-! ## Trimming -/

def trimStart (s : List Char) : List Char :=
  s.dropWhile isBlank

def trimEnd (s : List Char) : List Char :=
  (s.reverse.dropWhile isBlank).reverse

def trim (s : List Char) : List Char :=
  trimEnd (trimStart s)

theorem trimStart_append_takeWhile (s : List Char) :
    s.takeWhile isBlank ++ trimStart s = s :=
  List.takeWhile_append_dropWhile

theorem trimEnd_append_takeWhile (s : List Char) :
    trimEnd s ++ (s.reverse.takeWhile isBlank).reverse = s := by
  rw [trimEnd, ← List.reverse_append, List.takeWhile_append_dropWhile, List.reverse_reverse]

theorem isBlank_of_mem_takeWhile {s : List Char} {c : Char} (h : c ∈ s.takeWhile isBlank) :
    isBlank c :=
  List.all_eq_true.1 List.all_takeWhile c h

/-- A text is its trimmed middle between two runs of blanks. -/
theorem exists_eq_append_trim (s : List Char) :
    ∃ a b, s = a ++ trim s ++ b ∧ (∀ c ∈ a, isBlank c) ∧ (∀ c ∈ b, isBlank c) := by
  refine ⟨s.takeWhile isBlank, ((trimStart s).reverse.takeWhile isBlank).reverse, ?_, ?_, ?_⟩
  · rw [List.append_assoc, trim, trimEnd_append_takeWhile, trimStart_append_takeWhile]
  · intro c hc
    exact isBlank_of_mem_takeWhile hc
  · intro c hc
    exact isBlank_of_mem_takeWhile (List.mem_reverse.1 hc)

theorem isBlank_head_trimStart {s : List Char} {c : Char} (h : (trimStart s).head? = some c) :
    isBlank c = false := by
  have := List.head?_dropWhile_not isBlank s
  rw [trimStart] at h
  rw [h] at this
  exact this

theorem isBlank_getLast_trimEnd {s : List Char} {c : Char} (h : (trimEnd s).getLast? = some c) :
    isBlank c = false := by
  rw [trimEnd, List.getLast?_reverse] at h
  exact isBlank_head_trimStart h

/-- What is left after trimming ends in no blank. -/
theorem isBlank_getLast_trim {s : List Char} {c : Char} (h : (trim s).getLast? = some c) :
    isBlank c = false :=
  isBlank_getLast_trimEnd h

/-- What is left after trimming begins with no blank. -/
theorem isBlank_head_trim {s : List Char} {c : Char} (h : (trim s).head? = some c) :
    isBlank c = false := by
  have hsplit := trimEnd_append_takeWhile (trimStart s)
  rw [← trim] at hsplit
  refine isBlank_head_trimStart (s := s) ?_
  rw [← hsplit, List.head?_append, h]
  rfl

end Blank
end HeaderAudit

import HeaderAudit.Path.Basic
import HeaderAudit.Proofs.AsciiBytes

/-!
# FileNames — the file name of a path that is given as text

Paths are cut into segments byte by byte.  For the path of a text, the same segments come from
cutting the text itself at its slashes.  This file defines `Path.textName?`, the last segment of a
text, and `fileName?_ofString` says that it is the file name of the path.
-/

namespace HeaderAudit
namespace Path

open Utf8

/-- The last of the parts between the slashes of a text that is neither empty nor `.`, unless it is
`..`. -/
def textName? (text : String) : Option (List Char) :=
  ((text.toList.splitOn '/').filter fun part => part ≠ [] ∧ part ≠ ['.']).getLast?.filter
    fun part => part ≠ ['.', '.']

theorem slash_not_mem_encodeChars {part : List Char} (h : '/' ∉ part) :
    slash ∉ encodeChars part := by
  intro hmem
  rcases List.mem_flatMap.1 hmem with ⟨c, hc, hbyte⟩
  have hslash : c = '/' := utf8EncodeChar_eq_of_mem (by decide) hbyte
  exact h (hslash ▸ hc)

theorem encodeChars_intercalate (parts : List (List Char)) :
    encodeChars (['/'].intercalate parts) = [slash].intercalate (parts.map encodeChars) := by
  induction parts with
  | nil => rfl
  | cons part others ih =>
      cases others with
      | nil => simp
      | cons next others =>
          have hslash : encodeChars ['/'] = [slash] := rfl
          rw [List.map_cons] at ih
          rw [List.intercalate_cons_cons, encodeChars_append, encodeChars_append, ih, hslash]
          simp only [List.map_cons, List.intercalate_cons_cons]

/-- The pieces of the bytes are the bytes of the pieces. -/
theorem splitOn_encodeChars (cs : List Char) :
    (encodeChars cs).splitOn slash = (cs.splitOn '/').map encodeChars := by
  -- The bytes are joined out of encoded pieces, and none of these holds the byte of a slash.
  have hparts : ∀ part ∈ (cs.splitOn '/').map encodeChars, slash ∉ part := by
    intro part hpart
    rcases List.mem_map.1 hpart with ⟨chars, hchars, rfl⟩
    exact slash_not_mem_encodeChars (not_mem_of_mem_splitOn hchars)
  calc
    (encodeChars cs).splitOn slash
        = (encodeChars (['/'].intercalate (cs.splitOn '/'))).splitOn slash := by
          rw [List.intercalate_splitOn]
    _ = ([slash].intercalate ((cs.splitOn '/').map encodeChars)).splitOn slash := by
          rw [encodeChars_intercalate]
    _ = (cs.splitOn '/').map encodeChars :=
          List.splitOn_intercalate slash hparts (by simp)

theorem segments_ofString (text : String) :
    (ofString text).segments =
      ((text.toList.splitOn '/').filter fun part => part ≠ [] ∧ part ≠ ['.']).map encodeChars := by
  have hpieces : (ofString text).pieces = (text.toList.splitOn '/').map encodeChars :=
    splitOn_encodeChars text.toList
  have hempty (part : List Char) : encodeChars part = [] ↔ part = [] :=
    encodeChars_inj part []
  have hcurrent (part : List Char) : encodeChars part = Segment.current ↔ part = ['.'] :=
    encodeChars_inj part ['.']
  simp only [segments, hpieces, List.filter_map, Function.comp_def, ne_eq, hempty, hcurrent]

theorem fileName?_ofString (text : String) :
    (ofString text).fileName? = (textName? text).map encodeChars := by
  have hparent (part : List Char) : encodeChars part = Segment.parent ↔ part = ['.', '.'] :=
    encodeChars_inj part ['.', '.']
  unfold fileName? textName?
  rw [segments_ofString, List.getLast?_map]
  simp only [Option.filter_map, Function.comp_def, ne_eq, hparent]

end Path
end HeaderAudit

import HeaderAudit.Proofs.JsonGrammar
import Mathlib.Tactic.SplitIfs

/-!
# JsonPrinting — what the printer writes is JSON

The printer chooses one layout and one written form for every number and character; this file shows
that each of its choices is among those that the grammar allows.  It defines `Json.toValue`, the
value that a printed text is meant to stand for.  The main statements are:

* `Json.isNumber_toDigits` — a counter is written as a number with neither sign, fraction nor power;
* `Json.isString_quote` — a quoted string is written as a string, whatever its characters are;
* `Json.derives_pretty` and `Json.isText_render` — a value is written as a text that stands for it.
-/

namespace HeaderAudit
namespace Json

/-! ## Meaning -/

mutual

def toValue : Json → Value
  | .null => .null
  | .number n => .number n 0
  | .text s => .text s
  | .array items => .array (toValues items)
  | .object members => .object (toMembers members)

def toValues : List Json → List Value
  | [] => []
  | item :: items => toValue item :: toValues items

def toMembers : List (String × Json) → List (String × Value)
  | [] => []
  | (key, value) :: members => (key, toValue value) :: toMembers members

end

@[simp] theorem toValues_eq_map (items : List Json) : toValues items = items.map toValue := by
  induction items with
  | nil => rfl
  | cons item items ih => simp [toValues, ih]

/-! ## Numbers -/

/-- A number of several digits does not begin with a zero. -/
theorem head?_toDigits_ne_zero {n : Nat} (h : 0 < n) : (Nat.toDigits 10 n).head? ≠ some '0' := by
  -- The first digit is that of the number without its last one.
  induction n using Nat.strongRecOn with
  | ind n ih =>
      by_cases hn : n < 10
      · have hdigits : ∀ m < 10, 0 < m → (Nat.toDigits 10 m).head? ≠ some '0' := by decide
        exact hdigits n hn h
      · have hfront : (Nat.toDigits 10 (n / 10)).head? ≠ some '0' := by
          apply ih (n / 10)
          · exact Nat.div_lt_self h (by decide)
          · exact Nat.div_pos (Nat.le_of_not_lt hn) (by decide)
        have hne : Nat.toDigits 10 (n / 10) ≠ [] := Nat.toDigits_ne_nil
        have hsplit := Nat.toDigits_of_base_le (b := 10) (n := n) (by decide) (Nat.le_of_not_lt hn)
        rw [hsplit, List.head?_append, List.head?_eq_some_head hne]
        simpa [List.head?_eq_some_head hne] using hfront

theorem isWhole_toDigits (n : Nat) : IsWhole (Nat.toDigits 10 n) := by
  have hall : ∀ c ∈ Nat.toDigits 10 n, c.isDigit :=
    fun c hc => Nat.isDigit_of_mem_toDigits (b := 10) (by decide) (by decide) hc
  rcases Nat.eq_zero_or_pos n with rfl | hpos
  · exact .zero
  · have hhead := head?_toDigits_ne_zero hpos
    cases hdigits : Nat.toDigits 10 n with
    | nil => exact absurd hdigits Nat.toDigits_ne_nil
    | cons d s =>
        rw [hdigits] at hall hhead
        refine .digits (hall d List.mem_cons_self) ?_ fun c hc => hall c (List.mem_cons_of_mem d hc)
        intro hd
        exact hhead (congrArg some hd)

theorem isNumber_toDigits (n : Nat) : IsNumber n 0 (Nat.toDigits 10 n) := by
  have hdecimal : decimal (Nat.toDigits 10 n) = n := Nat.ofDigitChars_ten_toDigits
  have hnumber := IsNumber.mk .absent (isWhole_toDigits n) .absent .absent
  simpa [hdecimal, signed] using hnumber

/-! ## Strings -/

theorem code?_byte {n : Nat} (h : n < 0x20) : code? (['0', '0'] ++ Hex.byte n) = some n := by
  have hall : ∀ n < 0x20, code? (['0', '0'] ++ Hex.byte n) = some n := by decide
  exact hall n h

theorem isChar_escapeChar (c : Char) : IsChar c (escapeChar c) := by
  have hshort {d letter : Char} (hc : c = d) (hmem : (letter, d) ∈ shortEscapes) :
      IsChar c ['\\', letter] := hc ▸ .short hmem
  unfold escapeChar
  split_ifs with hquote hslash hbell hfeed hline hreturn htab hcontrol
  · exact hshort hquote (by decide)
  · exact hshort hslash (by decide)
  · exact hshort hbell (by decide)
  · exact hshort hfeed (by decide)
  · exact hshort hline (by decide)
  · exact hshort hreturn (by decide)
  · exact hshort htab (by decide)
  · exact .code (code?_byte hcontrol)
  · exact .plain (Nat.le_of_not_lt hcontrol) hquote hslash

theorem isChars_flatMap_escapeChar (cs : List Char) : IsChars cs (cs.flatMap escapeChar) := by
  induction cs with
  | nil => exact .nil
  | cons c cs ih => exact .cons (isChar_escapeChar c) ih

theorem isString_quote (s : String) : IsString s (quote s) :=
  .quoted (isChars_flatMap_escapeChar s.toList)

/-! ## Layout -/

theorem isSpace_nil : IsSpace [] := by
  intro c hc
  cases hc

theorem isSpace_newline (level : Nat) : IsSpace (newline level) := by
  intro c hc
  rcases List.mem_cons.1 hc with rfl | hc
  · rfl
  · rcases List.eq_of_mem_replicate hc with rfl
    rfl

/-- A value alone is an element, with no blanks around it. -/
theorem Derives.bareElement {v : Value} {s : List Char} (h : Derives (.value v) s) :
    Derives (.element v) s := by
  simpa using Derives.element isSpace_nil h isSpace_nil

theorem Derives.member_space (name : String) {v : Value} {w s w' : List Char} (hw : IsSpace w)
    (h : Derives (.value v) s) (hw' : IsSpace w') :
    Derives (.member name v) (w ++ quote name ++ [':', ' '] ++ s ++ w') := by
  have hblank : IsSpace [' '] := fun c hc => List.mem_singleton.1 hc ▸ rfl
  simpa using Derives.member hw (isString_quote name) isSpace_nil (.element hblank h hw')

mutual

theorem derives_pretty (level : Nat) : ∀ j : Json, Derives (.value j.toValue) (pretty level j)
  | .null => .null
  | .number n => .number (isNumber_toDigits n)
  | .text s => .text (isString_quote s)
  | .array [] => .emptyArray isSpace_nil
  | .array (item :: items) => by
      have hitem := derives_pretty (level + 1) item
      have hitems := derives_prettyItems (level + 1) items (isSpace_newline (level + 1)) hitem
        (isSpace_newline level)
      simpa [toValue, toValues, pretty] using Derives.array hitems
  | .object [] => .emptyObject isSpace_nil
  | .object ((key, value) :: members) => by
      have hvalue := derives_pretty (level + 1) value
      have hmembers := derives_prettyMembers (level + 1) key members (isSpace_newline (level + 1))
        hvalue (isSpace_newline level)
      simpa [toValue, toMembers, pretty] using Derives.object hmembers

/-- The first item goes before the others, whose commas stand in front of them. -/
theorem derives_prettyItems (level : Nat) : ∀ (items : List Json) {v : Value} {w s w' : List Char},
    IsSpace w → Derives (.value v) s → IsSpace w' →
      Derives (.elements (v :: toValues items)) (w ++ s ++ prettyItems level items ++ w')
  | [], v, w, s, w', hw, h, hw' => by
      simpa [toValues, prettyItems] using Derives.lastElement (.element hw h hw')
  | item :: items, v, w, s, w', hw, h, hw' => by
      -- The comma ends the first element; the blanks behind it belong to the next one.
      have hitem := derives_pretty level item
      have hitems := derives_prettyItems level items (isSpace_newline level) hitem hw'
      have hfirst := Derives.element hw h isSpace_nil
      simpa [toValues, prettyItems] using Derives.moreElements hfirst hitems

theorem derives_prettyMembers (level : Nat) (name : String) : ∀ (members : List (String × Json))
    {v : Value} {w s w' : List Char}, IsSpace w → Derives (.value v) s → IsSpace w' →
      Derives (.members ((name, v) :: toMembers members))
        (w ++ quote name ++ [':', ' '] ++ s ++ prettyMembers level members ++ w')
  | [], v, w, s, w', hw, h, hw' => by
      simpa [toMembers, prettyMembers] using Derives.lastMember (.member_space name hw h hw')
  | (key, value) :: members, v, w, s, w', hw, h, hw' => by
      have hvalue := derives_pretty level value
      have hmembers := derives_prettyMembers level key members (isSpace_newline level) hvalue hw'
      have hfirst := Derives.member_space name hw h isSpace_nil
      simpa [toMembers, prettyMembers] using Derives.moreMembers hfirst hmembers

end

theorem isText_render (j : Json) : IsText j.toValue j.render := by
  have hpretty : Derives (.element j.toValue) (pretty 0 j) := (derives_pretty 0 j).bareElement
  simpa [IsText, render] using hpretty

end Json
end HeaderAudit

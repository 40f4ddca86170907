import HeaderAudit.Console.Lines
import Mathlib.Data.List.Basic

/-!
# TallyLine — what can be read off the summary of a run

The summary is one line of counts with words between them, some of them coloured.  Colours add
nothing to it: whoever deletes them gets the line as it is written without colours, and can read all
counters there.  This file defines:

* `Colour.uncoloured` — a text without the sequences that colour a summary;
* `numerals` — the decimal numerals in a text, in order;
* `sentence` — counts with words between them;
* `Console.failingRemark` — the end of a summary that speaks of failures.

`Fades` is closed under putting texts together, so `fades_tallyLine` follows the line part by part.
`numerals_tallyLine` reads the counters, `failingRemark_suffix_iff` the end of the line, and
`tally_reads_back` puts everything together.
-/

namespace HeaderAudit

/-! ## Colours -/

namespace Colour

/-- The sequences that colour a summary, and those that end the colour. -/
def sequences : List (List Char) :=
  ["\x1b[31m", "\x1b[32m", "\x1b[2m", "\x1b[39m", "\x1b[0m"].map String.toList

/-- The text with these sequences deleted, from left to right.  The number says how many characters
still belong to the last sequence. -/
def uncolouredFrom : Nat → List Char → List Char
  | _, [] => []
  | skipped + 1, _ :: rest => uncolouredFrom skipped rest
  | 0, c :: rest =>
      match sequences.find? (·.isPrefixOf (c :: rest)) with
      | some sequence => uncolouredFrom (sequence.length - 1) rest
      | none => c :: uncolouredFrom 0 rest

def uncoloured (s : String) : String :=
  String.ofList (uncolouredFrom 0 s.toList)

/-- The text holds no escape character. -/
def IsUncoloured (s : String) : Prop :=
  '\x1b' ∉ s.toList

instance : DecidablePred IsUncoloured :=
  fun s => inferInstanceAs (Decidable ('\x1b' ∉ s.toList))

theorem paint_false (colour : Colour) (s : String) : colour.paint false s = s :=
  rfl

theorem uncolouredFrom_sequence {sequence : List Char} (h : sequence ∈ sequences)
    (rest : List Char) : uncolouredFrom 0 (sequence ++ rest) = uncolouredFrom 0 rest := by
  simp only [sequences, List.map_cons, List.map_nil, List.mem_cons, List.not_mem_nil,
    or_false] at h
  rcases h with rfl | rfl | rfl | rfl | rfl <;> rfl

/-- Every sequence begins with the escape character. -/
theorem uncolouredFrom_cons {c : Char} (h : c ≠ '\x1b') (rest : List Char) :
    uncolouredFrom 0 (c :: rest) = c :: uncolouredFrom 0 rest := by
  have hnone : sequences.find? (·.isPrefixOf (c :: rest)) = none := by
    simp [sequences, h.symm]
  simp only [uncolouredFrom, hnone]

theorem uncolouredFrom_append {s : List Char} (h : '\x1b' ∉ s) (rest : List Char) :
    uncolouredFrom 0 (s ++ rest) = s ++ uncolouredFrom 0 rest := by
  induction s with
  | nil => rfl
  | cons c others ih =>
      rcases not_or.1 (mt List.mem_cons.2 h) with ⟨hc, hothers⟩
      rw [List.cons_append, uncolouredFrom_cons (Ne.symm hc), ih hothers, List.cons_append]

/-- The second text is what is left of the first, whatever follows. -/
structure Fades (coloured plain : String) : Prop where
  isUncoloured : IsUncoloured plain
  uncolouredFrom_eq (rest : List Char) :
    uncolouredFrom 0 (coloured.toList ++ rest) = plain.toList ++ uncolouredFrom 0 rest

namespace Fades

variable {s s' plain plain' : String}

theorem append (h : Fades s plain) (h' : Fades s' plain') : Fades (s ++ s') (plain ++ plain') where
  isUncoloured := by
    have hneither := not_or.2 ⟨h.isUncoloured, h'.isUncoloured⟩
    rwa [← List.mem_append, ← String.toList_append] at hneither
  uncolouredFrom_eq rest := by
    simp only [String.toList_append, List.append_assoc]
    rw [h.uncolouredFrom_eq, h'.uncolouredFrom_eq]

theorem of_isUncoloured (h : IsUncoloured s) : Fades s s where
  isUncoloured := h
  uncolouredFrom_eq := uncolouredFrom_append h

/-- A coloured text stands between two of the sequences. -/
theorem paint {colour : Colour} (hcolour : colour ≠ .yellow) (h : IsUncoloured s) :
    Fades (colour.paint true s) (colour.paint false s) where
  isUncoloured := h
  uncolouredFrom_eq rest := by
    have hstart : colour.start.toList ∈ sequences := by
      cases colour with
      | yellow => exact absurd rfl hcolour
      | _ => decide
    have hstop : colour.stop.toList ∈ sequences := by
      cases colour <;> decide
    have hpainted : colour.paint true s = colour.start ++ s ++ colour.stop := rfl
    rw [hpainted, paint_false]
    simp only [String.toList_append, List.append_assoc]
    rw [uncolouredFrom_sequence hstart, uncolouredFrom_append h, uncolouredFrom_sequence hstop]

theorem uncoloured_eq (h : Fades s plain) : uncoloured s = plain := by
  have hwhole := h.uncolouredFrom_eq []
  rw [List.append_nil] at hwhole
  rw [uncoloured, hwhole]
  simp [uncolouredFrom]

end Fades

end Colour

/-! ## Numerals -/

/-- The decimal numerals in a text, in order. -/
def numerals (s : List Char) : List Nat :=
  ((s.splitOnP fun c => !c.isDigit).filter (· ≠ [])).map (Nat.ofDigitChars 10 · 0)

/-- Not empty, and without a digit. -/
def IsWording (word : List Char) : Prop :=
  word ≠ [] ∧ ∀ c ∈ word, c.isDigit = false

instance : DecidablePred IsWording :=
  fun word => decidable_of_iff (word ≠ [] ∧ word.any Char.isDigit = false) (by simp [IsWording])

theorem numerals_append_cons {c : Char} (h : c.isDigit = false) (s rest : List Char) :
    numerals (s ++ c :: rest) = numerals s ++ numerals rest := by
  unfold numerals
  rw [List.splitOnP_append_cons s rest (by simp [h]), List.filter_append, List.map_append]

theorem numerals_toDigits (n : Nat) : numerals (Nat.toDigits 10 n) = [n] := by
  have hdigits : ∀ c ∈ Nat.toDigits 10 n, (!c.isDigit) = false := by
    intro c hc
    simp [Nat.isDigit_of_mem_toDigits (b := 10) (by decide) (by decide) hc]
  unfold numerals
  rw [List.splitOnP_eq_singleton hdigits]
  simp [Nat.ofDigitChars_ten_toDigits]

/-- Words are no part of the numerals, but keep them apart. -/
theorem numerals_append_wording {word : List Char} (h : IsWording word) (s rest : List Char) :
    numerals (s ++ word ++ rest) = numerals s ++ numerals rest := by
  rcases h with ⟨hne, hword⟩
  induction word generalizing s with
  | nil => exact absurd rfl hne
  | cons c others ih =>
      have hc : c.isDigit = false := hword c (by simp)
      -- Each character of the word is a cut, and between two of them there is no numeral.
      rw [List.append_assoc, List.cons_append, numerals_append_cons hc]
      by_cases hlast : others = []
      · rw [hlast, List.nil_append]
      · exact congrArg (numerals s ++ ·)
          (ih [] hlast fun d hd => hword d (List.mem_cons_of_mem c hd))

/-- Counts with words between them. -/
def sentence (opening : String) (counts : List (Nat × String)) : List Char :=
  opening.toList ++ counts.flatMap fun count => Nat.toDigits 10 count.1 ++ count.2.toList

theorem numerals_sentence {opening : String} {counts : List (Nat × String)}
    (hopening : IsWording opening.toList) (hcounts : ∀ count ∈ counts, IsWording count.2.toList) :
    numerals (sentence opening counts) = counts.map (·.1) := by
  have hcounted : numerals (counts.flatMap fun count =>
      Nat.toDigits 10 count.1 ++ count.2.toList) = counts.map (·.1) := by
    induction counts with
    | nil => rfl
    | cons count others ih =>
        have hword : IsWording count.2.toList := hcounts count (by simp)
        have hothers : ∀ other ∈ others, IsWording other.2.toList :=
          fun other hmem => hcounts other (List.mem_cons_of_mem count hmem)
        rw [List.flatMap_cons, numerals_append_wording hword, numerals_toDigits, ih hothers]
        rfl
  rw [← hcounted]
  exact numerals_append_wording hopening [] _

/-! ## The summary -/

namespace Console

open Colour (Fades IsUncoloured)

variable (t : Tally)

theorem toList_number (n : UInt64) : (number n).toList = Nat.toDigits 10 n.toNat := by
  simp [number]

theorem isUncoloured_number (n : UInt64) : IsUncoloured (number n) := by
  intro hmem
  rw [toList_number] at hmem
  have hdigit := Nat.isDigit_of_mem_toDigits (b := 10) (by decide) (by decide) hmem
  exact absurd hdigit (by decide)

theorem fades_missingCount : Fades (missingCount true t) (missingCount false t) := by
  unfold missingCount
  split
  · exact Fades.paint (by decide) (isUncoloured_number _)
  · exact Fades.of_isUncoloured (isUncoloured_number _)

theorem fades_failingPart : Fades (failingPart true t) (failingPart false t) := by
  have hword {s : String} (h : IsUncoloured s) : Fades s s := Fades.of_isUncoloured h
  have hremark : IsUncoloured (number t.failureCount ++ " failing") :=
    ((hword (isUncoloured_number _)).append (hword (by decide))).isUncoloured
  unfold failingPart
  split
  · exact ((hword (by decide)).append (Fades.paint (by decide) hremark)).append (hword (by decide))
  · exact hword (by decide)

theorem fades_tallyLine : Fades (tallyLine true t) (tallyLine false t) := by
  have hword {s : String} (h : IsUncoloured s) : Fades s s := Fades.of_isUncoloured h
  have hcount (n : UInt64) : Fades (number n) (number n) := hword (isUncoloured_number n)
  have hfiles : IsUncoloured (if t.total = 1 then " file: " else " files: ") := by
    split <;> decide
  unfold tallyLine
  exact (hword (by decide)).append (hcount t.total) |>.append (hword hfiles)
    |>.append (Fades.paint (by decide) (isUncoloured_number t.passed)) |>.append (hword (by decide))
    |>.append (Fades.paint (by decide) (isUncoloured_number t.excluded))
    |>.append (hword (by decide))
    |>.append (fades_missingCount t) |>.append (hword (by decide))
    |>.append (hcount t.unreadable) |>.append (hword (by decide))
    |>.append (fades_failingPart t)

/-- The end of a summary that speaks of failures. -/
def failingRemark (n : Nat) : String :=
  "(" ++ toString n ++ " failing)"

/-- The counts that every summary has, and the words behind them. -/
def counts : List (Nat × String) :=
  [(t.total.toNat, if t.total = 1 then " file: " else " files: "),
    (t.passed.toNat, " passed, "),
    (t.excluded.toNat, " excluded, "),
    (t.missing.toNat, " missing, "),
    (t.unreadable.toNat, " unreadable")]

theorem missingCount_false : missingCount false t = number t.missing := by
  unfold missingCount
  split <;> rfl

theorem failingPart_false :
    failingPart false t =
      if 0 < t.failureCount then " " ++ failingRemark t.failureCount.toNat else "" := by
  have hopens : " (" = " " ++ "(" := by decide
  have hends : " failing)" = " failing" ++ ")" := by decide
  unfold failingPart failingRemark
  rw [hopens, hends]
  simp only [Colour.paint_false, number, String.append_assoc]

theorem toList_tallyLine :
    (tallyLine false t).toList =
      sentence "Checked " (counts t) ++ (failingPart false t).toList := by
  unfold tallyLine sentence counts
  simp only [missingCount_false, Colour.paint_false, List.flatMap_cons,
    List.flatMap_nil, String.toList_append, toList_number, List.append_assoc, List.nil_append]

theorem numerals_append_failingRemark (front : List Char) (n : Nat) :
    numerals (front ++ (failingRemark n).toList) = numerals front ++ [n] := by
  have hremark : (failingRemark n).toList = '(' :: (Nat.toDigits 10 n ++ " failing)".toList) := by
    simp [failingRemark]
  have hword : IsWording " failing)".toList := by decide
  have hcount := numerals_append_wording hword (Nat.toDigits 10 n) []
  rw [List.append_nil, numerals_toDigits] at hcount
  rw [hremark, numerals_append_cons (by decide), hcount]
  rfl

/-- The counters stand in the summary in order, and the failures behind them if there are any. -/
theorem numerals_tallyLine :
    numerals (tallyLine false t).toList =
      [t.total.toNat, t.passed.toNat, t.excluded.toNat, t.missing.toNat, t.unreadable.toNat] ++
        if 0 < t.failureCount then [t.failureCount.toNat] else [] := by
  have hwords : ∀ count ∈ counts t, IsWording count.2.toList := by
    have hfiles : IsWording (if t.total = 1 then " file: " else " files: ").toList := by
      split <;> decide
    simp only [counts, List.forall_mem_cons]
    exact ⟨hfiles, by decide, by decide, by decide, by decide, fun count h => nomatch h⟩
  have hcounts : numerals (sentence "Checked " (counts t)) = (counts t).map (·.1) :=
    numerals_sentence (by decide) hwords
  rw [toList_tallyLine, failingPart_false]
  split
  -- The blank in front of the remark ends the fifth numeral.
  · have hblank : (" " ++ failingRemark t.failureCount.toNat).toList =
        ' ' :: (failingRemark t.failureCount.toNat).toList := by
      simp
    have hremark := numerals_append_failingRemark [] t.failureCount.toNat
    rw [List.nil_append] at hremark
    rw [hblank, numerals_append_cons (by decide), hcounts, hremark]
    rfl
  · rw [String.toList_empty, List.append_nil, hcounts]
    rfl

theorem tallyLine_false_injective : Function.Injective (tallyLine false) := by
  rintro ⟨total, passed, excluded, missing, unreadable⟩
    ⟨total', passed', excluded', missing', unreadable'⟩ h
  -- The failures behind the five counters are only there if there are any, so they are left out.
  have hnumerals := congrArg (fun line => (numerals line.toList).take 5) h
  simp only [numerals_tallyLine] at hnumerals
  simpa [UInt64.toNat_inj] using hnumerals

/-- Without failures the line ends in a letter. -/
theorem getLast?_tallyLine (h : ¬ 0 < t.failureCount) :
    (tallyLine false t).toList.getLast? = some 'e' := by
  have hline : ∃ front, tallyLine false t = front ++ " unreadable" ++ failingPart false t :=
    ⟨_, rfl⟩
  rcases hline with ⟨front, hline⟩
  have hletter : " unreadable".toList.getLast? = some 'e' := by decide
  rw [hline, failingPart_false, if_neg h, String.append_empty, String.toList_append,
    List.getLast?_append, hletter]
  rfl

theorem failingRemark_suffix_iff (n : Nat) :
    (failingRemark n).toList <:+ (tallyLine false t).toList ↔
      n = t.failureCount.toNat ∧ 0 < t.failureCount := by
  by_cases hfails : 0 < t.failureCount
  · have hline : (failingRemark t.failureCount.toNat).toList <:+ (tallyLine false t).toList := by
      rw [toList_tallyLine, failingPart_false, if_pos hfails, String.toList_append,
        ← List.append_assoc]
      exact List.suffix_append _ _
    constructor
    · rintro ⟨front, hfront⟩
      -- The count of the remark is the last numeral of the line.
      have hlast := congrArg (fun line => (numerals line).getLast?) hfront
      simp only [numerals_append_failingRemark, numerals_tallyLine, if_pos hfails] at hlast
      exact ⟨by simpa using hlast, hfails⟩
    · rintro ⟨rfl, _⟩
      exact hline
  · refine iff_of_false ?_ fun h => hfails h.2
    rintro ⟨front, hfront⟩
    -- A remark ends in a parenthesis, a line without failures in a letter.
    have hparenthesis : " failing)".toList.getLast? = some ')' := by decide
    have hends : (failingRemark n).toList.getLast? = some ')' := by
      rw [failingRemark, String.toList_append, List.getLast?_append, hparenthesis]
      rfl
    have hlast := congrArg List.getLast? hfront
    rw [getLast?_tallyLine t hfails, List.getLast?_append, hends] at hlast
    cases hlast

/-- In verbose mode the summary is one line, and otherwise there is none.  Left to itself it is
coloured where standard error is found to show colours.  As long as 64 bits hold the failures, this
is so: deleting the colours from the line gives the line as it is written without colours, where no
escape character is left.  The numerals in it are the five counters, and behind them the failures if
there are any, so no other summary is written in the same way.  The line ends in a remark about
failures exactly if there are failures, and then it gives their number. -/
theorem tally_reads_back (supported : Bool)
    (hexact : t.missing.toNat + t.unreadable.toNat < UInt64.size) :
    let line (choice : ColourChoice) : String := tallyLine (choice.isOn supported) t
    let plain := line .never
    let failures := t.missing.toNat + t.unreadable.toNat
    (∀ choice : ColourChoice, tally .verbose (choice.isOn supported) t = [line choice]) ∧
      (∀ mode coloured, mode ≠ .verbose → tally mode coloured t = []) ∧
      (supported = false → line .auto = plain) ∧
      (supported = true → line .auto = line .always) ∧
      (∀ choice, Colour.uncoloured (line choice) = plain) ∧
      '\x1b' ∉ plain.toList ∧
      (numerals plain.toList =
        [t.total.toNat, t.passed.toNat, t.excluded.toNat, t.missing.toNat, t.unreadable.toNat] ++
          if 0 < failures then [failures] else []) ∧
      (∀ other, tallyLine (ColourChoice.never.isOn supported) other = plain → other = t) ∧
      ∀ n, (failingRemark n).toList <:+ plain.toList ↔ n = failures ∧ 0 < failures := by
  intro line plain failures
  have hfailures : t.failureCount.toNat = failures := by
    rw [Tally.failureCount, UInt64.toNat_add]
    exact Nat.mod_eq_of_lt hexact
  have hpositive : 0 < t.failureCount ↔ 0 < failures := by
    rw [UInt64.lt_iff_toNat_lt, hfailures]
    rfl
  have hplain : plain = tallyLine false t := rfl
  have hfades := fades_tallyLine t
  refine ⟨fun choice => rfl, ?_, ?_, ?_, ?_, hfades.isUncoloured, ?_,
    fun other h => tallyLine_false_injective h, ?_⟩
  · intro mode coloured hmode
    have hhidden : mode.showsDetails = false := by simpa [Loudness.showsDetails] using hmode
    simp [tally, detail, hhidden]
  · rintro rfl
    rfl
  · rintro rfl
    rfl
  · intro choice
    -- Whatever the choice comes to, the line is either coloured or plain.
    cases hcoloured : choice.isOn supported with
    | true =>
        have hline : line choice = tallyLine true t := congrArg (tallyLine · t) hcoloured
        rw [hline]
        exact hfades.uncoloured_eq
    | false =>
        have hline : line choice = plain := congrArg (tallyLine · t) hcoloured
        rw [hline]
        exact (Fades.of_isUncoloured hfades.isUncoloured).uncoloured_eq
  · rw [hplain, numerals_tallyLine, hfailures]
    simp only [hpositive]
  · intro n
    rw [hplain, failingRemark_suffix_iff, hfailures, hpositive]

/-- The largest count of failures that 64 bits hold, where standard error shows no colours. -/
theorem tally_reads_back_at_limit :
    let t : Tally := ⟨1, 0, 0, 18446744073709551614, 1⟩
    let line (choice : ColourChoice) : String := tallyLine (choice.isOn false) t
    t.missing.toNat + t.unreadable.toNat < UInt64.size ∧
      line .auto = line .never ∧
      Colour.uncoloured (line .always) = line .never ∧
      numerals (line .never).toList =
        [1, 0, 0, 18446744073709551614, 1, 18446744073709551615] ∧
      (failingRemark 18446744073709551615).toList <:+ (line .never).toList := by
  intro t line
  have hexact : t.missing.toNat + t.unreadable.toNat < UInt64.size := by decide
  rcases tally_reads_back t false hexact with
    ⟨_, _, hauto, _, hfades, _, hnumerals, _, hremark⟩
  exact ⟨hexact, hauto rfl, hfades .always, hnumerals, (hremark _).2 ⟨rfl, by decide⟩⟩

end Console
end HeaderAudit

import HeaderAudit.Proofs.JsonReader

/-!
# JsonReading — the reader follows the grammar

Whatever a rule of the grammar derives is read, inside of any frames and before any text that cannot
be taken for more of it.  The main statements are:

* `Json.number?_of_isNumber` and `Json.Reader.run_char` — the written forms of numbers and of
  characters are read back;
* `Json.Derives.read` — the same for every part of the grammar, by induction on its rules;
* `Json.read?_of_isText` — a text that stands for a value is read as that value;
* `Json.IsText.unique` — so no text stands for two values.
-/

namespace HeaderAudit
namespace Json

/-! ## Characters of words -/

/-- The characters at which a word ends. -/
def delimiters : List Char :=
  [' ', '\t', '\n', '\r', '"', '[', ']', '{', '}', ',', ':']

theorem isWordChar_iff {c : Char} : isWordChar c ↔ c ∉ delimiters := by
  unfold isWordChar isSpace Mark.ofChar? delimiters
  split
  all_goals simp_all [and_assoc]

theorem isWordChar_of_isDigit {c : Char} (h : c.isDigit) : isWordChar c := by
  have hall : delimiters.all fun d => !d.isDigit := rfl
  apply isWordChar_iff.2
  intro hmem
  have hnot := List.all_eq_true.1 hall c hmem
  simp [h] at hnot

/-- What follows cannot be taken for more of the word before it. -/
def Delimited (rest : List Char) : Prop :=
  ∀ c, rest.head? = some c → isWordChar c = false

theorem delimited_cons {c : Char} (h : isWordChar c = false) (rest : List Char) :
    Delimited (c :: rest) := by
  intro d hd
  rcases Option.some.inj hd with rfl
  exact h

/-! ## Numbers -/

/-- Digits end where something else begins. -/
def EndsDigits (rest : List Char) : Prop :=
  ∀ c, rest.head? = some c → c.isDigit = false

theorem takeWhile_digits {s rest : List Char} (hs : ∀ c ∈ s, c.isDigit) (hrest : EndsDigits rest) :
    (s ++ rest).takeWhile Char.isDigit = s ∧ (s ++ rest).dropWhile Char.isDigit = rest := by
  rw [List.takeWhile_append_of_pos hs, List.dropWhile_append_of_pos hs]
  cases rest with
  | nil => simp
  | cons c rest => simp [hrest c rfl]

theorem IsWhole.isDigit {s : List Char} (h : IsWhole s) : ∀ c ∈ s, c.isDigit := by
  cases h with
  | zero => exact List.all_eq_true.1 rfl
  | digits hd _ hs =>
      intro c hc
      rcases List.mem_cons.1 hc with rfl | hc
      · exact hd
      · exact hs c hc

theorem isWhole_of_isWhole {s : List Char} (h : IsWhole s) : isWhole s := by
  cases h with
  | zero => decide
  | digits _ hd _ => simp [isWhole, hd]

theorem IsPower.endsDigits {n : Int} {p : List Char} (h : IsPower n p) : EndsDigits p := by
  cases h with
  | absent =>
      intro c hc
      cases hc
  | power he _ _ =>
      intro c hc
      rcases Option.some.inj hc with rfl
      rcases he with rfl | rfl
      · decide
      · decide

theorem fraction?_of_isFraction {f b p : List Char} {n : Int} (hf : IsFraction f b)
    (hp : IsPower n p) : fraction? (b ++ p) = some (f, p) := by
  cases hf with
  | absent =>
      cases hp with
      | absent => rfl
      | power he _ _ =>
          rcases he with rfl | rfl
          · rfl
          · rfl
  | point hf =>
      rcases takeWhile_digits hf.2 hp.endsDigits with ⟨htake, hdrop⟩
      simp [fraction?, htake, hdrop, hf.1]

theorem power?_of_isPower {n : Int} {p : List Char} (h : IsPower n p) : power? p = some n := by
  cases h with
  | absent => rfl
  | @power e negative a s he ha hs =>
      -- Without a sign of its own the power begins with a digit.
      have hsign : powerSign (a ++ s) = (negative, s) := by
        cases ha with
        | absent =>
            cases s with
            | nil => exact absurd rfl hs.1
            | cons d s =>
                have hd : d.isDigit := hs.2 d List.mem_cons_self
                have hplus : d ≠ '+' := fun heq => by simp [heq] at hd
                have hminus : d ≠ '-' := fun heq => by simp [heq] at hd
                simp [powerSign, hplus, hminus]
        | plus => rfl
        | minus => rfl
      have hall : s.all Char.isDigit := List.all_eq_true.2 hs.2
      simp [power?, hsign, he, hs.1, hall]

theorem sign_of_isSign {negative : Bool} {a s rest : List Char} (ha : IsSign negative a)
    (hs : IsWhole s) : sign (a ++ (s ++ rest)) = (negative, s ++ rest) := by
  cases ha with
  | minus => rfl
  | absent =>
      cases hs with
      | zero => rfl
      | @digits d s hd hzero hdigits =>
          have hminus : d ≠ '-' := fun heq => by simp [heq] at hd
          simp [sign, hminus]

theorem IsFraction.endsDigits {f b p : List Char} {n : Int} (hf : IsFraction f b)
    (hp : IsPower n p) : EndsDigits (b ++ p) := by
  cases hf with
  | absent => exact hp.endsDigits
  | point _ =>
      intro c hc
      rcases Option.some.inj hc with rfl
      decide

theorem number?_of_isNumber {m n : Int} {s : List Char} (h : IsNumber m n s) :
    number? s = some (.number m n) := by
  cases h with
  | @mk negative n a s f b p ha hs hf hp =>
      have hsign : sign (a ++ s ++ b ++ p) = (negative, s ++ (b ++ p)) := by
        simpa only [List.append_assoc] using sign_of_isSign ha hs
      -- Each part ends where the next one begins, since only digits go on with it.
      rcases takeWhile_digits hs.isDigit (hf.endsDigits hp) with ⟨htake, hdrop⟩
      simp only [number?, hsign, htake, hdrop, isWhole_of_isWhole hs, if_true,
        fraction?_of_isFraction hf hp, power?_of_isPower hp]

/-! ## Words -/

/-- A word that stands for a value. -/
def IsWord (v : Value) (w : List Char) : Prop :=
  w ≠ [] ∧ (∀ c ∈ w, isWordChar c) ∧ word? w = some v

theorem isWordChar_of_mem_number {m n : Int} {s : List Char} (h : IsNumber m n s) :
    s ≠ [] ∧ ∀ c ∈ s, isWordChar c := by
  have hdigits {s : List Char} (hs : ∀ c ∈ s, c.isDigit) : ∀ c ∈ s, isWordChar c :=
    fun c hc => isWordChar_of_isDigit (hs c hc)
  cases h with
  | mk ha hs hf hp =>
      refine ⟨by cases hs <;> simp, ?_⟩
      intro c hc
      simp only [List.mem_append] at hc
      -- The character stands in the sign, in the whole part, in the fraction or in the power.
      rcases hc with ((hc | hc) | hc) | hc
      · cases ha with
        | absent => cases hc
        | minus => exact List.mem_singleton.1 hc ▸ by decide
      · exact hdigits hs.isDigit c hc
      · cases hf with
        | absent => cases hc
        | point hf =>
            rcases List.mem_cons.1 hc with rfl | hc
            · decide
            · exact hdigits hf.2 c hc
      · cases hp with
        | absent => cases hc
        | @power e negative a s he ha hs =>
            rcases List.mem_append.1 hc with hc | hc
            · rcases List.mem_cons.1 hc with rfl | hc
              · rcases he with rfl | rfl <;> decide
              · cases ha with
                | absent => cases hc
                | plus => exact List.mem_singleton.1 hc ▸ by decide
                | minus => exact List.mem_singleton.1 hc ▸ by decide
            · exact hdigits hs.2 c hc

theorem IsNumber.isWord {m n : Int} {s : List Char} (h : IsNumber m n s) :
    IsWord (.number m n) s := by
  rcases isWordChar_of_mem_number h with ⟨hne, hchars⟩
  exact ⟨hne, hchars, by simp [word?, number?_of_isNumber h]⟩

theorem isWord_null : IsWord .null ['n', 'u', 'l', 'l'] :=
  ⟨List.cons_ne_nil _ _, List.all_eq_true.1 rfl, rfl⟩

theorem isWord_yes : IsWord (.boolean true) ['t', 'r', 'u', 'e'] :=
  ⟨List.cons_ne_nil _ _, List.all_eq_true.1 rfl, rfl⟩

theorem isWord_no : IsWord (.boolean false) ['f', 'a', 'l', 's', 'e'] :=
  ⟨List.cons_ne_nil _ _, List.all_eq_true.1 rfl, rfl⟩

/-! ## Steps of the reader -/

namespace Reader

variable {stage next : Stage} {stack : List Frame} {c : Char} {rest : List Char}

theorem run_cons_of_step {r r' : Reader} (h : r.step c = some r') :
    run r (c :: rest) = run r' rest := by
  simp [run, h]

theorem run_space {w : List Char} (hw : IsSpace w) :
    run ⟨stage, .between⟩ (w ++ rest) = run ⟨stage, .between⟩ rest := by
  induction w with
  | nil => rfl
  | cons c w ih =>
      have hc : isSpace c := hw c List.mem_cons_self
      have hstep : step ⟨stage, .between⟩ c = some ⟨stage, .between⟩ := by
        simp [step, start, hc]
      rw [List.cons_append, run_cons_of_step hstep]
      exact ih fun d hd => hw d (List.mem_cons_of_mem c hd)

/-! ### Words -/

theorem run_word_chars {read w : List Char} (hw : ∀ c ∈ w, isWordChar c) :
    run ⟨stage, .word read⟩ (w ++ rest) = run ⟨stage, .word (read ++ w)⟩ rest := by
  induction w generalizing read with
  | nil => simp
  | cons c w ih =>
      have hc : isWordChar c := hw c List.mem_cons_self
      have hstep : step ⟨stage, .word read⟩ c = some ⟨stage, .word (read ++ [c])⟩ := by
        simp [step, hc]
      rw [List.cons_append, run_cons_of_step hstep,
        ih fun d hd => hw d (List.mem_cons_of_mem c hd), List.append_assoc]
      rfl

/-- The character behind a word is looked at as if the word had been taken before. -/
theorem run_word_end {w : List Char} {v : Value} (hword : word? w = some v)
    (htake : stage.take (.word v) = some next) (hrest : Delimited rest) :
    run ⟨stage, .word w⟩ rest = run ⟨next, .between⟩ rest := by
  cases rest with
  | nil => simp [run, finish, hword, htake]
  | cons c rest =>
      have hc : isWordChar c = false := hrest c rfl
      simp [run, step, hc, hword, htake]

theorem run_word {w : List Char} {v : Value} (hw : IsWord v w) (hrest : Delimited rest) :
    run ⟨.value stack, .between⟩ (w ++ rest) = run ⟨.after v stack, .between⟩ rest := by
  rcases hw with ⟨hne, hchars, hword⟩
  cases w with
  | nil => exact absurd rfl hne
  | cons c w =>
      have hc : (isSpace c = false ∧ ¬ c = '"') ∧ Mark.ofChar? c = none := by
        simpa [isWordChar] using hchars c List.mem_cons_self
      have hstart : step ⟨.value stack, .between⟩ c = some ⟨.value stack, .word [c]⟩ := by
        simp [step, start, hc]
      have hothers : ∀ d ∈ w, isWordChar d := fun d hd => hchars d (List.mem_cons_of_mem c hd)
      -- The first character begins the word, the others go on with it, and what follows ends it.
      calc
        run ⟨.value stack, .between⟩ (c :: w ++ rest)
            = run ⟨.value stack, .word [c]⟩ (w ++ rest) := run_cons_of_step hstart
        _ = run ⟨.value stack, .word (c :: w)⟩ rest := run_word_chars hothers
        _ = run ⟨.after v stack, .between⟩ rest := run_word_end hword rfl hrest

/-! ### Strings -/

variable {read : List Char}

theorem run_text_step {escape : Escape} {lexeme : Lexeme} (hquote : escape = .none → c ≠ '"')
    (h : textStep read escape c = some lexeme) :
    run ⟨stage, .text read escape⟩ (c :: rest) = run ⟨stage, lexeme⟩ rest := by
  apply run_cons_of_step
  cases escape with
  | none => simp [step, hquote rfl, h]
  | begun high => simp [step, h]
  | code high digits => simp [step, h]
  | second high => simp [step, h]

/-- The four digits of a code. -/
theorem run_code {high : Option Nat} {digits : List Char} {n : Nat} {lexeme : Lexeme}
    (hcode : code? digits = some n) (hadd : addCode read high n = some lexeme) :
    run ⟨stage, .text read (.begun high)⟩ ('u' :: (digits ++ rest)) = run ⟨stage, lexeme⟩ rest := by
  match digits, hcode with
  | [a, b, c, d], hcode =>
      have hlast : textStep read (.code high [a, b, c]) d = some lexeme := by
        simp [textStep, hcode, hadd]
      have hbegun : run ⟨stage, .text read (.begun high)⟩ ('u' :: a :: b :: c :: d :: rest) =
          run ⟨stage, .text read (.code high [a, b, c])⟩ (d :: rest) := rfl
      exact hbegun.trans (run_text_step (by simp) hlast)

theorem run_char {s : List Char} (h : IsChar c s) :
    run ⟨stage, .text read .none⟩ (s ++ rest) = run ⟨stage, .text (read ++ [c]) .none⟩ rest := by
  have hbackslash (t : List Char) : run ⟨stage, .text read .none⟩ ('\\' :: t) =
      run ⟨stage, .text read (.begun none)⟩ t := rfl
  cases h with
  | plain hlow hquote hslash =>
      apply run_text_step (fun _ => hquote)
      simp [textStep, hslash, Nat.not_lt.2 hlow]
  | @short letter _ hmem =>
      have hletters : ∀ entry ∈ shortEscapes,
          entry.1 ≠ 'u' ∧ shortEscapes.lookup entry.1 = some entry.2 := by decide
      rcases hletters _ hmem with ⟨hu, hlookup⟩
      have hstep : textStep read (.begun none) letter = some (.text (read ++ [c]) .none) := by
        simp [textStep, hu, hlookup]
      exact (hbackslash _).trans (run_text_step (by simp) hstep)
  | @code _ digits hcode =>
      -- No character has the code of a half, so the reader does not wait for a second one.
      have hhalf : isHighHalf c.toNat = false ∧ isLowHalf c.toNat = false := by
        have hvalid : c.toNat < 0xD800 ∨ 0xDFFF < c.toNat ∧ c.toNat < 0x110000 := c.valid
        simp only [isHighHalf, isLowHalf, Bool.and_eq_false_iff, decide_eq_false_iff_not]
        omega
      have hadd : addCode read none c.toNat = some (.text (read ++ [c]) .none) := by
        simp [addCode, hhalf, Char.ofNat_toNat]
      exact (hbackslash _).trans (run_code hcode hadd)
  | @halves _ digits digits' high low hhigh hishigh hlow hislow hc =>
      have hfirst : addCode read none high = some (.text read (.second high)) := by
        simp [addCode, hishigh]
      have hsecond : addCode read (some high) low = some (.text (read ++ [c]) .none) := by
        simp [addCode, hislow, ← hc, Char.ofNat_toNat]
      calc
        run ⟨stage, .text read .none⟩ ('\\' :: 'u' :: digits ++ '\\' :: 'u' :: digits' ++ rest)
            = run ⟨stage, .text read (.begun none)⟩
                ('u' :: (digits ++ ('\\' :: 'u' :: (digits' ++ rest)))) := by
              simpa using hbackslash _
        _ = run ⟨stage, .text read (.second high)⟩ ('\\' :: 'u' :: (digits' ++ rest)) :=
              run_code hhigh hfirst
        _ = run ⟨stage, .text read (.begun (some high))⟩ ('u' :: (digits' ++ rest)) := rfl
        _ = run ⟨stage, .text (read ++ [c]) .none⟩ rest := run_code hlow hsecond

theorem run_chars {cs s : List Char} (h : IsChars cs s) :
    run ⟨stage, .text read .none⟩ (s ++ rest) = run ⟨stage, .text (read ++ cs) .none⟩ rest := by
  induction h generalizing read with
  | nil => simp
  | @cons c cs s t hc _ ih =>
      calc
        run ⟨stage, .text read .none⟩ (s ++ t ++ rest)
            = run ⟨stage, .text (read ++ [c]) .none⟩ (t ++ rest) := by
              rw [List.append_assoc, run_char hc]
        _ = run ⟨stage, .text (read ++ [c] ++ cs) .none⟩ rest := ih
        _ = run ⟨stage, .text (read ++ c :: cs) .none⟩ rest := by simp

theorem run_string {text : String} {s : List Char} (h : IsString text s)
    (htake : stage.take (.text text) = some next) :
    run ⟨stage, .between⟩ (s ++ rest) = run ⟨next, .between⟩ rest := by
  cases h with
  | @quoted s hs =>
      have hend : step ⟨stage, .text text.toList .none⟩ '"' = some ⟨next, .between⟩ := by
        simp [step, take, htake]
      -- The first quotation mark opens the text and the last one hands it over.
      calc
        run ⟨stage, .between⟩ ('"' :: s ++ ['"'] ++ rest)
            = run ⟨stage, .text [] .none⟩ (s ++ '"' :: rest) := by
              rw [List.append_assoc]
              rfl
        _ = run ⟨stage, .text text.toList .none⟩ ('"' :: rest) := run_chars hs
        _ = run ⟨next, .between⟩ rest := run_cons_of_step hend

end Reader

/-! ## The rules of the grammar -/

open Reader

/-- The reader takes a text for the given part, whatever is around it.  What belongs to a list is
added to the frame that is open, and the list ends with the mark that closes the frame. -/
def Part.IsRead (s : List Char) : Part → Prop
  | .value v | .element v => ∀ stack rest, Delimited rest →
      run ⟨.value stack, .between⟩ (s ++ rest) = run ⟨.after v stack, .between⟩ rest
  | .elements vs => ∀ before stack rest,
      run ⟨.value (.items before :: stack), .between⟩ (s ++ ']' :: rest) =
        run ⟨.after (.array (before ++ vs)) stack, .between⟩ rest
  | .member name v => ∀ before stack rest, Delimited rest →
      run ⟨.key before stack, .between⟩ (s ++ rest) =
        run ⟨.after v (.members before name :: stack), .between⟩ rest
  | .members ms => ∀ before stack rest,
      run ⟨.key before stack, .between⟩ (s ++ '}' :: rest) =
        run ⟨.after (.object (before ++ ms)) stack, .between⟩ rest

theorem run_openArray (stack : List Frame) (s rest : List Char) :
    run ⟨.value stack, .between⟩ ('[' :: s ++ [']'] ++ rest) =
      run ⟨.value (.items [] :: stack), .between⟩ (s ++ ']' :: rest) := by
  rw [List.append_assoc]
  rfl

theorem run_openObject (stack : List Frame) (s rest : List Char) :
    run ⟨.value stack, .between⟩ ('{' :: s ++ ['}'] ++ rest) =
      run ⟨.key [] stack, .between⟩ (s ++ '}' :: rest) := by
  rw [List.append_assoc]
  rfl

theorem delimited_space_append {w rest : List Char} (hw : IsSpace w) (hrest : Delimited rest) :
    Delimited (w ++ rest) := by
  cases w with
  | nil => exact hrest
  | cons c w =>
      have hc : isSpace c := hw c List.mem_cons_self
      exact delimited_cons (by simp [isWordChar, hc]) _

theorem Derives.read {p : Part} {s : List Char} (h : Derives p s) : p.IsRead s := by
  -- The induction is on the derivation; what is around a part is in the stack and in `rest`.
  induction h with
  | null => exact fun stack rest hrest => run_word isWord_null hrest
  | yes => exact fun stack rest hrest => run_word isWord_yes hrest
  | no => exact fun stack rest hrest => run_word isWord_no hrest
  | number hs => exact fun stack rest hrest => run_word hs.isWord hrest
  | text hs => exact fun stack rest _ => run_string hs rfl
  | @emptyArray w hw =>
      intro stack rest _
      calc
        run ⟨.value stack, .between⟩ ('[' :: w ++ [']'] ++ rest)
            = run ⟨.value (.items [] :: stack), .between⟩ (w ++ ']' :: rest) :=
              run_openArray stack w rest
        _ = run ⟨.value (.items [] :: stack), .between⟩ (']' :: rest) := run_space hw
        _ = run ⟨.after (.array []) stack, .between⟩ rest := rfl
  | @array vs s _ ih =>
      -- The opening bracket opens the frame that the elements are added to.
      intro stack rest _
      calc
        run ⟨.value stack, .between⟩ ('[' :: s ++ [']'] ++ rest)
            = run ⟨.value (.items [] :: stack), .between⟩ (s ++ ']' :: rest) :=
              run_openArray stack s rest
        _ = run ⟨.after (.array vs) stack, .between⟩ rest := ih [] stack rest
  | @emptyObject w hw =>
      intro stack rest _
      calc
        run ⟨.value stack, .between⟩ ('{' :: w ++ ['}'] ++ rest)
            = run ⟨.key [] stack, .between⟩ (w ++ '}' :: rest) :=
              run_openObject stack w rest
        _ = run ⟨.key [] stack, .between⟩ ('}' :: rest) := run_space hw
        _ = run ⟨.after (.object []) stack, .between⟩ rest := rfl
  | @object ms s _ ih =>
      intro stack rest _
      calc
        run ⟨.value stack, .between⟩ ('{' :: s ++ ['}'] ++ rest)
            = run ⟨.key [] stack, .between⟩ (s ++ '}' :: rest) :=
              run_openObject stack s rest
        _ = run ⟨.after (.object ms) stack, .between⟩ rest := ih [] stack rest
  | @element v w s w' hw _ hw' ih =>
      intro stack rest hrest
      calc
        run ⟨.value stack, .between⟩ (w ++ s ++ w' ++ rest)
            = run ⟨.value stack, .between⟩ (s ++ (w' ++ rest)) := by
              simpa using run_space hw
        _ = run ⟨.after v stack, .between⟩ (w' ++ rest) :=
              ih stack (w' ++ rest) (delimited_space_append hw' hrest)
        _ = run ⟨.after v stack, .between⟩ rest := run_space hw'
  | @lastElement v s _ ih =>
      intro before stack rest
      exact ih (.items before :: stack) (']' :: rest) (delimited_cons rfl rest)
  | @moreElements v vs s t _ _ ihs iht =>
      -- What has been read moves into the frame, which the rest of the elements find there.
      intro before stack rest
      calc
        run ⟨.value (.items before :: stack), .between⟩ (s ++ ',' :: t ++ ']' :: rest)
            = run ⟨.value (.items before :: stack), .between⟩ (s ++ ',' :: (t ++ ']' :: rest)) := by
              rw [List.append_assoc, List.cons_append]
        _ = run ⟨.after v (.items before :: stack), .between⟩ (',' :: (t ++ ']' :: rest)) :=
              ihs (.items before :: stack) _ (delimited_cons rfl _)
        _ = run ⟨.value (.items (before ++ [v]) :: stack), .between⟩ (t ++ ']' :: rest) := rfl
        _ = run ⟨.after (.array (before ++ [v] ++ vs)) stack, .between⟩ rest :=
              iht (before ++ [v]) stack rest
        _ = run ⟨.after (.array (before ++ v :: vs)) stack, .between⟩ rest := by simp
  | @member name v w k w' s hw hk hw' _ ih =>
      intro before stack rest hrest
      calc
        run ⟨.key before stack, .between⟩ (w ++ k ++ w' ++ ':' :: s ++ rest)
            = run ⟨.key before stack, .between⟩ (k ++ (w' ++ ':' :: (s ++ rest))) := by
              simpa using run_space hw
        _ = run ⟨.colon before name stack, .between⟩ (w' ++ ':' :: (s ++ rest)) :=
              run_string hk rfl
        _ = run ⟨.colon before name stack, .between⟩ (':' :: (s ++ rest)) := run_space hw'
        _ = run ⟨.value (.members before name :: stack), .between⟩ (s ++ rest) := rfl
        _ = run ⟨.after v (.members before name :: stack), .between⟩ rest :=
              ih (.members before name :: stack) rest hrest
  | @lastMember name v s _ ih =>
      intro before stack rest
      exact ih before stack ('}' :: rest) (delimited_cons rfl rest)
  | @moreMembers name v ms s t _ _ ihs iht =>
      intro before stack rest
      calc
        run ⟨.key before stack, .between⟩ (s ++ ',' :: t ++ '}' :: rest)
            = run ⟨.key before stack, .between⟩ (s ++ ',' :: (t ++ '}' :: rest)) := by
              rw [List.append_assoc, List.cons_append]
        _ = run ⟨.after v (.members before name :: stack), .between⟩ (',' :: (t ++ '}' :: rest)) :=
              ihs before stack _ (delimited_cons rfl _)
        _ = run ⟨.key (before ++ [(name, v)]) stack, .between⟩ (t ++ '}' :: rest) := rfl
        _ = run ⟨.after (.object (before ++ [(name, v)] ++ ms)) stack, .between⟩ rest :=
              iht (before ++ [(name, v)]) stack rest
        _ = run ⟨.after (.object (before ++ (name, v) :: ms)) stack, .between⟩ rest := by simp

/-- A text that stands for a value is read as that value. -/
theorem read?_of_isText {v : Value} {text : String} (h : IsText v text) : read? text = some v := by
  have hend : Delimited [] := fun c hc => by cases hc
  have hread : run ⟨.value [], .between⟩ (text.toList ++ []) = some v := Derives.read h [] [] hend
  simpa only [read?, List.append_nil] using hread

/-- No text stands for two values. -/
theorem IsText.unique {v v' : Value} {text : String} (h : IsText v text) (h' : IsText v' text) :
    v = v' :=
  Option.some.inj ((read?_of_isText h).symm.trans (read?_of_isText h'))

end Json
end HeaderAudit

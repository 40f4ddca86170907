import HeaderAudit.Proofs.FileNames
import HeaderAudit.Run

/-!
# Forwarding — the names that are looked at and the names that owe a notice

Two tests read the ending of a file name.  `forwards` asks whether the name ends in one of the
dotted endings, and `CommentStyle.ofPath?` looks up what follows the last dot.  Both come down to
the same decomposition of the name into a stem, a dot and a word of the table; they differ only in
whether the stem may be empty.  `forwards_iff_ofPath?` says so for any path, and
`forwards_iff_styled_or_dotfile` for an argument, in terms of its characters.
-/

namespace HeaderAudit

/-! ## The last dot -/

namespace Segment

theorem cutLastDot?_eq_none {name : Segment} (h : dot ∉ name) : cutLastDot? name = none := by
  induction name with
  | nil => rfl
  | cons b name ih =>
      have hb : b ≠ dot := fun heq => h (by simp [heq])
      have hname : dot ∉ name := fun hmem => h (List.mem_cons_of_mem b hmem)
      simp [cutLastDot?, ih hname, hb]

theorem cutLastDot?_append (stem : Bytes) {ext : Bytes} (h : dot ∉ ext) :
    cutLastDot? (stem ++ dot :: ext) = some (stem, ext) := by
  induction stem with
  | nil => simp [cutLastDot?, cutLastDot?_eq_none h]
  | cons b stem ih => simp [cutLastDot?, ih]

theorem eq_append_of_cutLastDot? {name : Segment} {stem ext : Bytes}
    (h : cutLastDot? name = some (stem, ext)) : name = stem ++ dot :: ext := by
  induction name generalizing stem ext with
  | nil => cases h
  | cons b name ih =>
      -- The cut is in the rest if it has a dot; otherwise the first byte is the last dot.
      unfold cutLastDot? at h
      split at h
      · rename_i front back hcut
        have hname := ih hcut
        cases h
        simp [hname]
      · split at h
        · rename_i hdot
          cases h
          simp [hdot]
        · cases h

theorem extension?_append {stem ext : Bytes} (hstem : stem ≠ []) (hext : dot ∉ ext) :
    extension? (stem ++ dot :: ext) = some ext := by
  cases stem with
  | nil => exact absurd rfl hstem
  | cons b stem => simp only [extension?, cutLastDot?_append (b :: stem) hext]

theorem exists_of_extension?_eq_some {name : Segment} {ext : Bytes}
    (h : extension? name = some ext) : ∃ stem, stem ≠ [] ∧ name = stem ++ dot :: ext := by
  unfold extension? at h
  split at h
  · cases h
  · rename_i b stem _ hcut
    cases h
    exact ⟨b :: stem, by simp, eq_append_of_cutLastDot? hcut⟩
  · cases h

end Segment

/-! ## The table -/

namespace CommentStyle

theorem dot_not_mem_encode : ∀ entry ∈ extensions, Segment.dot ∉ Utf8.encode entry.1 := by
  decide

/-- No ending stands in the table twice. -/
theorem ofExtension?_encode :
    ∀ entry ∈ extensions, ofExtension? (Utf8.encode entry.1) = some entry.2 := by
  decide

theorem exists_of_ofExtension?_eq_some {ext : Bytes} {style : CommentStyle}
    (h : ofExtension? ext = some style) :
    ∃ word, (word, style) ∈ extensions ∧ Utf8.encode word = ext := by
  rcases Option.map_eq_some_iff.1 h with ⟨⟨word, _⟩, hfind, rfl⟩
  have hword := List.find?_some hfind
  exact ⟨word, List.mem_of_find?_eq_some hfind, by simpa using hword⟩

/-- A path has the style of a word of the table if its file name is a stem, a dot and the word. -/
theorem ofPath?_eq_some_iff {p : Path} {style : CommentStyle} :
    ofPath? p = some style ↔ ∃ stem word, stem ≠ [] ∧ (word, style) ∈ extensions ∧
      p.fileName? = some (stem ++ Segment.dot :: Utf8.encode word) := by
  constructor
  · intro h
    rcases Option.bind_eq_some_iff.1 h with ⟨ext, hext, hstyle⟩
    rcases Option.bind_eq_some_iff.1 hext with ⟨name, hname, hcut⟩
    rcases Segment.exists_of_extension?_eq_some hcut with ⟨stem, hstem, rfl⟩
    rcases exists_of_ofExtension?_eq_some hstyle with ⟨word, hword, rfl⟩
    exact ⟨stem, word, hstem, hword, hname⟩
  · rintro ⟨stem, word, hstem, hword, hname⟩
    have hext : p.extension? = some (Utf8.encode word) := by
      have hcut := Segment.extension?_append hstem (dot_not_mem_encode _ hword)
      simpa [Path.extension?, hname] using hcut
    have hstyle := ofExtension?_encode _ hword
    simpa [ofPath?, hext] using hstyle

end CommentStyle

/-! ## The two tests -/

open CommentStyle

theorem mem_forwardedStyles {everyStyle : Bool} {style : CommentStyle} :
    style ∈ forwardedStyles everyStyle ↔ everyStyle = true ∨ style = .slashes := by
  cases everyStyle <;> cases style <;> decide

theorem endsLike_iff {style : CommentStyle} {name : Segment} :
    endsLike style name ↔ ∃ stem word, (word, style) ∈ extensions ∧
      name = stem ++ Segment.dot :: Utf8.encode word := by
  have hending (word : String) : Utf8.encode ("." ++ word) = Segment.dot :: Utf8.encode word :=
    Utf8.encode_append "." word
  constructor
  · intro h
    rcases List.any_eq_true.1 h with ⟨ending, hmem, hsuffix⟩
    rcases List.mem_map.1 hmem with ⟨entry, hentry, rfl⟩
    rcases List.mem_filter.1 hentry with ⟨hword, hstyle⟩
    have hstyle : entry.2 = style := by simpa using hstyle
    rcases List.isSuffixOf_iff_suffix.1 hsuffix with ⟨stem, hname⟩
    refine ⟨stem, entry.1, hstyle ▸ hword, ?_⟩
    rw [← hname, hending]
  · rintro ⟨stem, word, hword, rfl⟩
    have hentry : (word, style) ∈ extensions.filter fun entry => entry.2 = style :=
      List.mem_filter.2 ⟨hword, by simp⟩
    apply List.any_eq_true.2
    refine ⟨"." ++ word, List.mem_map.2 ⟨_, hentry, rfl⟩, ?_⟩
    apply List.isSuffixOf_iff_suffix.2
    exact ⟨stem, by rw [hending]⟩

theorem forwards_iff {everyStyle : Bool} {p : Path} :
    forwards everyStyle p ↔ ∃ style ∈ forwardedStyles everyStyle, ∃ stem word,
      (word, style) ∈ extensions ∧
        p.fileName? = some (stem ++ Segment.dot :: Utf8.encode word) := by
  unfold forwards
  cases p.fileName? with
  | none => simp
  | some name => simp [endsLike_iff]

/-- What is forwarded owes a notice of a forwarded style, or is called like an ending alone. -/
theorem forwards_iff_ofPath? {everyStyle : Bool} {p : Path} :
    forwards everyStyle p ↔ ∃ style ∈ forwardedStyles everyStyle,
      ofPath? p = some style ∨ ∃ word, (word, style) ∈ extensions ∧
        p.fileName? = some (Segment.dot :: Utf8.encode word) := by
  constructor
  · intro h
    rcases forwards_iff.1 h with ⟨style, hstyle, stem, word, hword, hname⟩
    refine ⟨style, hstyle, ?_⟩
    -- Only the name whose stem is empty has no extension, and so no style.
    cases stem with
    | nil => exact Or.inr ⟨word, hword, hname⟩
    | cons b stem =>
        exact Or.inl (ofPath?_eq_some_iff.2 ⟨b :: stem, word, by simp, hword, hname⟩)
  · intro h
    apply forwards_iff.2
    rcases h with ⟨style, hstyle, howed | ⟨word, hword, hname⟩⟩
    · rcases ofPath?_eq_some_iff.1 howed with ⟨stem, word, _, hword, hname⟩
      exact ⟨style, hstyle, stem, word, hword, hname⟩
    · exact ⟨style, hstyle, [], word, hword, hname⟩

/-! ## Arguments -/

/-- A file name is cut at a dot in the same places as the text it comes from. -/
theorem fileName?_ofString_eq_some_iff {argument word : String} {stem : Bytes} :
    (Path.ofString argument).fileName? = some (stem ++ Segment.dot :: Utf8.encode word) ↔
      ∃ front, Utf8.encodeChars front = stem ∧
        Path.textName? argument = some (front ++ '.' :: word.toList) := by
  have htext := Path.fileName?_ofString argument
  constructor
  · intro h
    rcases Option.map_eq_some_iff.1 (htext.symm.trans h) with ⟨name, hname, hbytes⟩
    -- The dot is an ASCII character, so the bytes before and behind it are texts again.
    have hascii : ('.').toNat < 0x80 := by decide
    rcases Utf8.exists_of_encodeChars_eq hascii hbytes with ⟨front, back, rfl, hfront, hback⟩
    have hword : back = word.toList := (Utf8.encodeChars_inj _ _).1 hback
    subst hword
    exact ⟨front, hfront, hname⟩
  · intro h
    rcases h with ⟨front, rfl, hname⟩
    have hbytes := Utf8.encodeChars_append front ('.' :: word.toList)
    exact htext.trans (Option.map_eq_some_iff.2 ⟨_, hname, hbytes⟩)

theorem ofPath?_ofString_eq_some_iff {argument : String} {style : CommentStyle} :
    ofPath? (Path.ofString argument) = some style ↔
      ∃ stem word, stem ≠ [] ∧ (word, style) ∈ extensions ∧
        Path.textName? argument = some (stem ++ '.' :: word.toList) := by
  have hempty (front : List Char) : Utf8.encodeChars front = [] ↔ front = [] :=
    Utf8.encodeChars_inj front []
  constructor
  · intro h
    rcases ofPath?_eq_some_iff.1 h with ⟨stem, word, hstem, hword, hname⟩
    rcases fileName?_ofString_eq_some_iff.1 hname with ⟨front, rfl, htext⟩
    exact ⟨front, word, fun hnil => hstem ((hempty front).2 hnil), hword, htext⟩
  · intro h
    rcases h with ⟨front, word, hfront, hword, htext⟩
    have hname := fileName?_ofString_eq_some_iff.2 ⟨front, rfl, htext⟩
    apply ofPath?_eq_some_iff.2
    exact ⟨_, word, fun hnil => hfront ((hempty front).1 hnil), hword, hname⟩

theorem dotfile_ofString_iff {argument word : String} :
    (Path.ofString argument).fileName? = some (Segment.dot :: Utf8.encode word) ↔
      Path.textName? argument = some ('.' :: word.toList) := by
  constructor
  · intro h
    have hcut : (Path.ofString argument).fileName? =
        some ([] ++ Segment.dot :: Utf8.encode word) := h
    rcases fileName?_ofString_eq_some_iff.1 hcut with ⟨front, hfront, htext⟩
    have hempty : front = [] := (Utf8.encodeChars_inj front []).1 hfront
    simpa [hempty] using htext
  · intro htext
    exact fileName?_ofString_eq_some_iff.2 ⟨[], rfl, htext⟩

/-- An argument is forwarded exactly if its path owes a notice of a style that is looked at, or if
its name is an ending of the table with nothing before the dot.  It owes the notice of a style
exactly if its name is a stem, a dot and a word that the table gives that style. -/
theorem forwards_iff_styled_or_dotfile (argument : String) :
    (forwards true (Path.ofString argument) ↔ ∃ name, Path.textName? argument = some name ∧
      ((ofPath? (Path.ofString argument)).isSome ∨
        ∃ entry ∈ extensions, name = '.' :: entry.1.toList)) ∧
    (forwards false (Path.ofString argument) ↔
      ofPath? (Path.ofString argument) = some .slashes ∨
        ∃ word, (word, .slashes) ∈ extensions ∧
          Path.textName? argument = some ('.' :: word.toList)) ∧
    ∀ style, ofPath? (Path.ofString argument) = some style ↔
      ∃ stem word, stem ≠ [] ∧ (word, style) ∈ extensions ∧
        Path.textName? argument = some (stem ++ '.' :: word.toList) := by
  refine ⟨?_, ?_, fun style => ofPath?_ofString_eq_some_iff⟩
  -- Every style is looked at, so what remains of the style is that the table has it.
  · constructor
    · intro h
      rcases forwards_iff_ofPath?.1 h with ⟨style, _, howed | ⟨word, hword, hname⟩⟩
      · rcases ofPath?_ofString_eq_some_iff.1 howed with ⟨_, _, _, _, htext⟩
        exact ⟨_, htext, Or.inl (by simp [howed])⟩
      · exact ⟨_, dotfile_ofString_iff.1 hname, Or.inr ⟨_, hword, rfl⟩⟩
    · rintro ⟨name, htext, hsome | ⟨entry, hentry, rfl⟩⟩
      · rcases Option.isSome_iff_exists.1 hsome with ⟨style, howed⟩
        have hstyle : style ∈ forwardedStyles true := mem_forwardedStyles.2 (Or.inl rfl)
        exact forwards_iff_ofPath?.2 ⟨style, hstyle, Or.inl howed⟩
      · have hstyle : entry.2 ∈ forwardedStyles true := mem_forwardedStyles.2 (Or.inl rfl)
        have hname := dotfile_ofString_iff.2 htext
        exact forwards_iff_ofPath?.2 ⟨entry.2, hstyle, Or.inr ⟨entry.1, hentry, hname⟩⟩
  -- Here the one style that is looked at has a name.
  · have honly (style : CommentStyle) : style ∈ forwardedStyles false ↔ style = .slashes := by
      simp [mem_forwardedStyles]
    simp only [forwards_iff_ofPath?, honly, exists_eq_left, dotfile_ofString_iff]

end HeaderAudit

import HeaderAudit.Command.Program
import HeaderAudit.Proofs.AsciiBytes
import HeaderAudit.Proofs.OptionOrder

/-!
# CommandLines — writing a request down

An option can be written in several ways, and options stand in any order between, before and behind
the paths.  This file defines:

* `Reads` — words that are read as certain items, whatever words follow;
* `Spelling` — the ways to write options down, and `Group`, a path or options with their words;
* `separated` — the words from two dashes on;
* `Manner.words` and `Work.words` — a plain way to write a request down.

`Draft.exists_of_groups` says what the groups of a command line come to, in whatever order they
stand.  `Settings.parse_words` is about plain command lines, and `Settings.parse_groups` about all.
-/

namespace HeaderAudit

/-! ## Words as items -/

/-- Before any other words, the words are read as the items. -/
def Reads (words : List Bytes) (read : List Item) : Prop :=
  ∀ rest, items (words ++ rest) = read ++ items rest

namespace Reads

variable {words words' : List Bytes} {read read' : List Item}

theorem nil : Reads [] [] :=
  fun _ => rfl

theorem append (h : Reads words read) (h' : Reads words' read') :
    Reads (words ++ words') (read ++ read') := by
  intro rest
  rw [List.append_assoc, h, h', List.append_assoc]

end Reads

/-- Behind two dashes every word is a path. -/
theorem items_separator (words : List Bytes) :
    items (Utf8.encode "--" :: words) = words.map Item.path :=
  rfl

/-! ## Spellings -/

/-- A single dash, or a text that does not begin with a dash. -/
def IsOperand (text : String) : Prop :=
  text = "-" ∨ text.toList.head? ≠ some '-'

/-- The path can be the value of an option.  A value in a word of its own may not begin with a
dash. -/
def Path.IsValue (target : Path) (joined : Bool) : Prop :=
  target.bytes ≠ [] ∧ (joined = false → target.bytes.head? ≠ some Word.dash)

/-- Short options that say how loud to be, and that may share a word. -/
inductive Letter
  | quiet
  | verbose
deriving DecidableEq, Repr

namespace Letter

def flag : Letter → Flag
  | .quiet => .quiet
  | .verbose => .verbose

def byte : Letter → UInt8
  | .quiet => 0x71
  | .verbose => 0x76

end Letter

/-- The ways to write options down, a value either joined to its option or in the next word. -/
inductive Spelling
  | long (f : Flag)
  | short (first : Letter) (more : List Letter)
  | report (target : Path) (joined : Bool) (isValue : target.IsValue joined)
  | colours (choice : ColourChoice) (joined : Bool)

namespace Spelling

def longName : Flag → String
  | .allFamilies => "--all-families"
  | .keepGoing => "--keep-going"
  | .verbose => "--verbose"
  | .quiet => "--quiet"

def words : Spelling → List Bytes
  | .long f => [Utf8.encode (longName f)]
  | .short first more => [Word.dash :: (first :: more).map Letter.byte]
  | .report target true _ => [Utf8.encode "--report-json=" ++ target.bytes]
  | .report target false _ => [Utf8.encode "--report-json", target.bytes]
  | .colours choice true => [Utf8.encode ("--colors=" ++ choice.name)]
  | .colours choice false => [Utf8.encode "--colors", Utf8.encode choice.name]

def asks : Spelling → List Ask
  | .long f => [.flag f]
  | .short first more => (first :: more).map fun letter => .flag letter.flag
  | .report target _ _ => [.report target]
  | .colours choice _ => [.colours choice]

/-- The value stands in the same word as the option. -/
def joined : Spelling → Bool
  | .report _ joined _ => joined
  | .colours _ joined => joined
  | _ => false

theorem valued (s : Spelling) : ∀ a ∈ s.asks, a.Valued := by
  cases s with
  | long f => simp [asks, Ask.Valued]
  | short first more => simp [asks, Ask.Valued]
  | report target joined isValue => simpa [asks, Ask.Valued] using isValue.1
  | colours choice joined => simp [asks, Ask.Valued]

end Spelling

theorem Word.of_eq_plain {word : Bytes} (h : word.head? ≠ some dash) : Word.of word = .plain := by
  cases word with
  | nil => rfl
  | cons first rest =>
      have hfirst : first ≠ dash := fun heq => h (congrArg some heq)
      cases rest with
      | nil => rfl
      | cons second rest => simp [of, hfirst]

theorem IsOperand.of_eq_plain {text : String} (h : IsOperand text) :
    Word.of (Utf8.encode text) = .plain := by
  rcases h with rfl | hhead
  · rfl
  · apply Word.of_eq_plain
    intro hdash
    -- A dash in front of the bytes is a character, so the text begins with it too.
    rcases List.head?_eq_some_iff.1 hdash with ⟨bytes, hbytes⟩
    have hencoded : Utf8.encodeChars text.toList = [] ++ UInt8.ofNat '-'.toNat :: bytes := hbytes
    rcases Utf8.exists_of_encodeChars_eq (by decide) hencoded with ⟨front, rest, htext, hfront, _⟩
    have hnil : front = [] := (Utf8.encodeChars_inj front []).1 hfront
    rw [htext, hnil] at hhead
    exact hhead rfl

namespace Reads

theorem path {text : String} (h : IsOperand text) :
    Reads [Utf8.encode text] [.path (Utf8.encode text)] := by
  intro rest
  simp [items, h.of_eq_plain]

theorem long (f : Flag) : Reads [Utf8.encode (Spelling.longName f)] [.flag f] := by
  intro rest
  cases f <;> rfl

theorem ofLetters_scan (letters : List Letter) :
    Item.ofLetters (Utf8.scan none (letters.map Letter.byte)) =
      letters.map fun letter => .flag letter.flag := by
  induction letters with
  | nil => rfl
  | cons letter rest ih =>
      -- A letter is a single byte, so the bytes behind it are read as if it were not there.
      rw [List.map_cons, List.map_cons, ← ih]
      cases letter <;> rfl

theorem short (first : Letter) (more : List Letter) :
    Reads [Word.dash :: (first :: more).map Letter.byte]
      ((first :: more).map fun letter => .flag letter.flag) := by
  intro rest
  have hword : Word.of (Word.dash :: (first :: more).map Letter.byte) =
      .cluster ((first :: more).map Letter.byte) := by
    cases first <;> rfl
  simp only [List.cons_append, List.nil_append, items, hword, Item.ofCluster, ofLetters_scan]

theorem report {target : Path} {joined : Bool} (h : target.IsValue joined) :
    Reads (Spelling.report target joined h).words
      [.option .reportJson joined (some target.bytes)] := by
  intro rest
  cases joined with
  | true => rfl
  | false =>
      -- A word of its own is looked at once more before it is taken for the value.
      have hplain : Word.of target.bytes = .plain := Word.of_eq_plain (h.2 rfl)
      have hitems : items ([Utf8.encode "--report-json", target.bytes] ++ rest) =
          if Word.of target.bytes = .plain then
            .option .reportJson false (some target.bytes) :: items rest
          else .option .reportJson false none :: items (target.bytes :: rest) := rfl
      exact hitems.trans (if_pos hplain)

theorem colours (choice : ColourChoice) (joined : Bool) :
    Reads (Spelling.colours choice joined).words
      [.option .colours joined (some (Utf8.encode choice.name))] := by
  intro rest
  cases joined <;> cases choice <;> rfl

theorem spelling (s : Spelling) : Reads s.words (s.asks.map (Ask.item s.joined)) := by
  cases s with
  | long f => exact long f
  | short first more =>
      have hitems : (Spelling.short first more).asks.map (Ask.item false) =
          (first :: more).map fun letter => .flag letter.flag := List.map_map
      have hjoined : (Spelling.short first more).joined = false := rfl
      rw [hjoined, hitems]
      exact short first more
  | report target joined isValue => exact report isValue
  | colours choice joined => exact colours choice joined

end Reads

/-! ## Groups -/

/-- A path, or options. -/
inductive Group
  | path (text : String) (plain : IsOperand text)
  | options (s : Spelling)

namespace Group

def words : Group → List Bytes
  | .path text _ => [Utf8.encode text]
  | .options s => s.words

def path? : Group → Option String
  | .path text _ => some text
  | .options _ => none

def asks : Group → List Ask
  | .path _ _ => []
  | .options s => s.asks

def items : Group → List Item
  | .path text _ => [.path (Utf8.encode text)]
  | .options s => s.asks.map (Ask.item s.joined)

end Group

theorem Reads.groups (groups : List Group) :
    Reads (groups.flatMap Group.words) (groups.flatMap Group.items) := by
  induction groups with
  | nil => exact nil
  | cons group rest ih =>
      cases group with
      | path text plain => exact append (path plain) ih
      | options s => exact append (spelling s) ih

/-- Two dashes and the words behind them, where there are two dashes. -/
def separated : Option (List String) → List Bytes
  | none => []
  | some texts => Utf8.encode "--" :: texts.map Utf8.encode

theorem items_separated (behind : Option (List String)) :
    items (separated behind) = (behind.getD []).map fun text => .path (Utf8.encode text) := by
  cases behind with
  | none => rfl
  | some texts =>
      rw [separated, items_separator, List.map_map]
      rfl

/-! ## Groups taken one after another -/

namespace Draft

variable {d : Draft} {groups : List Group} {options : RunOptions} {report : Option Path}
  {m : Manner}

theorem take_path (path : String) (hd : d.waiting = none) :
    d.take (.path (Utf8.encode path)) = .ok { d with paths := d.paths ++ [path] } := by
  simp [take, addPath, hd, Utf8.decode?_encode]

theorem foldlM_paths (paths : List String) (hd : d.waiting = none) :
    (paths.map fun path => Item.path (Utf8.encode path)).foldlM take d =
      .ok { d with paths := d.paths ++ paths } := by
  induction paths generalizing d with
  | nil => simp [pure, Except.pure]
  | cons path rest ih =>
      have hrest := ih (d := { d with paths := d.paths ++ [path] }) hd
      refine foldlM_cons_eq_ok_iff.2 ⟨_, take_path path hd, hrest.trans ?_⟩
      simp

/-- Paths and options pass each other without a trace, so the paths can be thought to come first. -/
theorem foldlM_groups (h : d.Awaits (groups.flatMap Group.asks)) :
    ∃ d', (groups.flatMap Group.items).foldlM take d = .ok d' ∧ d'.waiting = none ∧
      d'.settings = (groups.flatMap Group.asks).foldl Settings.heed
        (d.settings.addPaths (groups.filterMap Group.path?)) := by
  induction groups generalizing d with
  | nil => exact ⟨d, rfl, h.waiting, by simp [Settings.addPaths]⟩
  | cons group rest ih =>
      cases group with
      | path text plain =>
          -- A path changes nothing of what is checked about options.
          have hnext : { d with paths := d.paths ++ [text] }.Awaits (rest.flatMap Group.asks) :=
            ⟨h.waiting, h.unseen, h.apart, h.valued⟩
          rcases ih hnext with ⟨d', hfold, hwaiting, hsettings⟩
          refine ⟨d', foldlM_cons_eq_ok_iff.2 ⟨_, take_path text h.waiting, hfold⟩, hwaiting, ?_⟩
          rw [hsettings]
          simp [Group.path?, Group.asks, Settings.addPaths, settings]
      | options s =>
          -- The first options are taken, and the draft goes on awaiting those of the other groups.
          rcases foldlM_asks s.joined h with ⟨next, hasks, hnext, hhere⟩
          rcases ih hnext with ⟨d', hfold, hwaiting, hsettings⟩
          refine ⟨d', foldlM_append_of_eq_ok hasks hfold, hwaiting, ?_⟩
          rw [hsettings, hhere, Settings.addPaths_foldl_heed, ← List.foldl_append]
          rfl

/-- The draft of a command line holds what its groups ask for, and the paths in their order. -/
theorem exists_of_groups (behind : Option (List String))
    (hasked : (groups.flatMap Group.asks).Perm (asked options report m)) :
    ∃ d, (items (groups.flatMap Group.words ++ separated behind)).foldlM take empty = .ok d ∧
      d.waiting = none ∧
      d.settings = ⟨groups.filterMap Group.path? ++ behind.getD [], options, report,
        min m.verbosity verbosityLimit, m.quiet, m.colours.getD .auto⟩ := by
  have hvalued : ∀ a ∈ groups.flatMap Group.asks, a.Valued := by
    intro a ha
    rcases List.mem_flatMap.1 ha with ⟨group, _, hgroup⟩
    cases group with
    | path text plain => cases hgroup
    | options s => exact s.valued a hgroup
  have hawaits := awaits_empty hasked hvalued
  rcases foldlM_groups hawaits with ⟨d, hfold, hwaiting, hsettings⟩
  -- The paths behind the two dashes are taken last, when no more options can come.
  refine ⟨{ d with paths := d.paths ++ behind.getD [] }, ?_, hwaiting, ?_⟩
  · rw [Reads.groups, items_separated]
    exact foldlM_append_of_eq_ok hfold (foldlM_paths (behind.getD []) hwaiting)
  · have hfront : d.settings = ⟨groups.filterMap Group.path?, options, report,
        min m.verbosity verbosityLimit, m.quiet, m.colours.getD .auto⟩ := by
      rw [hsettings, ← Settings.foldl_heed_asked]
      exact Settings.foldl_heed_of_perm hasked hawaits.apart _
    exact congrArg (Settings.addPaths · (behind.getD [])) hfront

theorem finish_eq_conflict (hwaiting : d.waiting = none) (hquiet : d.quiet)
    (hverbose : 0 < d.verbosity) : d.finish = .error (.usage d.conflict) := by
  simp [finish, hwaiting, hquiet, hverbose]

end Draft

namespace Settings

variable {groups : List Group} {options : RunOptions} {report : Option Path} {m : Manner}
  {behind : Option (List String)}

theorem parse_of_groups_consistent (hm : m.Consistent)
    (hasked : (groups.flatMap Group.asks).Perm (asked options report m)) :
    parse (groups.flatMap Group.words ++ separated behind) =
      .ok ⟨groups.filterMap Group.path? ++ behind.getD [], options, report,
        min m.verbosity Draft.verbosityLimit, m.quiet, m.colours.getD .auto⟩ := by
  rcases Draft.exists_of_groups behind hasked with ⟨d, hfold, hwaiting, hsettings⟩
  have hquiet : d.quiet = m.quiet := congrArg Settings.quiet hsettings
  have hverbosity : d.verbosity = min m.verbosity Draft.verbosityLimit :=
    congrArg Settings.verbosity hsettings
  refine parse_eq_ok_iff.2 ⟨d, hfold, Draft.finish_eq_ok_iff.2 ⟨hwaiting, ?_, hsettings.symm⟩⟩
  rw [hquiet, hverbosity]
  rintro ⟨hq, hv⟩
  exact hm ⟨hq, (Nat.lt_min.1 hv).1⟩

theorem parse_of_groups_inconsistent (hm : ¬ m.Consistent)
    (hasked : (groups.flatMap Group.asks).Perm (asked options report m)) :
    ∃ d : Draft, parse (groups.flatMap Group.words ++ separated behind) =
      .error (.usage d.conflict) := by
  rcases Draft.exists_of_groups behind hasked with ⟨d, hfold, hwaiting, hsettings⟩
  rcases Decidable.not_not.1 hm with ⟨hq, hv⟩
  have hquiet : d.quiet = true := (congrArg Settings.quiet hsettings).trans hq
  have hverbosity : d.verbosity = min m.verbosity Draft.verbosityLimit :=
    congrArg Settings.verbosity hsettings
  -- Requests to be verbose are still known where they are no longer counted.
  have hverbose : 0 < d.verbosity := by
    rw [hverbosity]
    exact Nat.lt_min.2 ⟨hv, by decide⟩
  refine ⟨d, ?_⟩
  rw [parse, hfold]
  exact Draft.finish_eq_conflict hwaiting hquiet hverbose

end Settings

/-! ## Plain command lines -/

def Manner.words (m : Manner) : List Bytes :=
  (if m.quiet then [Utf8.encode "--quiet"] else []) ++
    List.replicate m.verbosity (Utf8.encode "-v") ++
    (m.colours.map fun choice => Utf8.encode ("--colors=" ++ choice.name)).toList

namespace Work

/-- The options, in a fixed order. -/
def optionWords (w : Work) : List Bytes :=
  (if w.options.everyStyle then [Utf8.encode "--all-families"] else []) ++
    (if w.options.keepGoing then [Utf8.encode "--keep-going"] else []) ++
    (w.report.map fun target => Utf8.encode "--report-json=" ++ target.bytes).toList

/-- The options, and behind two dashes the paths, whatever they look like. -/
def words (w : Work) : List Bytes :=
  w.optionWords ++ Utf8.encode "--" :: w.paths.map Utf8.encode

end Work

/-- The words are one way to ask for the options, without any path. -/
def Spelled (words : List Bytes) (asks : List Ask) : Prop :=
  ∃ spellings : List Spelling,
    spellings.flatMap Spelling.words = words ∧ spellings.flatMap Spelling.asks = asks

namespace Spelled

variable {words words' : List Bytes} {as as' : List Ask} {word : Bytes} {a : Ask}

theorem nil : Spelled [] [] :=
  ⟨[], rfl, rfl⟩

theorem single (s : Spelling) : Spelled s.words s.asks :=
  ⟨[s], List.append_nil _, List.append_nil _⟩

theorem append (h : Spelled words as) (h' : Spelled words' as') :
    Spelled (words ++ words') (as ++ as') := by
  rcases h with ⟨front, rfl, rfl⟩
  rcases h' with ⟨back, rfl, rfl⟩
  exact ⟨front ++ back, List.flatMap_append, List.flatMap_append⟩

theorem ite (given : Bool) (h : Spelled words as) :
    Spelled (if given then words else []) (if given then as else []) := by
  cases given with
  | true => exact h
  | false => exact nil

theorem replicate (n : Nat) (h : Spelled [word] [a]) :
    Spelled (List.replicate n word) (List.replicate n a) := by
  induction n with
  | zero => exact nil
  | succ n ih => exact append h ih

theorem optional {α : Type} {f : α → Bytes} {g : α → Ask} (value : Option α)
    (h : ∀ x, value = some x → Spelled [f x] [g x]) :
    Spelled (value.map f).toList (value.map g).toList := by
  cases value with
  | none => exact nil
  | some x => exact h x rfl

end Spelled

theorem spelled_words (m : Manner) {w : Work} (hw : w.report ≠ some ⟨[]⟩) :
    Spelled (m.words ++ w.optionWords) (asked w.options w.report m) := by
  have hmanner : Spelled m.words
      ((if m.quiet then [.flag .quiet] else []) ++ List.replicate m.verbosity (.flag .verbose) ++
        (m.colours.map .colours).toList) :=
    .append (.append (.ite m.quiet (.single (.long .quiet)))
      (.replicate m.verbosity (.single (.short .verbose []))))
      (.optional m.colours fun choice _ => .single (.colours choice true))
  have hwork : Spelled w.optionWords
      ((if w.options.everyStyle then [.flag .allFamilies] else []) ++
        (if w.options.keepGoing then [.flag .keepGoing] else []) ++
        (w.report.map .report).toList) := by
    refine .append (.append (.ite w.options.everyStyle (.single (.long .allFamilies)))
      (.ite w.options.keepGoing (.single (.long .keepGoing)))) (.optional w.report ?_)
    intro target htarget
    have hne : target.bytes ≠ [] := fun heq => hw (htarget.trans (congrArg (some ∘ Path.mk) heq))
    exact .single (.report target true ⟨hne, fun hfalse => Bool.noConfusion hfalse⟩)
  -- Both halves are already in the order of `asked`.
  have hboth := hmanner.append hwork
  rwa [← List.append_assoc, ← List.append_assoc] at hboth

/-- Any work can be asked for in any manner in which an invocation can speak. -/
theorem Settings.parse_words {m : Manner} {w : Work} (hm : m.Consistent)
    (hw : w.report ≠ some ⟨[]⟩) :
    parse (m.words ++ w.words) =
      .ok ⟨w.paths, w.options, w.report, min m.verbosity Draft.verbosityLimit, m.quiet,
        m.colours.getD .auto⟩ := by
  rcases spelled_words m hw with ⟨spellings, hwords, hasks⟩
  -- All options stand in front of the two dashes, and all paths behind them.
  have hgroups : (spellings.map .options).flatMap Group.words = m.words ++ w.optionWords := by
    rw [List.flatMap_map, ← hwords]
    rfl
  have hasked : ((spellings.map .options).flatMap Group.asks).Perm
      (asked w.options w.report m) := by
    rw [List.flatMap_map, ← hasks]
    exact .refl _
  have hpaths : (spellings.map .options).filterMap Group.path? = [] := by
    simp [Group.path?]
  have hwhole : m.words ++ w.words =
      (spellings.map .options).flatMap Group.words ++ separated (some w.paths) := by
    rw [hgroups, Work.words, ← List.append_assoc]
    rfl
  rw [hwhole, parse_of_groups_consistent hm hasked, hpaths]
  rfl

/-! ## Refused command lines -/

/-- A refused invocation says why, and does nothing else. -/
theorem execute_of_usage {words : List Bytes} {e : UsageError} {disk : Disk}
    {directory : Location} {streams : Streams} {log : Option Bytes}
    (h : Settings.parse words = .error (.usage e)) :
    execute disk directory streams log words = (⟨abortedCode, "", [.line e.message]⟩, disk) := by
  simp [execute, Program.start, h, Program.carry, Program.ofStop]

/-! ## All command lines -/

/-- Options stand in any order among the paths in front of two dashes, each of them once and in any
spelling, and `-v` any number of times, alone or with other letters in one word.  If quiet and
verbose are not both asked for, the command line is accepted, with all paths in their order, those
behind the two dashes last, with the options and values that were asked for, and with the verbosity
up to its limit.  Otherwise it is refused because of these two, and nothing is read or written. -/
theorem Settings.parse_groups (paths : List String) (behind : Option (List String))
    (options : RunOptions) (report : Option Path) (m : Manner) (groups : List Group)
    (hpaths : groups.filterMap Group.path? = paths)
    (hasked : (groups.flatMap Group.asks).Perm (asked options report m)) :
    let words := groups.flatMap Group.words ++ separated behind
    (m.Consistent →
      parse words = .ok
        { paths := paths ++ behind.getD []
          options := options
          report := report
          verbosity := min m.verbosity 255
          quiet := m.quiet
          colours := m.colours.getD .auto }) ∧
    (¬ m.Consistent → ∃ e : UsageError,
      (e = .conflict "--quiet" "--verbose..." ∨ e = .conflict "--verbose..." "--quiet") ∧
      parse words = .error (.usage e) ∧ Program.wanted words = [] ∧
      ∀ (disk : Disk) (directory : Location) (streams : Streams) (log : Option Bytes),
        execute disk directory streams log words = (⟨2, "", [.line e.message]⟩, disk)) := by
  intro words
  refine ⟨?_, ?_⟩
  · intro hconsistent
    rw [← hpaths]
    exact parse_of_groups_consistent hconsistent hasked
  · intro hconflict
    obtain ⟨d, hparse⟩ : ∃ d : Draft, parse words = .error (.usage d.conflict) :=
      parse_of_groups_inconsistent hconflict hasked
    -- The draft decides which of the two options is named first.
    refine ⟨d.conflict, ?_, hparse, ?_, ?_⟩
    · unfold Draft.conflict
      cases d.quietFirst
      · exact Or.inr rfl
      · exact Or.inl rfl
    · simp [Program.wanted, hparse]
    · intro disk directory streams log
      exact execute_of_usage hparse

/-- Paths that look like options, a value in a word of its own, and `-v` in three places; and the
same with a request to be quiet in between. -/
theorem Settings.parse_groups_mixed :
    let target : Path := Path.ofString "r.json"
    let front : List Group := [.path "-" (Or.inl rfl),
      .options (.report target false ⟨by decide, fun _ => by decide⟩),
      .options (.short .verbose [.verbose]), .path "" (Or.inr (by decide))]
    let back : List Group := [.options (.colours .never true), .options (.long .keepGoing),
      .path "a.ts" (Or.inr (by decide)), .options (.long .verbose)]
    parse (["-", "--report-json", "r.json", "-vv", "", "--colors=never", "--keep-going", "a.ts",
        "--verbose", "--", "--keep-going", "-q"].map Utf8.encode) =
      .ok ⟨["-", "", "a.ts", "--keep-going", "-q"], ⟨false, true⟩, some target, 3, false, .never⟩ ∧
    (front ++ back).filterMap Group.path? = ["-", "", "a.ts"] ∧
    ((front ++ back).flatMap Group.asks).Perm
      (asked ⟨false, true⟩ (some target) ⟨false, 3, some .never⟩) ∧
    Program.wanted ((front ++ .options (.long .quiet) :: back).flatMap Group.words) = [] := by
  intro target front back
  have hpaths : (front ++ back).filterMap Group.path? = ["-", "", "a.ts"] := rfl
  have hasked : ((front ++ back).flatMap Group.asks).Perm
      (asked ⟨false, true⟩ (some target) ⟨false, 3, some .never⟩) := List.isPerm_iff.1 rfl
  have hquiet : ((front ++ .options (.long .quiet) :: back).flatMap Group.asks).Perm
      (asked ⟨false, true⟩ (some target) ⟨true, 3, some .never⟩) := List.isPerm_iff.1 rfl
  refine ⟨?_, hpaths, hasked, ?_⟩
  · exact (parse_groups _ (some ["--keep-going", "-q"]) _ _ _ _ hpaths hasked).1
      fun hboth => Bool.noConfusion hboth.1
  · rcases (parse_groups _ none _ _ _ _ rfl hquiet).2 fun hnot => hnot ⟨rfl, by decide⟩ with
      ⟨_, _, _, hwanted, _⟩
    simpa [separated] using hwanted

end HeaderAudit

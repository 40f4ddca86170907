import HeaderAudit.Proofs.Requests

/-!
# OptionOrder — options in any order

Each option may be given once, and to be verbose may be asked for any number of times; apart from
that it does not matter in which order options are given.  This file defines:

* `Manner` and `Settings.manner` — how loud and in which colours an invocation speaks;
* `Ask` — an option and its value, whatever way it is written in;
* `asked` — all options of a request, in one fixed order;
* `Settings.heed` and `Draft.heed` — what one option changes;
* `Draft.Awaits` — options that a draft can take, all of them.

`Settings.foldl_heed_of_perm` says that the order does not count, `Settings.foldl_heed_asked` what
the options of a request come to, and `Draft.foldlM_asks` that a draft takes what it awaits.
-/

namespace HeaderAudit

/-- How an invocation speaks: how loud, and in which colours. -/
structure Manner where
  quiet : Bool
  verbosity : Nat
  colours : Option ColourChoice
deriving DecidableEq, Repr

def Settings.manner (s : Settings) : Manner :=
  ⟨s.quiet, s.verbosity, some s.colours⟩

/-- Quiet and verbose exclude each other. -/
def Manner.Consistent (m : Manner) : Prop :=
  ¬ (m.quiet ∧ 0 < m.verbosity)

/-! ## Options -/

inductive Ask
  | flag (f : Flag)
  | report (target : Path)
  | colours (choice : ColourChoice)
deriving DecidableEq, Repr

namespace Ask

def name : Ask → OptionName
  | .flag f => .flag f
  | .report _ => .valued .reportJson
  | .colours _ => .valued .colours

/-- The two may both be given: they are different options, or both ask to be verbose. -/
def Apart (a b : Ask) : Prop :=
  a.name = b.name → a.name = .flag .verbose

theorem Apart.symm {a b : Ask} (h : a.Apart b) : b.Apart a :=
  fun hname => hname.trans (h hname.symm)

/-- How the option arrives, its value joined to it or in a word of its own. -/
def item (joined : Bool) : Ask → Item
  | .flag f => .flag f
  | .report target => .option .reportJson joined (some target.bytes)
  | .colours choice => .option .colours joined (some (Utf8.encode choice.name))

/-- An empty report path is refused. -/
def Valued : Ask → Prop
  | .report target => target.bytes ≠ []
  | _ => True

end Ask

/-- The options that make up a request, each once, and to be verbose as often as is wanted. -/
def asked (options : RunOptions) (report : Option Path) (m : Manner) : List Ask :=
  (if m.quiet then [.flag .quiet] else []) ++ List.replicate m.verbosity (.flag .verbose) ++
    (m.colours.map .colours).toList ++
    (if options.everyStyle then [.flag .allFamilies] else []) ++
    (if options.keepGoing then [.flag .keepGoing] else []) ++ (report.map .report).toList

theorem pairwise_asked (options : RunOptions) (report : Option Path) (m : Manner) :
    (asked options report m).Pairwise Ask.Apart := by
  have honce (given : Bool) (a : Ask) : (if given then [a] else []).Pairwise Ask.Apart := by
    cases given <;> simp
  -- Each part is apart in itself, and no two parts share the name of an option.
  cases report <;> cases m.colours <;>
    simp [asked, List.pairwise_append, honce, List.pairwise_replicate, Ask.Apart, Ask.name,
      or_imp, forall_and]

/-! ## What options change -/

namespace Settings

/-- What one option changes. -/
def heed (s : Settings) : Ask → Settings
  | .flag .allFamilies => { s with options := { s.options with everyStyle := true } }
  | .flag .keepGoing => { s with options := { s.options with keepGoing := true } }
  | .flag .quiet => { s with quiet := true }
  | .flag .verbose => { s with verbosity := min (s.verbosity + 1) Draft.verbosityLimit }
  | .report target => { s with report := some target }
  | .colours choice => { s with colours := choice }

variable {s : Settings} {a b : Ask} {as bs : List Ask}

theorem heed_comm (s : Settings) (h : a.Apart b) :
    (s.heed a).heed b = (s.heed b).heed a := by
  -- Different options change different parts of the settings; two values of one are not apart.
  cases a with
  | flag f =>
      cases b with
      | flag g => cases f <;> cases g <;> rfl
      | report target => cases f <;> rfl
      | colours choice => cases f <;> rfl
  | report target =>
      cases b with
      | flag g => cases g <;> rfl
      | report target => cases h rfl
      | colours choice => rfl
  | colours choice =>
      cases b with
      | flag g => cases g <;> rfl
      | report target => rfl
      | colours choice => cases h rfl

/-- Options that may all be given can be given in any order. -/
theorem foldl_heed_of_perm (h : as.Perm bs) (hapart : as.Pairwise Ask.Apart) (s : Settings) :
    as.foldl heed s = bs.foldl heed s := by
  -- A permutation is made of changes between neighbours, and the options stay apart under it.
  induction h generalizing s with
  | nil => rfl
  | cons a _ ih => exact ih (List.pairwise_cons.1 hapart).2 (s.heed a)
  | swap a b rest =>
      have hab : b.Apart a := (List.pairwise_cons.1 hapart).1 a (by simp)
      exact congrArg (rest.foldl heed) (heed_comm s hab)
  | trans hfirst _ ihfirst ihsecond =>
      have hapart' := hfirst.pairwise hapart Ask.Apart.symm
      exact (ihfirst hapart s).trans (ihsecond hapart' s)

/-- Verbosity rises by one each time until it cannot rise. -/
theorem foldl_heed_verbose (n : Nat) (hle : s.verbosity ≤ Draft.verbosityLimit) :
    (List.replicate n (.flag .verbose)).foldl heed s =
      { s with verbosity := min (s.verbosity + n) Draft.verbosityLimit } := by
  induction n generalizing s with
  | zero => simp [Nat.min_eq_left hle]
  | succ n ih =>
      rw [List.replicate_succ, List.foldl_cons, ih (Nat.min_le_right _ _)]
      have hmin : min (min (s.verbosity + 1) Draft.verbosityLimit + n) Draft.verbosityLimit =
          min (s.verbosity + (n + 1)) Draft.verbosityLimit := by omega
      simp [heed, hmin]

/-- Settings without any option. -/
def plain (paths : List String) : Settings :=
  ⟨paths, ⟨false, false⟩, none, 0, false, .auto⟩

theorem foldl_heed_asked (paths : List String) (options : RunOptions) (report : Option Path)
    (m : Manner) :
    (asked options report m).foldl heed (plain paths) =
      ⟨paths, options, report, min m.verbosity Draft.verbosityLimit, m.quiet,
        m.colours.getD .auto⟩ := by
  rcases options with ⟨everyStyle, keepGoing⟩
  -- From the front, each part of the options settles one part of the settings.
  have hquiet : (if m.quiet then [.flag .quiet] else []).foldl heed (plain paths) =
      ⟨paths, ⟨false, false⟩, none, 0, m.quiet, .auto⟩ := by
    cases m.quiet <;> rfl
  have hverbose : (List.replicate m.verbosity (.flag .verbose)).foldl heed
      ⟨paths, ⟨false, false⟩, none, 0, m.quiet, .auto⟩ =
        ⟨paths, ⟨false, false⟩, none, min m.verbosity Draft.verbosityLimit, m.quiet, .auto⟩ := by
    rw [foldl_heed_verbose m.verbosity (Nat.zero_le _), Nat.zero_add]
  have hcolours (n : Nat) : (m.colours.map .colours).toList.foldl heed
      ⟨paths, ⟨false, false⟩, none, n, m.quiet, .auto⟩ =
        ⟨paths, ⟨false, false⟩, none, n, m.quiet, m.colours.getD .auto⟩ := by
    cases m.colours <;> rfl
  have hstyles (n : Nat) (c : ColourChoice) :
      (if everyStyle then [.flag .allFamilies] else []).foldl heed
        ⟨paths, ⟨false, false⟩, none, n, m.quiet, c⟩ =
          ⟨paths, ⟨everyStyle, false⟩, none, n, m.quiet, c⟩ := by
    cases everyStyle <;> rfl
  have hgoing (n : Nat) (c : ColourChoice) :
      (if keepGoing then [.flag .keepGoing] else []).foldl heed
        ⟨paths, ⟨everyStyle, false⟩, none, n, m.quiet, c⟩ =
          ⟨paths, ⟨everyStyle, keepGoing⟩, none, n, m.quiet, c⟩ := by
    cases keepGoing <;> rfl
  simp only [asked, List.foldl_append]
  rw [hquiet, hverbose, hcolours, hstyles, hgoing]
  cases report <;> rfl

/-- The same settings with more paths behind the others. -/
def addPaths (s : Settings) (paths : List String) : Settings :=
  { s with paths := s.paths ++ paths }

theorem addPaths_foldl_heed (as : List Ask) (paths : List String) :
    (as.foldl heed s).addPaths paths = as.foldl heed (s.addPaths paths) := by
  refine (List.foldl_hom (fun s : Settings => s.addPaths paths) ?_).symm
  intro s a
  cases a with
  | flag f => cases f <;> rfl
  | report target => rfl
  | colours choice => rfl

end Settings

/-! ## Options taken one after another -/

namespace Draft

/-- The settings that a draft holds so far. -/
def settings (d : Draft) : Settings :=
  ⟨d.paths, ⟨d.allFamilies, d.keepGoing⟩, d.report, d.verbosity, d.quiet, d.colours.getD .auto⟩

/-- The option was given before and may not be given again. -/
def has (d : Draft) : Ask → Bool
  | .flag f => d.hasFlag f
  | .report _ => d.report.isSome
  | .colours _ => d.colours.isSome

def heed (d : Draft) : Ask → Draft
  | .flag f => d.withFlag f
  | .report target => { d with report := some target }
  | .colours choice => { d with colours := some choice }

/-- The options may be given, all of them and each where it stands. -/
structure Awaits (d : Draft) (as : List Ask) : Prop where
  waiting : d.waiting = none
  unseen : ∀ a ∈ as, d.has a = false
  apart : as.Pairwise Ask.Apart
  valued : ∀ a ∈ as, a.Valued

variable {d d' d'' : Draft} {items items' : List Item} {a b : Ask} {as : List Ask}

theorem settings_heed (d : Draft) (a : Ask) : (d.heed a).settings = d.settings.heed a := by
  cases a with
  | flag f => cases f <;> rfl
  | report target => rfl
  | colours choice => rfl

theorem has_heed (h : a.Apart b) : (d.heed a).has b = d.has b := by
  cases a with
  | flag f =>
      cases b with
      | flag g =>
          -- To be verbose is never seen before, so a flag only ever hides another of its kind.
          have hfg : f = g → f = .verbose := fun heq =>
            OptionName.flag.inj (h (congrArg OptionName.flag heq))
          cases f <;> cases g <;> simp [Draft.heed, has, withFlag, hasFlag] at hfg ⊢
      | report target => cases f <;> rfl
      | colours choice => cases f <;> rfl
  | report target =>
      cases b with
      | flag g => cases g <;> rfl
      | report target => cases h rfl
      | colours choice => rfl
  | colours choice =>
      cases b with
      | flag g => cases g <;> rfl
      | report target => rfl
      | colours choice => cases h rfl

theorem Awaits.heed (h : d.Awaits (a :: as)) : (d.heed a).Awaits as where
  waiting := by
    have hwaiting := h.waiting
    cases a with
    | flag f => cases f <;> exact hwaiting
    | report target => exact hwaiting
    | colours choice => exact hwaiting
  unseen := by
    intro b hb
    rw [has_heed ((List.pairwise_cons.1 h.apart).1 b hb)]
    exact h.unseen b (List.mem_cons_of_mem a hb)
  apart := (List.pairwise_cons.1 h.apart).2
  valued := fun b hb => h.valued b (List.mem_cons_of_mem a hb)

theorem awaits_empty {options : RunOptions} {report : Option Path} {m : Manner}
    (hasked : as.Perm (asked options report m)) (hvalued : ∀ a ∈ as, a.Valued) :
    empty.Awaits as where
  waiting := rfl
  unseen := by
    intro a _
    cases a with
    | flag f => cases f <;> rfl
    | report target => rfl
    | colours choice => rfl
  apart := hasked.symm.pairwise (pairwise_asked options report m) Ask.Apart.symm
  valued := hvalued

theorem take_item (joined : Bool) (h : d.Awaits (a :: as)) :
    d.take (a.item joined) = .ok (d.heed a) := by
  have hwaiting : d.waiting = none := h.waiting
  -- An option that is seen first and has its value passes every check.
  have hunseen : d.has a = false := h.unseen a (by simp)
  have hvalued : a.Valued := h.valued a (by simp)
  cases a with
  | flag f =>
      have hflag : d.hasFlag f = false := hunseen
      simp [Ask.item, take, settle, hwaiting, Except.bind, setFlag_eq, hflag, heed]
  | report target =>
      have hreport : d.report = none := by simpa [has] using hunseen
      have hset : d.setReport (some target.bytes) = .ok { d with report := some target } :=
        setReport_eq_ok_iff.2 ⟨target.bytes, rfl, hreport, hvalued, rfl⟩
      simp [Ask.item, take, addOption, settle, hwaiting, setOption, hset, heed]
  | colours choice =>
      have hcolours : d.colours = none := by simpa [has] using hunseen
      have hchoice : colourChoice? (Utf8.encode choice.name) = some choice := by
        cases choice <;> rfl
      have hne : Utf8.encode choice.name ≠ [] := by
        cases choice <;> decide
      simp [Ask.item, take, addOption, settle, hwaiting, setOption, setColours, hcolours, hchoice,
        hne, heed]

/-- What a draft awaits it takes, and goes on awaiting what stands behind. -/
theorem foldlM_asks (joined : Bool) {rest : List Ask} (h : d.Awaits (as ++ rest)) :
    ∃ d', (as.map (Ask.item joined)).foldlM take d = .ok d' ∧ d'.Awaits rest ∧
      d'.settings = as.foldl Settings.heed d.settings := by
  induction as generalizing d with
  | nil => exact ⟨d, rfl, h, rfl⟩
  | cons a as ih =>
      rcases ih (Awaits.heed h) with ⟨d', hfold, hrest, hsettings⟩
      refine ⟨d', foldlM_cons_eq_ok_iff.2 ⟨_, take_item joined h, hfold⟩, hrest, ?_⟩
      rw [hsettings, settings_heed]
      rfl

theorem foldlM_append_of_eq_ok (h : items.foldlM take d = .ok d')
    (h' : items'.foldlM take d' = .ok d'') : (items ++ items').foldlM take d = .ok d'' := by
  rw [List.foldlM_append, h]
  exact h'

end Draft
end HeaderAudit

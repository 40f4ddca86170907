import HeaderAudit.Command.Settings

/-!
# Requests — what a command line asks to be done

Some options say what is to be done, and the others only how an invocation speaks while it does it.
This file defines:

* `Work` — the part of the settings that says what to do;
* `Item.isManner` and `requests` — the options about speaking, and what is left without them;
* `Work.ask` — what one request adds to the work.

`Draft.took_of_take` says all that one item can do, and `Draft.foldl_of_foldlM` carries what it does
to some aspect of a draft through all items.
`Settings.work_of_parse_eq_ok` says that the work of an accepted command line is made from its
requests alone, wherever the other options stand.
-/

namespace HeaderAudit

/-- What is to be done, apart from what is to be said about it. -/
structure Work where
  paths : List String
  options : RunOptions
  report : Option Path
deriving DecidableEq, Repr

def Settings.work (s : Settings) : Work :=
  ⟨s.paths, s.options, s.report⟩

/-! ## Requests -/

/-- The item is about speaking. -/
def Item.isManner : Item → Bool
  | .flag .quiet => true
  | .flag .verbose => true
  | .option .colours _ _ => true
  | _ => false

/-- What a command line asks for, in order, without what it says about speaking. -/
def requests (words : List Bytes) : List Item :=
  (items words).filter fun item => !item.isManner

namespace Work

def nothing : Work :=
  ⟨[], ⟨false, false⟩, none⟩

/-- What one more item adds to the work. -/
def ask (w : Work) : Item → Work
  | .path word => { w with paths := w.paths ++ (Utf8.decode? word).toList }
  | .flag .allFamilies => { w with options := { w.options with everyStyle := true } }
  | .flag .keepGoing => { w with options := { w.options with keepGoing := true } }
  | .option .reportJson _ (some value) => { w with report := some ⟨value⟩ }
  | _ => w

theorem ask_of_isManner {w : Work} {item : Item} (h : item.isManner) : w.ask item = w := by
  unfold Item.isManner at h
  split at h
  · rfl
  · rfl
  · rfl
  · cases h

end Work

/-! ## Drafts -/

@[simp] theorem mapError_eq_ok_iff {ε ε' α : Type} {f : ε → ε'} {x : Except ε α} {a : α} :
    x.mapError f = .ok a ↔ x = .ok a := by
  cases x with
  | error e =>
      constructor <;> intro h <;> cases h
  | ok b =>
      constructor <;> intro h <;> cases h <;> rfl

namespace Draft

/-- The work that a draft holds so far. -/
def work (d : Draft) : Work :=
  ⟨d.paths, ⟨d.allFamilies, d.keepGoing⟩, d.report⟩

/-- The flag was given before and may not be given again. -/
def hasFlag (d : Draft) : Flag → Bool
  | .allFamilies => d.allFamilies
  | .keepGoing => d.keepGoing
  | .quiet => d.quiet
  | .verbose => false

def withFlag (d : Draft) : Flag → Draft
  | .allFamilies => { d with allFamilies := true }
  | .keepGoing => { d with keepGoing := true }
  | .quiet => { d with quiet := true }
  | .verbose => { d with verbosity := min (d.verbosity + 1) verbosityLimit, quietFirst := d.quiet }

variable {d d' : Draft} {item : Item} {items : List Item} {o : ValueOption} {value : Option Bytes}

theorem setFlag_eq (d : Draft) (f : Flag) :
    d.setFlag f = if d.hasFlag f then .error (.repeated f.shown) else .ok (d.withFlag f) := by
  cases f <;> rfl

theorem work_withFlag (d : Draft) (f : Flag) : (d.withFlag f).work = d.work.ask (.flag f) := by
  cases f <;> rfl

theorem setReport_eq_ok_iff :
    d.setReport value = .ok d' ↔
      ∃ v, value = some v ∧ d.report = none ∧ v ≠ [] ∧ d' = { d with report := some ⟨v⟩ } := by
  cases value with
  | none => simp [setReport]
  | some v =>
      cases hreport : d.report with
      | some target => simp [setReport, hreport]
      | none =>
          by_cases hv : v = []
          · simp [setReport, hreport, hv]
          · simp [setReport, hreport, hv, eq_comm]

theorem setColours_eq_ok (h : d.setColours value = .ok d') :
    ∃ choice, d' = { d with colours := some choice } := by
  unfold setColours at h
  split at h
  · cases h
  · cases value with
    | none => exact ⟨.always, (Except.ok.inj h).symm⟩
    | some v =>
        by_cases hv : v = []
        · simp [hv] at h
        · cases hchoice : colourChoice? v with
          | none => simp [hv, hchoice] at h
          | some choice => exact ⟨choice, by simpa [hv, hchoice, eq_comm] using h⟩

/-- An error that waits stays until the end, whatever is taken after it. -/
theorem eq_of_take_of_waiting {e : UsageError} (h : d.take item = .ok d')
    (he : d.waiting = some e) : d' = d := by
  cases item with
  | path word =>
      cases e with
      -- A second path that is no text adds nothing to the error about the first.
      | notText =>
          have hsame : d = d' := by simpa [take, addPath, he] using h
          exact hsame.symm
      | _ => simp [take, addPath, he] at h
  | flag f => simp [take, settle, he, Except.bind] at h
  | help full => simp [take, stop, he] at h
  | version => simp [take, stop, he] at h
  | option o joined value => simp [take, addOption, settle, he] at h
  | refused e => simp [take] at h

/-- All that an item can do to a draft in which no error waits, before and after it. -/
inductive Took (d : Draft) : Item → Draft → Prop
  | path (text : String) : Took d (.path (Utf8.encode text)) { d with paths := d.paths ++ [text] }
  | flag (f : Flag) (unseen : d.hasFlag f = false) : Took d (.flag f) (d.withFlag f)
  | report (joined : Bool) (value : Bytes) (unseen : d.report = none) (given : value ≠ []) :
      Took d (.option .reportJson joined (some value)) { d with report := some ⟨value⟩ }
  | colours (joined : Bool) (value : Option Bytes) (choice : ColourChoice) :
      Took d (.option .colours joined value) { d with colours := some choice }

theorem took_of_take (h : d.take item = .ok d') (hd : d.waiting = none) (hd' : d'.waiting = none) :
    d.Took item d' := by
  -- A path that is no text and a wrong value of its own are taken too, but then an error waits.
  cases item with
  | path word =>
      cases hdecode : Utf8.decode? word with
      | some text =>
          have hadd : { d with paths := d.paths ++ [text] } = d' := by
            simpa [take, addPath, hd, hdecode] using h
          rw [← hadd, Utf8.decode?_eq_some_iff.1 hdecode]
          exact .path text
      | none =>
          have hadd : { d with waiting := some .notText } = d' := by
            simpa [take, addPath, hd, hdecode] using h
          simp [← hadd] at hd'
  | flag f =>
      have hset : d.setFlag f = .ok d' := by
        simpa [take, settle, hd, Except.bind] using h
      rw [setFlag_eq] at hset
      split at hset
      · cases hset
      · rename_i hunseen
        cases hset
        exact .flag f (Bool.eq_false_iff.2 hunseen)
  | help full => simp [take, stop, hd] at h
  | version => simp [take, stop, hd] at h
  | option o joined value =>
      cases hset : d.setOption o value with
      | ok next =>
          have hnext : next = d' := by
            simpa [take, addOption, settle, hd, hset] using h
          rw [hnext] at hset
          cases o with
          | reportJson =>
              rcases setReport_eq_ok_iff.1 hset with ⟨v, rfl, hunseen, hgiven, rfl⟩
              exact .report joined v hunseen hgiven
          | colours =>
              rcases setColours_eq_ok hset with ⟨choice, rfl⟩
              exact .colours joined value choice
      | error e =>
          cases joined with
          | true => simp [take, addOption, settle, hd, hset] at h
          | false =>
              have hwaits : { d with waiting := some e } = d' := by
                simpa [take, addOption, settle, hd, hset] using h
              simp [← hwaits] at hd'
  | refused e => simp [take] at h

theorem foldlM_cons_eq_ok_iff :
    (item :: items).foldlM take d = .ok d' ↔
      ∃ next, d.take item = .ok next ∧ items.foldlM take next = .ok d' := by
  rw [List.foldlM_cons]
  cases d.take item with
  | error stop => simp [bind, Except.bind]
  | ok next => simp [bind, Except.bind]

/-- No error waits at the end only where none has waited on the way.  So what each item does to some
aspect of a draft says what all of them do to it. -/
theorem foldl_of_foldlM {α : Type} {aspect : Draft → α} {act : α → Item → α}
    (hstep : ∀ {d d' : Draft} {item : Item}, d.Took item d' → aspect d' = act (aspect d) item)
    (h : items.foldlM take d = .ok d') (hd' : d'.waiting = none) :
    d.waiting = none ∧ aspect d' = items.foldl act (aspect d) := by
  -- By induction from the front; that no error waits is carried from the end backwards.
  induction items generalizing d with
  | nil =>
      cases h
      exact ⟨hd', rfl⟩
  | cons item rest ih =>
      rcases foldlM_cons_eq_ok_iff.1 h with ⟨next, htake, hrest⟩
      rcases ih hrest with ⟨hnext, haspect⟩
      cases hwaiting : d.waiting with
      | some e =>
          have heq : next = d := eq_of_take_of_waiting htake hwaiting
          rw [heq, hwaiting] at hnext
          cases hnext
      | none =>
          refine ⟨rfl, ?_⟩
          rw [haspect, hstep (took_of_take htake hwaiting hnext)]
          rfl

/-- An item adds to the work what it asks for. -/
theorem Took.work (h : d.Took item d') : d'.work = d.work.ask item := by
  cases h with
  | path text => simp [Draft.work, Work.ask, Utf8.decode?_encode]
  | flag f _ => exact work_withFlag d f
  | report joined value _ _ => rfl
  | colours joined value choice => rfl

/-- Only one item makes a draft quiet. -/
theorem Took.quiet (h : d.Took item d') : d'.quiet = (d.quiet || item = .flag .quiet) := by
  cases h with
  | path text => simp
  | flag f _ => cases f <;> simp [withFlag]
  | report joined value _ _ => simp
  | colours joined value choice => simp

theorem finish_eq_ok_iff {s : Settings} :
    d.finish = .ok s ↔ d.waiting = none ∧ ¬ (d.quiet ∧ 0 < d.verbosity) ∧
      s = ⟨d.paths, ⟨d.allFamilies, d.keepGoing⟩, d.report, d.verbosity, d.quiet,
        d.colours.getD .auto⟩ := by
  -- An error that waits comes before the conflict of quiet and verbose.
  cases hwaiting : d.waiting with
  | some e => simp [finish, hwaiting]
  | none =>
      by_cases hconflict : d.quiet ∧ 0 < d.verbosity
      · simp [finish, hwaiting, hconflict]
      · simp only [finish, hwaiting, hconflict, if_false, Except.ok.injEq, true_and,
          not_false_eq_true]
        exact eq_comm

end Draft

namespace Settings

variable {words : List Bytes} {s : Settings}

theorem parse_eq_ok_iff :
    parse words = .ok s ↔
      ∃ d, (items words).foldlM Draft.take Draft.empty = .ok d ∧ d.finish = .ok s := by
  unfold parse
  cases (items words).foldlM Draft.take Draft.empty with
  | error stop => simp [Except.bind]
  | ok d => simp [Except.bind]

theorem foldl_ask_filter (items : List Item) (w : Work) :
    (items.filter fun item => !item.isManner).foldl Work.ask w = items.foldl Work.ask w := by
  induction items generalizing w with
  | nil => rfl
  | cons item rest ih =>
      cases hmanner : item.isManner with
      | true => simp [hmanner, ih, Work.ask_of_isManner hmanner]
      | false => simp [hmanner, ih]

/-- Options about speaking leave no trace in the work, wherever they stand. -/
theorem work_of_parse_eq_ok (h : parse words = .ok s) :
    s.work = (requests words).foldl Work.ask .nothing := by
  rcases parse_eq_ok_iff.1 h with ⟨d, hfold, hfinish⟩
  rcases Draft.finish_eq_ok_iff.1 hfinish with ⟨hwaiting, _, rfl⟩
  calc
    d.work = (items words).foldl Work.ask .nothing :=
        (Draft.foldl_of_foldlM Draft.Took.work hfold hwaiting).2
    _ = (requests words).foldl Work.ask .nothing := (foldl_ask_filter _ _).symm

theorem foldl_quiet (asked : List Item) (quiet : Bool) :
    asked.foldl (fun quiet item => quiet || item = .flag .quiet) quiet =
      (quiet || asked.contains (.flag .quiet)) := by
  induction asked generalizing quiet with
  | nil => simp
  | cons item rest ih => simp [ih, eq_comm, Bool.or_assoc]

/-- An accepted command line is quiet exactly where it asks to be. -/
theorem quiet_iff_mem_items (h : parse words = .ok s) :
    s.quiet ↔ .flag .quiet ∈ items words := by
  rcases parse_eq_ok_iff.1 h with ⟨d, hfold, hfinish⟩
  rcases Draft.finish_eq_ok_iff.1 hfinish with ⟨hwaiting, _, rfl⟩
  have hfollowed : d.quiet =
      (items words).foldl (fun quiet item => quiet || item = .flag .quiet) false :=
    (Draft.foldl_of_foldlM Draft.Took.quiet hfold hwaiting).2
  rw [hfollowed, foldl_quiet]
  simp

theorem quiet_of_mem_items (h : parse words = .ok s) (hquiet : .flag .quiet ∈ items words) :
    s.quiet :=
  (quiet_iff_mem_items h).2 hquiet

end Settings

end HeaderAudit

import HeaderAudit.Diagnostic.Directive
import HeaderAudit.Diagnostic.Event

/-!
# Filter — which events reach the log

A filter is a list of directives.  For a component the most specific directive that speaks for it
decides, the later one between equals.

This file defines:

* `Filter.decides?` and `Filter.lets` — the deciding directive, and the decision about an event;
* `Filter.parse?` — the written form, which is valid as a whole or not at all;
* `Filter.ofSeverity` — the filter that treats all components alike.

`parse?_eq_none_iff` says that one malformed piece anywhere spoils the whole text.
-/

namespace HeaderAudit

abbrev Filter := List Directive

namespace Filter

/-! ## Deciding -/

def decides? (target : List Char) : Filter → Option Directive
  | [] => none
  | d :: rest =>
      match decides? target rest with
      | none => if d.appliesTo target then some d else none
      | some later =>
          if d.appliesTo target ∧ later.specificity < d.specificity then some d
          else some later

def threshold (f : Filter) (component : Component) : Threshold :=
  (decides? component.target.toList f).bind (·.threshold)

/-- The event is written to the log. -/
def lets (f : Filter) (e : Event) : Bool :=
  (f.threshold e.component).allows e.severity

def ofSeverity (severity : Severity) : Filter :=
  [.ofThreshold (some severity)]

theorem threshold_ofSeverity (severity : Severity) (component : Component) :
    (ofSeverity severity).threshold component = some severity := by
  simp [threshold, ofSeverity, decides?, Directive.ofThreshold, Directive.appliesTo]

/-! ## The written form -/

/-- The pieces between commas.  Empty ones do not count. -/
def pieces (s : String) : List (List Char) :=
  (s.toList.splitOn ',').filter (· ≠ [])

/-- A text without any piece asks for errors only. -/
def parse? (s : String) : Option Filter :=
  match pieces s with
  | [] => some (ofSeverity .error)
  | piece :: rest => (piece :: rest).mapM Directive.parse?

/-- The filter that a stored value describes, if it describes one. -/
def ofValue? (value : Option Bytes) : Option Filter :=
  (value.bind Utf8.decode?).bind parse?

theorem mapM_eq_none_iff {α β : Type} {f : α → Option β} {xs : List α} :
    xs.mapM f = none ↔ ∃ x ∈ xs, f x = none := by
  induction xs with
  | nil => simp
  | cons x xs ih =>
      rw [List.mapM_cons]
      cases hx : f x with
      | none => simp [hx]
      | some y =>
          cases hxs : xs.mapM f with
          | none => simpa [hx, hxs] using ih.1 hxs
          | some ys =>
              have hnone : ¬ ∃ x ∈ xs, f x = none := fun h => by
                rw [ih.2 h] at hxs
                cases hxs
              simpa [hx] using hnone

theorem parse?_eq_none_iff {s : String} :
    parse? s = none ↔ ∃ piece ∈ pieces s, Directive.parse? piece = none := by
  unfold parse?
  cases h : pieces s with
  | nil => simp
  | cons piece rest => exact mapM_eq_none_iff

end Filter
end HeaderAudit

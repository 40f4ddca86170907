import HeaderAudit.Document
import HeaderAudit.Proofs.JsonPrinting
import HeaderAudit.Proofs.JsonReading
import Mathlib.Data.Option.Basic

/-!
# ReportReading — a report says everything that it was made from

Whoever reads a report by the grammar of JSON gets its findings and its tally back.  This file
defines `Document.contents`, what there is to be read in a report, member by member.  The main
statements are:

* `Document.isText_render` — a report stands for its contents;
* `Document.contents_eq_contents_iff` — contents are the same only for the same findings and tally;
* `Document.render_reads_back` — a report is read as its contents, as nothing else, and no other
  findings and tally are rendered in the same way.
-/

namespace HeaderAudit

/-! ## Names -/

theorem CommentStyle.name_injective : Function.Injective CommentStyle.name := by
  intro style style' h
  cases style <;> cases style'
  · rfl
  · exact absurd h (by decide)
  · exact absurd h (by decide)
  · rfl

theorem Status.find?_name (status : Status) :
    all.find? (fun other => other.name = status.name) = some status := by
  rcases status with verdict | _
  · cases verdict <;> rfl
  · rfl

theorem Status.name_injective : Function.Injective Status.name := by
  intro status status' h
  have hfind := find?_name status
  rw [h, find?_name status'] at hfind
  exact (Option.some.inj hfind).symm

namespace Document

open Json (Value IsText read?)

/-! ## Contents -/

def textOrNull : Option String → Value
  | none => .null
  | some s => .text s

/-- A counter is read exactly, without a power of ten. -/
def counter (n : UInt64) : Value :=
  .number n.toNat 0

def summary (t : Tally) : Value :=
  .object
    [("total", counter t.total),
      ("passed", counter t.passed),
      ("excluded", counter t.excluded),
      ("missing", counter t.missing),
      ("unreadable", counter t.unreadable)]

def entry (f : Finding) : Value :=
  .object
    [("path", .text f.path),
      ("family", textOrNull (f.style.map CommentStyle.name)),
      ("status", .text f.status.name),
      ("error", textOrNull f.error)]

def contents (findings : List Finding) (t : Tally) : Value :=
  .object [("summary", summary t), ("files", .array (findings.map entry))]

/-! ## What a report stands for -/

variable {findings findings' : List Finding} {t t' : Tally}

theorem toValue_optional (s : Option String) : (optional s).toValue = textOrNull s := by
  cases s with
  | none => rfl
  | some s => rfl

theorem toValue_ofFinding (f : Finding) : (ofFinding f).toValue = entry f := by
  simp [ofFinding, entry, Json.toValue, Json.toMembers, toValue_optional]

theorem toValue_ofFindings (findings : List Finding) (t : Tally) :
    (ofFindings findings t).toValue = contents findings t := by
  have hentries : (findings.map ofFinding).map Json.toValue = findings.map entry := by
    rw [List.map_map]
    exact List.map_congr_left fun f _ => toValue_ofFinding f
  simp [ofFindings, contents, ofTally, summary, ofCounter, counter, Json.toValue, Json.toMembers,
    hentries]

theorem isText_render (findings : List Finding) (t : Tally) :
    IsText (contents findings t) (render findings t) := by
  have hrender := Json.isText_render (ofFindings findings t)
  rwa [toValue_ofFindings] at hrender

/-! ## Nothing is lost -/

theorem textOrNull_injective : Function.Injective textOrNull := by
  intro s s' h
  cases s with
  | none =>
      cases s' with
      | none => rfl
      | some s' => cases h
  | some s =>
      cases s' with
      | none => cases h
      | some s' => exact congrArg some (Value.text.inj h)

theorem counter_injective : Function.Injective counter := by
  intro n n' h
  exact UInt64.toNat_inj.1 (Int.ofNat.inj (Value.number.inj h).1)

theorem summary_injective : Function.Injective summary := by
  rintro ⟨total, passed, excluded, missing, unreadable⟩
    ⟨total', passed', excluded', missing', unreadable'⟩ h
  simpa only [summary, Value.object.injEq, List.cons.injEq, Prod.mk.injEq, true_and, and_true,
    counter_injective.eq_iff, Tally.mk.injEq] using h

theorem entry_injective : Function.Injective entry := by
  rintro ⟨path, style, status, error⟩ ⟨path', style', status', error'⟩ h
  simpa only [entry, Value.object.injEq, List.cons.injEq, Prod.mk.injEq, true_and, and_true,
    Value.text.injEq, textOrNull_injective.eq_iff, Status.name_injective.eq_iff,
    (Option.map_injective CommentStyle.name_injective).eq_iff, Finding.mk.injEq] using h

theorem contents_eq_contents_iff :
    contents findings t = contents findings' t' ↔ findings = findings' ∧ t = t' := by
  have hentries : findings.map entry = findings'.map entry ↔ findings = findings' :=
    List.map_inj_right fun f f' hf => entry_injective hf
  simp only [contents, Value.object.injEq, List.cons.injEq, Prod.mk.injEq, true_and, and_true,
    Value.array.injEq, summary_injective.eq_iff, hentries]
  exact and_comm

/-- The reader takes every report to its end, and gets the tally and the findings, in order, as they
were.  Any other reading would break the grammar.  So no two reports are the same text, whatever
characters stand in their paths and errors. -/
theorem render_reads_back :
    (∀ findings t, read? (render findings t) = some (contents findings t)) ∧
      (∀ findings t v, IsText v (render findings t) ↔ v = contents findings t) ∧
      ∀ findings t findings' t',
        render findings t = render findings' t' ↔ findings = findings' ∧ t = t' := by
  have hread (findings : List Finding) (t : Tally) :
      read? (render findings t) = some (contents findings t) :=
    Json.read?_of_isText (isText_render findings t)
  refine ⟨hread, fun findings t v => ?_, fun findings t findings' t' => ?_⟩
  · constructor
    · intro hv
      exact hv.unique (isText_render findings t)
    · rintro rfl
      exact isText_render findings t
  · constructor
    · intro hrender
      -- Both readings are of one text.
      have hcontents : some (contents findings t) = some (contents findings' t') := by
        rw [← hread, ← hread, hrender]
      exact contents_eq_contents_iff.1 (Option.some.inj hcontents)
    · rintro ⟨rfl, rfl⟩
      rfl

end Document
end HeaderAudit

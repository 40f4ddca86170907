import HeaderAudit.Finding
import HeaderAudit.Json.Basic

/-!
# Document — the findings of a run as a JSON report

The report says why a file failed, which the list on standard output does not.  It holds the tally
under `summary` and one object per finding, in order, under `files`.
-/

namespace HeaderAudit
namespace Document

/-- Text or null. -/
def optional : Option String → Json
  | none => .null
  | some s => .text s

def ofCounter (n : UInt64) : Json :=
  .number n.toNat

def ofTally (t : Tally) : Json :=
  .object
    [("total", ofCounter t.total),
      ("passed", ofCounter t.passed),
      ("excluded", ofCounter t.excluded),
      ("missing", ofCounter t.missing),
      ("unreadable", ofCounter t.unreadable)]

def ofFinding (f : Finding) : Json :=
  .object
    [("path", .text f.path),
      ("family", optional (f.style.map CommentStyle.name)),
      ("status", .text f.status.name),
      ("error", optional f.error)]

def ofFindings (findings : List Finding) (t : Tally) : Json :=
  .object [("summary", ofTally t), ("files", .array (findings.map ofFinding))]

def render (findings : List Finding) (t : Tally) : String :=
  (ofFindings findings t).render

end Document

/-- The report on a run, as it is stored. -/
def Findings.report (findings : List Finding) : Bytes :=
  Utf8.encode (Document.render findings (Tally.ofFindings findings))

end HeaderAudit

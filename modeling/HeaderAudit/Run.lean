import HeaderAudit.Finding
import HeaderAudit.Examination

/-!
# Run — checking the files named on a command line

Arguments whose file name has one of the expected endings are forwarded, the others are skipped
unread.  An unreadable file ends the run, unless the run keeps going and records it.

This file defines `forwards`, the test on one argument, and `Run.ofArguments`, which takes the
arguments in order.  `Run.through_cons_of_not_forwards`, `Run.through_cons_of_ok` and
`Run.through_cons_of_error` say what one argument adds.
-/

namespace HeaderAudit

structure RunOptions where
  /-- Forward files of every comment style, not of the slash style only. -/
  everyStyle : Bool
  /-- Record unreadable files as failures instead of ending the run. -/
  keepGoing : Bool
deriving DecidableEq, Repr

/-- What happened in a run, and its findings or the file that ended it. -/
structure Run where
  events : List Event
  outcome : Except Unreadable (List Finding)

/-! ## Forwarding -/

def forwardedStyles (everyStyle : Bool) : List CommentStyle :=
  if everyStyle then [.slashes, .hash] else [.slashes]

/-- The name's ending counts, so `.ts` alone is forwarded although it has no extension. -/
def endsLike (style : CommentStyle) (name : Segment) : Bool :=
  style.endings.any fun ending => (Utf8.encode ending).isSuffixOf name

def forwards (everyStyle : Bool) (p : Path) : Bool :=
  p.fileName?.any fun name => (forwardedStyles everyStyle).any fun style => endsLike style name

/-! ## The arguments in order -/

namespace Run

/-- The same run with something said before it. -/
def after (events : List Event) (r : Run) : Run :=
  ⟨events ++ r.events, r.outcome⟩

/-- The same run with one finding more in front. -/
def record (f : Finding) (r : Run) : Run :=
  ⟨r.events, r.outcome.map (f :: ·)⟩

def through (read : Reader) (exemptions : Exemptions) (options : RunOptions) :
    List String → Run
  | [] => ⟨[], .ok []⟩
  | argument :: rest =>
      let p := Path.ofString argument
      if forwards options.everyStyle p then
        let examination := examine read exemptions p
        match examination.outcome with
        | .ok verdict =>
            ((through read exemptions options rest).record
              (Finding.judged argument verdict)).after examination.events
        | .error u =>
            if options.keepGoing then
              ((through read exemptions options rest).record
                (Finding.unreadable argument u.cause.message)).after
                  (examination.events ++ [.unreadable u])
            else ⟨examination.events, .error u⟩
      else
        (through read exemptions options rest).after [.skipped argument]

/-- A run that comes to its end says how many arguments it checked. -/
def ofArguments (read : Reader) (exemptions : Exemptions) (options : RunOptions)
    (arguments : List String) : Run :=
  let r := through read exemptions options arguments
  match r.outcome with
  | .ok findings => ⟨r.events ++ [.finished findings.length arguments.length], r.outcome⟩
  | .error _ => r

section Steps

variable {read : Reader} {exemptions : Exemptions} {options : RunOptions}
  {argument : String} {rest : List String}

theorem through_cons_of_not_forwards
    (h : forwards options.everyStyle (Path.ofString argument) = false) :
    through read exemptions options (argument :: rest) =
      (through read exemptions options rest).after [.skipped argument] := by
  simp [through, h]

theorem through_cons_of_ok {verdict : Verdict}
    (h : forwards options.everyStyle (Path.ofString argument))
    (hok : (examine read exemptions (Path.ofString argument)).outcome = .ok verdict) :
    through read exemptions options (argument :: rest) =
      ((through read exemptions options rest).record
        (Finding.judged argument verdict)).after
          (examine read exemptions (Path.ofString argument)).events := by
  simp [through, h, hok]

theorem through_cons_of_error {u : Unreadable}
    (h : forwards options.everyStyle (Path.ofString argument))
    (herror : (examine read exemptions (Path.ofString argument)).outcome = .error u) :
    through read exemptions options (argument :: rest) =
      if options.keepGoing then
        ((through read exemptions options rest).record
          (Finding.unreadable argument u.cause.message)).after
            ((examine read exemptions (Path.ofString argument)).events ++ [.unreadable u])
      else ⟨(examine read exemptions (Path.ofString argument)).events, .error u⟩ := by
  simp [through, h, herror]

theorem outcome_ofArguments (arguments : List String) :
    (ofArguments read exemptions options arguments).outcome =
      (through read exemptions options arguments).outcome := by
  unfold ofArguments
  cases h : (through read exemptions options arguments).outcome with
  | error u => simp only [h]
  | ok findings => simp only [h]

end Steps

end Run
end HeaderAudit

import HeaderAudit.Proofs.CommandLines
import HeaderAudit.Proofs.Invocations

/-!
# Effects — what an invocation does besides talking

An invocation leaves an exit code, a text on standard output and a disk; its messages on standard
error are for people.  What it does is decided by a part of its settings, the work, and not by how
much is to be said or in which colours.  This file defines:

* `Effect` and `effect` — what is left of an invocation when its messages are forgotten;
* `Work.effect` — what comes of the work, without any messages on the way.

`effect_of_parse_eq_ok` says that an accepted invocation has the effect of its work, whatever the
rest of its settings, the log filter and the colours of standard error are.
`effect_independent_of_manner` compares invocations.
-/

namespace HeaderAudit

structure Effect where
  exitCode : UInt8
  stdout : String
  disk : Disk

/-- What an invocation leaves behind when its messages are forgotten. -/
def effect (disk : Disk) (directory : Location) (streams : Streams) (log : Option Bytes)
    (words : List Bytes) : Effect :=
  let result := execute disk directory streams log words
  ⟨result.1.exitCode, result.1.stdout, result.2⟩

def Work.effect (w : Work) (disk : Disk) (directory : Location) (output : Outlet) : Effect :=
  let ending := w.ending disk directory output
  ⟨ending.exitCode, ending.stdout, ending.disk disk⟩

section

variable {disk : Disk} {directory : Location} {streams : Streams} {log : Option Bytes}
  {words : List Bytes} {s : Settings}

theorem effect_of_usage {e : UsageError} (h : Settings.parse words = .error (.usage e)) :
    effect disk directory streams log words = ⟨abortedCode, "", disk⟩ := by
  simp [effect, execute_of_usage h]

/-- The messages pass the filter and are painted on their way out; neither the exit code, nor
standard output, nor the report is made from them. -/
theorem effect_of_parse_eq_ok (h : Settings.parse words = .ok s) :
    effect disk directory streams log words = s.work.effect disk directory streams.output := by
  rw [effect, execute_of_parse_eq_ok h]
  rfl

end

/-! ## Two invocations -/

/-- A report that can be written changes the disk and nothing else of the effect. -/
theorem Work.effect_with_report {w : Work} {disk : Disk} {directory : Location} {output : Outlet}
    {target : Path}
    (hwrite : ∀ findings, (w.run disk directory).outcome = .ok findings →
      ∃ changed, disk.write directory target (Findings.report findings) = .ok changed) :
    let silent := { w with report := none }.effect disk directory output
    let reported := { w with report := some target }.effect disk directory output
    reported.exitCode = silent.exitCode ∧ reported.stdout = silent.stdout := by
  have hrun (report : Option Path) :
      { w with report := report }.run disk directory = w.run disk directory := rfl
  -- The report counts only where the failing paths have been listed.
  simp only [effect, ending, hrun]
  cases hthere : disk.isDirectory directory with
  | false => exact ⟨rfl, rfl⟩
  | true =>
      cases houtcome : (w.run disk directory).outcome with
      | error u => exact ⟨rfl, rfl⟩
      | ok findings =>
          rcases hwrite findings houtcome with ⟨changed, hchanged⟩
          cases hrefusal : output.refusal? (Findings.listing findings) with
          | some fault => simp [hrefusal]
          | none =>
              have hsilent : { w with report := none }.endingOfListed disk directory findings =
                  .finished findings := endingOfListed_of_unreported rfl
              have hreported :
                  { w with report := some target }.endingOfListed disk directory findings =
                    .saved findings target changed := endingOfListed_of_written rfl hchanged
              simp only [hrefusal, if_true, hsilent, hreported]
              exact ⟨rfl, rfl⟩

/-- Two accepted invocations that ask for the same to be done have the same exit code, the same
standard output and the same disk afterwards, however they speak on the way, wherever they were told
so, whatever log filters they find, and whether or not their standard errors support colours.  Every
work can be asked for in every manner, and then has its effect.  If one of two invocations asks for
a report besides, which can be written, the exit code and standard output are still the same, also
where the report replaces a file that is looked at.  All this is so wherever the failing paths are
printed to, and also where there is no working directory. -/
theorem effect_independent_of_manner (disk : Disk) (directory : Location) (output : Outlet) :
    (∀ (shows shows' : Bool) (log log' : Option Bytes) (words words' : List Bytes)
      (s s' : Settings), Settings.parse words = .ok s → Settings.parse words' = .ok s' →
      requests words = requests words' →
        effect disk directory ⟨output, shows⟩ log words =
          effect disk directory ⟨output, shows'⟩ log' words') ∧
    (∀ (w : Work) (m : Manner) (shows : Bool) (log : Option Bytes), w.report ≠ some ⟨[]⟩ →
      m.Consistent →
        effect disk directory ⟨output, shows⟩ log (m.words ++ w.words) =
          w.effect disk directory output) ∧
    ∀ (shows shows' : Bool) (log log' : Option Bytes) (words words' : List Bytes)
      (s s' : Settings) (target : Path),
      Settings.parse words = .ok s → Settings.parse words' = .ok s' →
      s.report = none → s'.work = { s.work with report := some target } →
      (∀ findings, (s.work.run disk directory).outcome = .ok findings →
        ∃ changed, disk.write directory target (Findings.report findings) = .ok changed) →
      let silent := effect disk directory ⟨output, shows⟩ log words
      let reported := effect disk directory ⟨output, shows'⟩ log' words'
      reported.exitCode = silent.exitCode ∧ reported.stdout = silent.stdout := by
  have heffect {shows : Bool} {log : Option Bytes} {words : List Bytes} {s : Settings}
      (h : Settings.parse words = .ok s) :
      effect disk directory ⟨output, shows⟩ log words = s.work.effect disk directory output :=
    effect_of_parse_eq_ok h
  refine ⟨?_, ?_, ?_⟩
  -- The effect depends on the work alone, and the work on the requests alone.
  · intro shows shows' log log' words words' s s' h h' hrequests
    have hwork : s.work = s'.work := by
      rw [Settings.work_of_parse_eq_ok h, Settings.work_of_parse_eq_ok h', hrequests]
    calc
      effect disk directory ⟨output, shows⟩ log words
          = s.work.effect disk directory output := heffect h
      _ = s'.work.effect disk directory output := by rw [hwork]
      _ = effect disk directory ⟨output, shows'⟩ log' words' := (heffect h').symm
  -- The manner and the work can be written one behind the other.
  · intro w m shows log hw hm
    exact heffect (Settings.parse_words hm hw)
  · intro shows shows' log log' words words' s s' target h h' hnone hwork' hwrite
    have hwork : s.work = { s.work with report := none } := by simp [Settings.work, hnone]
    rw [heffect h, heffect h', hwork', hwork]
    exact Work.effect_with_report hwrite

/-- A disk with one script in its root. -/
def oneScript : Disk :=
  Disk.empty.put [Utf8.encode "a.ts"] (.file (Utf8.encode "let x;"))

/-- Streams that take in everything and show no colours. -/
def Streams.piped : Streams :=
  ⟨.unlimited, false⟩

/-- A silent invocation, a talkative one, and one whose report replaces the script. -/
theorem effect_for_oneScript :
    let silent := ["-q", "a.ts"].map Utf8.encode
    let talkative := ["a.ts", "-vvv", "--colors"].map Utf8.encode
    let reporting := ["-v", "--report-json", "a.ts", "a.ts"].map Utf8.encode
    let w : Work := ⟨["a.ts"], ⟨false, false⟩, none⟩
    let m : Manner := ⟨false, 2, some .always⟩
    let after (shows : Bool) (log : Option Bytes) (words : List Bytes) : Effect :=
      effect oneScript [] ⟨.unlimited, shows⟩ log words
    after false none silent = after true (some [0xFF]) talkative ∧
      after true none (m.words ++ w.words) = w.effect oneScript [] .unlimited ∧
      (after true none reporting).exitCode = (after false none silent).exitCode ∧
      (after true none reporting).stdout = (after false none silent).stdout := by
  intro silent talkative reporting w m after
  have hsilent : Settings.parse silent =
      .ok ⟨["a.ts"], ⟨false, false⟩, none, 0, true, .auto⟩ := rfl
  have htalkative : Settings.parse talkative =
      .ok ⟨["a.ts"], ⟨false, false⟩, none, 3, false, .always⟩ := rfl
  have hreporting : Settings.parse reporting =
      .ok ⟨["a.ts"], ⟨false, false⟩, some (Path.ofString "a.ts"), 1, false, .auto⟩ := rfl
  rcases effect_independent_of_manner oneScript [] .unlimited with ⟨hsame, hevery, hreport⟩
  refine ⟨hsame false true none (some [0xFF]) silent talkative _ _ hsilent htalkative rfl, ?_, ?_⟩
  · exact hevery w m true none (by decide) (fun hboth => Bool.noConfusion hboth.1)
  · refine hreport false true none none silent reporting _ _ _ hsilent hreporting rfl rfl ?_
    intro findings _
    exact ⟨_, rfl⟩

end HeaderAudit

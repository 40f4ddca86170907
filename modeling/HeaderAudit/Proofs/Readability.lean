import HeaderAudit.Disk.Update
import HeaderAudit.Examination
import HeaderAudit.Proofs.WellFormedText
import Mathlib.Tactic.TFAE

/-!
# Readability — the files that can be examined

A file is examined with success if its bytes are a text, and then the verdict is that on the text.
In all other cases the examination ends with the path and a cause.  This file defines `Disk.Holds`:
a path leads to a file with some bytes.

`Reader.text_eq_error_iff` says why there may be no text, and `outcome_decided_by_bytes` that
whether an examination fails, and with which cause, is known from the disk and the path, whatever is
exempt and whatever the file is called.
-/

namespace HeaderAudit

/-! ## Files on a disk -/

namespace Disk

/-- The path leads to a file with these bytes. -/
def Holds (disk : Disk) (directory : Location) (p : Path) (content : Bytes) : Prop :=
  ∃ place, disk.locate directory p = .ok place ∧ disk.at? place = some (.file content)

theorem read_eq_ok_iff {disk : Disk} {directory : Location} {p : Path} {content : Bytes} :
    disk.read directory p = .ok content ↔ disk.Holds directory p content := by
  unfold read Holds
  cases disk.locate directory p with
  | error fault => simp
  | ok place =>
      cases hentry : disk.at? place with
      | none => simp [hentry]
      | some entry => cases entry <;> simp [hentry]

end Disk

/-! ## Reading as text -/

section

variable {read other : Reader} {e e' : Exemptions} {p q : Path} {bytes : Bytes} {fault : Fault}

/-- There is no text where there are no bytes, or where the bytes are not well formed. -/
theorem Reader.text_eq_error_iff :
    read.text p = .error fault ↔ read p = .error fault ∨
      ∃ bytes, read p = .ok bytes ∧ ¬ Utf8.WellFormed bytes ∧ fault = .notText := by
  unfold Reader.text
  -- There are no bytes, or bytes that are text, or bytes that are not.
  cases read p with
  | error cause => simp
  | ok bytes =>
      cases hdecode : Utf8.decode? bytes with
      | some s =>
          have hformed : Utf8.WellFormed bytes :=
            Utf8.wellFormed_iff.2 ⟨s, Utf8.decode?_eq_some_iff.1 hdecode⟩
          simp [hdecode, hformed]
      | none =>
          have hbroken : ¬ Utf8.WellFormed bytes := by
            intro hformed
            rcases Utf8.wellFormed_iff.1 hformed with ⟨s, hs⟩
            rw [Utf8.decode?_eq_some_iff.2 hs] at hdecode
            cases hdecode
          simp [hdecode, hbroken, eq_comm]

/-- Only what is read at the path counts for a failure. -/
theorem examine_error_congr (h : other q = read p) :
    (examine read e p).outcome = .error ⟨p, fault⟩ ↔
      (examine other e' q).outcome = .error ⟨q, fault⟩ := by
  have htext : other.text q = read.text p := by
    simp only [Reader.text, h]
  simp only [examine_outcome_eq_error_iff, htext, true_and]

theorem examine_of_read (h : read p = .ok bytes) :
    [∃ verdict, (examine read e p).outcome = .ok verdict, ∃ s, bytes = Utf8.encode s,
      Utf8.WellFormed bytes].TFAE := by
  tfae_have 1 ↔ 2 := by
    simp only [examine_outcome_eq_ok_iff, Reader.text_eq_ok_iff, h, Except.ok.injEq]
    constructor
    · rintro ⟨_, s, hs, _⟩
      exact ⟨s, hs⟩
    · rintro ⟨s, hs⟩
      exact ⟨_, s, hs, rfl⟩
  tfae_have 2 ↔ 3 := Utf8.wellFormed_iff.symm
  tfae_finish

end

/-! ## Examination on a disk -/

/-- A file is examined with success exactly if its bytes are the encoding of a text, which is to say
that they are well formed, and what comes of it is the verdict on that text.  Otherwise the
examination ends with the path and the cause that the file is no text.  Where there is no file, it
ends with the path and the cause that reading has.  So whether it fails, and with which cause, is
the same under all exemptions, and the same for any two paths that read alike, whatever their
endings are. -/
theorem outcome_decided_by_bytes (disk : Disk) (directory : Location) (p : Path) :
    (∀ content, disk.Holds directory p content → ∀ exemptions,
      let outcome := (examine (disk.read directory) exemptions p).outcome
      [∃ verdict, outcome = .ok verdict, ∃ s, content = Utf8.encode s,
        Utf8.WellFormed content].TFAE ∧
      (∀ s, content = Utf8.encode s → outcome = .ok (Verdict.of exemptions p s)) ∧
      (¬ Utf8.WellFormed content → outcome = .error ⟨p, .notText⟩)) ∧
    ((∀ content, ¬ disk.Holds directory p content) →
      ∃ fault, disk.read directory p = .error fault ∧
        ∀ exemptions, (examine (disk.read directory) exemptions p).outcome = .error ⟨p, fault⟩) ∧
    ∀ (e e' : Exemptions) (other : Disk) (directory' : Location) (q : Path),
      other.read directory' q = disk.read directory p → ∀ fault,
        ((examine (disk.read directory) e p).outcome = .error ⟨p, fault⟩ ↔
          (examine (other.read directory') e' q).outcome = .error ⟨q, fault⟩) := by
  refine ⟨?_, ?_, ?_⟩
  -- There is a file, and its bytes decide.
  · intro content hholds exemptions outcome
    have hread : disk.read directory p = .ok content := Disk.read_eq_ok_iff.2 hholds
    refine ⟨examine_of_read hread, ?_, ?_⟩
    · intro s hs
      have htext : Reader.text (disk.read directory) p = .ok s :=
        Reader.text_eq_ok_iff.2 (hs ▸ hread)
      exact examine_outcome_eq_ok_iff.2 ⟨s, htext, rfl⟩
    · intro hbroken
      have hfault : Reader.text (disk.read directory) p = .error .notText :=
        Reader.text_eq_error_iff.2 (Or.inr ⟨content, hread, hbroken, rfl⟩)
      exact examine_outcome_eq_error_iff.2 ⟨rfl, hfault⟩
  -- There is no file, so reading fails before any list of exemptions is asked.
  · intro hnone
    cases hread : disk.read directory p with
    | ok content => exact absurd (Disk.read_eq_ok_iff.1 hread) (hnone content)
    | error fault =>
        refine ⟨fault, rfl, ?_⟩
        intro exemptions
        have hfault : Reader.text (disk.read directory) p = .error fault :=
          Reader.text_eq_error_iff.2 (Or.inl hread)
        exact examine_outcome_eq_error_iff.2 ⟨rfl, hfault⟩
  · intro e e' other directory' q hsame fault
    exact examine_error_congr hsame

/-- An exempt script that holds half of a surrogate pair, the same bytes under a name that owes no
notice, and a page that is missing. -/
theorem outcome_decided_by_surrogate :
    let surrogate : Bytes := [0xED, 0xA0, 0x80]
    let disk := Disk.empty.put [Utf8.encode "a.ts"] (.file surrogate)
    let renamed := Disk.empty.put [Utf8.encode "a.md"] (.file surrogate)
    let e := Exemptions.ofPaths [Path.ofString "a.ts"]
    e.covers (Path.ofString "a.ts") ∧
      disk.Holds [] (Path.ofString "./a.ts") surrogate ∧ ¬ Utf8.WellFormed surrogate ∧
      (examine (disk.read []) e (Path.ofString "./a.ts")).outcome =
        .error ⟨Path.ofString "./a.ts", .notText⟩ ∧
      (examine (renamed.read []) (Exemptions.ofPaths []) (Path.ofString "a.md")).outcome =
        .error ⟨Path.ofString "a.md", .notText⟩ ∧
      ∃ fault, (examine (disk.read []) e (Path.ofString "page.md")).outcome =
        .error ⟨Path.ofString "page.md", fault⟩ := by
  intro surrogate disk renamed e
  have hholds : disk.Holds [] (Path.ofString "./a.ts") surrogate := ⟨_, rfl, rfl⟩
  have hbroken : ¬ Utf8.WellFormed surrogate := by
    intro hformed
    rcases Utf8.wellFormed_iff.1 hformed with ⟨s, hs⟩
    have hdecode : Utf8.decode? surrogate = none := by decide
    rw [Utf8.decode?_eq_some_iff.2 hs] at hdecode
    cases hdecode
  have hnone : ∀ content, ¬ disk.Holds [] (Path.ofString "page.md") content := by
    intro content hpage
    cases Disk.read_eq_ok_iff.2 hpage
  rcases outcome_decided_by_bytes disk [] (Path.ofString "./a.ts") with ⟨hfile, _, hsame⟩
  have hends := (hfile surrogate hholds e).2.2 hbroken
  have hread : renamed.read [] (Path.ofString "a.md") = disk.read [] (Path.ofString "./a.ts") := rfl
  refine ⟨by decide, hholds, hbroken, hends, ?_, ?_⟩
  · exact (hsame e (Exemptions.ofPaths []) renamed [] _ hread .notText).1 hends
  · rcases (outcome_decided_by_bytes disk [] (Path.ofString "page.md")).2.1 hnone with
      ⟨fault, _, hfault⟩
    exact ⟨fault, hfault e⟩

end HeaderAudit

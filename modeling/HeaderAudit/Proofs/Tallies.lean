import HeaderAudit.Console.Lines
import Mathlib.Tactic.TFAE

/-!
# Tallies — the views of a run count the same thing

The findings of a run are counted by status, listed by path, turned into an exit code and printed.
This file defines:

* `Findings.count` — how many findings have a status;
* `Tally.counter` — the counter of a status.

`Tally.counter_add` says what one more finding does to the counters, and `Tally.counter_ofFindings`
what a whole list does.  Counters have 64 bits, so they are counts up to multiples of `2 ^ 64`.
`Findings.views_agree` compares all views of a list of findings.
-/

namespace HeaderAudit
namespace Findings

/-! ## Findings by status -/

def count (status : Status) (findings : List Finding) : Nat :=
  findings.countP fun f => f.status = status

variable {f : Finding}

theorem count_cons (status : Status) (f : Finding) (findings : List Finding) :
    count status (f :: findings) = count status findings + if f.status = status then 1 else 0 := by
  simp [count, List.countP_cons]

theorem count_le_length (status : Status) (findings : List Finding) :
    count status findings ≤ findings.length :=
  List.countP_le_length

/-- Every finding has exactly one of the four statuses. -/
theorem length_eq_sum_count (findings : List Finding) :
    findings.length = count (.judged .pass) findings + count (.judged .exempt) findings +
      count (.judged .missing) findings + count .unreadable findings := by
  induction findings with
  | nil => rfl
  | cons f findings ih =>
      simp only [count_cons, List.length_cons, ih]
      rcases f.status with ⟨_ | _ | _⟩ | _ <;> simp <;> omega

/-! ## Failures -/

theorem fails_iff : f.fails ↔ f.status = .judged .missing ∨ f.status = .unreadable := by
  unfold Finding.fails
  cases f.status with
  | judged verdict => cases verdict <;> decide
  | unreadable => decide

theorem failingPaths_cons (f : Finding) (findings : List Finding) :
    failingPaths (f :: findings) =
      if f.fails then f.path :: failingPaths findings else failingPaths findings := by
  unfold failingPaths
  cases hf : f.fails <;> simp [hf]

theorem failingPaths_eq (findings : List Finding) :
    failingPaths findings = (findings.filter fun f =>
      f.status = .judged .missing ∨ f.status = .unreadable).map (·.path) := by
  unfold failingPaths
  congr 1
  apply List.filter_congr
  intro f _
  apply Bool.eq_iff_iff.2
  simpa using fails_iff

theorem length_failingPaths (findings : List Finding) :
    (failingPaths findings).length =
      count (.judged .missing) findings + count .unreadable findings := by
  induction findings with
  | nil => rfl
  | cons f findings ih =>
      rw [failingPaths_cons, count_cons, count_cons]
      cases hf : f.fails with
      | true =>
          -- A finding that fails is counted once, because it has only one of the two statuses.
          rcases fails_iff.1 hf with hmissing | hunreadable
          · simp [hmissing, ih]; omega
          · simp [hunreadable, ih]; omega
      | false =>
          have hneither := mt fails_iff.2 (Bool.eq_false_iff.1 hf)
          simp [not_or.1 hneither, ih]

theorem anyFailure_iff (findings : List Finding) :
    anyFailure findings ↔ failingPaths findings ≠ [] := by
  simp [anyFailure, failingPaths]

theorem exitCode_eq_one_iff (findings : List Finding) :
    exitCode findings = 1 ↔ anyFailure findings := by
  unfold exitCode failureCode
  cases anyFailure findings <;> decide

end Findings

/-! ## The list on standard output -/

namespace Console

theorem toList_ofLines_cons (line : String) (rest : List String) :
    (ofLines (line :: rest)).toList = line.toList ++ '\n' :: (ofLines rest).toList := by
  simp [ofLines, String.toList_join]

/-- Only a list without paths prints nothing, whatever the paths are. -/
theorem failureList_eq_empty_iff (paths : List String) : failureList paths = "" ↔ paths = [] := by
  cases paths with
  | nil => exact ⟨fun _ => rfl, fun _ => rfl⟩
  | cons first rest =>
      have hprinted : failureList (first :: rest) ≠ "" := by
        intro h
        have hchars := congrArg String.toList h
        rw [failureList, toList_ofLines_cons] at hchars
        simp at hchars
      simp [hprinted]

end Console

/-! ## Counters -/

namespace Tally

/-- The counter that a finding with the status adds to, besides the total. -/
def counter (t : Tally) : Status → UInt64
  | .judged .pass => t.passed
  | .judged .exempt => t.excluded
  | .judged .missing => t.missing
  | .unreadable => t.unreadable

theorem total_add (t : Tally) (status : Status) : (t.add status).total = t.total + 1 := by
  rcases status with ⟨_ | _ | _⟩ | _ <;> rfl

theorem counter_add (t : Tally) (status other : Status) :
    (t.add status).counter other = t.counter other + if status = other then 1 else 0 := by
  rcases status with ⟨_ | _ | _⟩ | _ <;> rcases other with ⟨_ | _ | _⟩ | _ <;> simp [add, counter]

theorem total_foldl (findings : List Finding) (t : Tally) :
    (findings.foldl (fun t f => t.add f.status) t).total =
      t.total + UInt64.ofNat findings.length := by
  induction findings generalizing t with
  | nil => simp
  | cons f findings ih =>
      rw [List.foldl_cons, ih, total_add, List.length_cons, UInt64.ofNat_add]
      ac_rfl

theorem counter_foldl (findings : List Finding) (t : Tally) (status : Status) :
    (findings.foldl (fun t f => t.add f.status) t).counter status =
      t.counter status + UInt64.ofNat (Findings.count status findings) := by
  -- The induction is on the findings that are still to come, behind any counters so far.
  induction findings generalizing t with
  | nil => simp [Findings.count]
  | cons f findings ih =>
      have hone : UInt64.ofNat (if f.status = status then 1 else 0) =
          if f.status = status then 1 else 0 := by
        split <;> rfl
      rw [List.foldl_cons, ih, counter_add, Findings.count_cons, UInt64.ofNat_add, hone]
      ac_rfl

theorem total_ofFindings (findings : List Finding) :
    (ofFindings findings).total = UInt64.ofNat findings.length := by
  unfold ofFindings
  simp [total_foldl, zero]

theorem counter_ofFindings (findings : List Finding) (status : Status) :
    (ofFindings findings).counter status = UInt64.ofNat (Findings.count status findings) := by
  have hzero : zero.counter status = 0 := by
    rcases status with ⟨_ | _ | _⟩ | _ <;> rfl
  unfold ofFindings
  simp [counter_foldl, hzero]

theorem failureCount_ofFindings (findings : List Finding) :
    (ofFindings findings).failureCount =
      UInt64.ofNat (Findings.failingPaths findings).length := by
  have hmissing := counter_ofFindings findings (.judged .missing)
  have hunreadable := counter_ofFindings findings .unreadable
  rw [Findings.length_failingPaths, UInt64.ofNat_add, ← hmissing, ← hunreadable]
  rfl

end Tally

/-! ## All views -/

namespace Findings

/-- Counted in 64 bits, the total of a tally is the number of findings, the counter of each status
is the number of findings that have it, the four counters make up the total, and the failures are
as many as the paths that fail.  These are the paths of the findings whose status is that the notice
is missing or the file unreadable, in order.  There are such paths exactly if there is a failure,
if the exit code is 1 and if something is printed.  Of fewer than `2 ^ 64` findings no counter and
no sum of counters wraps around, and then the count of failures is positive in the same cases. -/
theorem views_agree (findings : List Finding) :
    let t := Tally.ofFindings findings
    let failing := failingPaths findings
    (t.total = UInt64.ofNat findings.length ∧
      (∀ status, t.counter status = UInt64.ofNat (count status findings)) ∧
      t.total = t.passed + t.excluded + t.missing + t.unreadable ∧
      t.failureCount = UInt64.ofNat failing.length) ∧
    failing = (findings.filter fun f =>
      f.status = .judged .missing ∨ f.status = .unreadable).map (·.path) ∧
    [anyFailure findings = true, failing ≠ [], exitCode findings = 1,
      Console.failureList failing ≠ ""].TFAE ∧
    (findings.length < UInt64.size →
      t.total.toNat = findings.length ∧
      (∀ status, (t.counter status).toNat = count status findings) ∧
      t.total.toNat = t.passed.toNat + t.excluded.toNat + t.missing.toNat + t.unreadable.toNat ∧
      t.failureCount.toNat = t.missing.toNat + t.unreadable.toNat ∧
      t.failureCount.toNat = failing.length ∧
      (0 < t.failureCount ↔ anyFailure findings = true)) := by
  intro t failing
  have htotal : t.total = UInt64.ofNat findings.length := Tally.total_ofFindings findings
  have hcounter (status : Status) : t.counter status = UInt64.ofNat (count status findings) :=
    Tally.counter_ofFindings findings status
  have hfailures : t.failureCount = UInt64.ofNat failing.length :=
    Tally.failureCount_ofFindings findings
  have hany : anyFailure findings ↔ failing ≠ [] := anyFailure_iff findings
  refine ⟨⟨htotal, hcounter, ?_, hfailures⟩, failingPaths_eq findings, ?_, ?_⟩
  · calc
      t.total = UInt64.ofNat findings.length := htotal
      _ = t.counter (.judged .pass) + t.counter (.judged .exempt) +
            t.counter (.judged .missing) + t.counter .unreadable := by
          rw [length_eq_sum_count]
          simp only [UInt64.ofNat_add, hcounter]
      _ = t.passed + t.excluded + t.missing + t.unreadable := rfl
  · tfae_have 1 ↔ 2 := hany
    tfae_have 3 ↔ 1 := exitCode_eq_one_iff findings
    tfae_have 4 ↔ 2 := not_congr (Console.failureList_eq_empty_iff failing)
    tfae_finish
  · intro hshort
    -- No count is larger than the number of findings, so 64 bits hold each of them.
    have hexact {n : Nat} (hn : n ≤ findings.length) : (UInt64.ofNat n).toNat = n :=
      UInt64.toNat_ofNat_of_lt' (Nat.lt_of_le_of_lt hn hshort)
    have hcounted (status : Status) : (t.counter status).toNat = count status findings := by
      rw [hcounter, hexact (count_le_length status findings)]
    have hpassed : t.passed.toNat = count (.judged .pass) findings := hcounted (.judged .pass)
    have hexcluded : t.excluded.toNat = count (.judged .exempt) findings :=
      hcounted (.judged .exempt)
    have hmissing : t.missing.toNat = count (.judged .missing) findings :=
      hcounted (.judged .missing)
    have hunreadable : t.unreadable.toNat = count .unreadable findings := hcounted .unreadable
    have htotalled : t.total.toNat = findings.length := by
      rw [htotal, hexact (Nat.le_refl _)]
    have hsum : failing.length = t.missing.toNat + t.unreadable.toNat := by
      rw [hmissing, hunreadable, length_failingPaths]
    have hfailed : t.failureCount.toNat = failing.length := by
      have hlength := length_eq_sum_count findings
      rw [hfailures, hexact (by omega)]
    refine ⟨htotalled, hcounted, ?_, hfailed.trans hsum, hfailed, ?_⟩
    · rw [htotalled, hpassed, hexcluded, hmissing, hunreadable]
      exact length_eq_sum_count findings
    · rw [UInt64.lt_iff_toNat_lt, hfailed, hany]
      exact List.length_pos_iff

/-- A missing notice, a notice that is there, and a file that cannot be read. -/
theorem views_agree_on_mixed :
    let findings := [Finding.judged "a.ts" .missing, Finding.judged "b.js" .pass,
      Finding.unreadable "gone.ts" "No such file or directory"]
    let t := Tally.ofFindings findings
    findings.length < UInt64.size ∧ t.total.toNat = 3 ∧ t.failureCount.toNat = 2 ∧
      (0 < t.failureCount ↔ anyFailure findings = true) ∧ anyFailure findings = true := by
  intro findings t
  have hshort : findings.length < UInt64.size := by decide
  rcases (views_agree findings).2.2.2 hshort with ⟨htotal, _, _, _, hfailures, hpositive⟩
  exact ⟨hshort, htotal, hfailures, hpositive, rfl⟩

end Findings
end HeaderAudit

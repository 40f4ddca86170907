/-!
# Newline — one spelling for every line break

A line may end in a line feed, in a carriage return, or in the pair of both.  Texts are compared
after every break has been made a single line feed.  This file defines:

* `unify` — two passes, pairs first and lone returns after them;
* `scan` — one pass from left to right that remembers whether the last character was a return.

`unify_eq_scan` says that the two agree, so no break is doubled or dropped between the passes.
-/

namespace HeaderAudit
namespace Newline

/-! ## Two passes -/

/-- Every return followed by a line feed becomes the line feed. -/
def joinPairs : List Char → List Char
  | '\r' :: '\n' :: rest => '\n' :: joinPairs rest
  | c :: rest => c :: joinPairs rest
  | [] => []

def replaceReturns (s : List Char) : List Char :=
  s.map fun c => if c = '\r' then '\n' else c

/-- A text without returns is left as it is. -/
def unify (s : List Char) : List Char :=
  if '\r' ∈ s then replaceReturns (joinPairs s) else s

/-! ## One pass -/

/-- `afterReturn` says that the break before has been written already, so that a line feed which
comes next belongs to it. -/
def scan : Bool → List Char → List Char
  | _, [] => []
  | afterReturn, c :: rest =>
      if c = '\r' then '\n' :: scan true rest
      else if c = '\n' ∧ afterReturn then scan false rest
      else c :: scan false rest

theorem scan_true_of_ne {c : Char} (rest : List Char) (h : c ≠ '\n') :
    scan true (c :: rest) = scan false (c :: rest) := by
  simp [scan, h]

theorem scan_eq_self {s : List Char} (h : '\r' ∉ s) : scan false s = s := by
  induction s with
  | nil => rfl
  | cons c rest ih =>
      have hc : c ≠ '\r' := fun heq => h (by simp [heq])
      have hrest : '\r' ∉ rest := fun hmem => h (List.mem_cons_of_mem _ hmem)
      simp [scan, hc, ih hrest]

theorem replaceReturns_joinPairs (s : List Char) :
    replaceReturns (joinPairs s) = scan false s := by
  fun_induction joinPairs s with
  | case1 rest ih =>
      simpa [replaceReturns, scan] using ih
  | case2 c rest hpair ih =>
      by_cases hc : c = '\r'
      -- The return was not joined with a line feed, so the next character is none.
      · subst hc
        have hnext : scan true rest = scan false rest := by
          cases rest with
          | nil => rfl
          | cons d tail =>
              exact scan_true_of_ne tail fun hd => hpair tail rfl (by rw [hd])
        rw [scan, if_pos rfl, hnext, ← ih]
        simp [replaceReturns]
      · rw [scan, if_neg hc, if_neg (by simp), ← ih]
        simp [replaceReturns, hc]
  | case3 => rfl

theorem unify_eq_scan (s : List Char) : unify s = scan false s := by
  unfold unify
  split
  · exact replaceReturns_joinPairs s
  · rename_i h
    exact (scan_eq_self h).symm

end Newline
end HeaderAudit

import HeaderAudit.Proofs.LineBreaks

/-!
# OnePass — two passes over the breaks do the work of one

Line breaks are unified in two passes, and a scan from left to right does the same at once.  So what
becomes of a text can be read off its parts, and a text may be cut before its breaks are unified:
everywhere but between a return and the line feed that belongs to it.  This file defines
`staysOnLine`, the characters that belong to no break.

`return_not_mem_scan` and `filter_scan` say what is left of a text, `scan_append_feed` what happens
at the one bad cut, and `unify_append_iff` that there is no other.  `unify_agrees_with_scan` puts
them together.
-/

namespace HeaderAudit
namespace Newline

/-! ## What is left -/

/-- The character belongs to no break. -/
def staysOnLine (c : Char) : Bool :=
  c ≠ '\n' && c ≠ '\r'

theorem return_not_mem_scan (afterReturn : Bool) (s : List Char) : '\r' ∉ scan afterReturn s := by
  fun_induction scan afterReturn s with
  | case1 => simp
  | case2 afterReturn rest ih => simp [ih]
  | case3 afterReturn c rest hreturn hpair ih => exact ih
  | case4 afterReturn c rest hreturn hpair ih =>
      have hc : '\r' ≠ c := fun heq => hreturn heq.symm
      simp [hc, ih]

/-- Only breaks are changed. -/
theorem filter_scan (afterReturn : Bool) (s : List Char) :
    (scan afterReturn s).filter staysOnLine = s.filter staysOnLine := by
  have hfeed : staysOnLine '\n' = false := rfl
  have hlone : staysOnLine '\r' = false := rfl
  fun_induction scan afterReturn s with
  | case1 => rfl
  | case2 afterReturn rest ih => simp [hfeed, hlone, ih]
  -- A line feed that is passed over has been written for the return in front of it.
  | case3 afterReturn c rest hreturn hpair ih => simp [hpair.1, hfeed, ih]
  | case4 afterReturn c rest hreturn hpair ih => simp [List.filter_cons, ih]

theorem unify_eq_self {s : List Char} (h : '\r' ∉ s) : unify s = s :=
  if_neg h

/-! ## Cuts -/

theorem endsInReturn_eq (afterReturn : Bool) (s : List Char) :
    endsInReturn afterReturn s = (s.getLast?.map (· == '\r')).getD afterReturn := by
  induction s generalizing afterReturn with
  | nil => rfl
  | cons c rest ih =>
      rw [endsInReturn, ih, List.getLast?_cons]
      cases rest.getLast? <;> rfl

theorem endsInReturn_iff (s : List Char) : endsInReturn false s ↔ s.getLast? = some '\r' := by
  rw [endsInReturn_eq]
  cases s.getLast? <;> simp

/-- The line feed behind a return has been written already. -/
theorem scan_append_feed {s : List Char} (h : s.getLast? = some '\r') (rest : List Char) :
    scan false (s ++ '\n' :: rest) = scan false s ++ scan false rest := by
  have hends : endsInReturn false s = true := (endsInReturn_iff s).2 h
  have hswallowed : scan true ('\n' :: rest) = scan false rest := by simp [scan]
  rw [scan_append, hends, hswallowed]

theorem unify_append_iff (s t : List Char) :
    unify (s ++ t) = unify s ++ unify t ↔ ¬ (s.getLast? = some '\r' ∧ t.head? = some '\n') := by
  simp only [unify_eq_scan]
  constructor
  · rintro hparts ⟨hreturn, hfeed⟩
    rcases List.head?_eq_some_iff.1 hfeed with ⟨rest, rfl⟩
    -- Read by itself, the line feed is a break of its own, and there is one break too many.
    have hown : scan false ('\n' :: rest) = '\n' :: scan false rest := by simp [scan]
    have hlengths := congrArg List.length hparts
    rw [scan_append_feed hreturn, hown] at hlengths
    simp at hlengths
  · intro hcut
    by_cases hfeed : t.head? = some '\n'
    · have hends : endsInReturn false s = false :=
        Bool.eq_false_iff.2 fun hends => hcut ⟨(endsInReturn_iff s).1 hends, hfeed⟩
      rw [scan_append, hends]
    · exact scan_append_of_head?_ne false s hfeed

/-- The two passes do the same to every text as the scan, which writes one line feed for a return
and the line feed behind it, for a return without one and for a line feed without a return in front,
and copies every other character.  So no return is left, a second time changes nothing, and the
characters that belong to no break stay in order.  Two parts of a text may be unified apart exactly
if the first does not end in a return or the second does not begin with a line feed. -/
theorem unify_agrees_with_scan :
    (∀ s, unify s = scan false s) ∧
      (∀ s, '\r' ∉ unify s) ∧
      (∀ s, unify (unify s) = unify s) ∧
      (∀ s, (unify s).filter staysOnLine = s.filter staysOnLine) ∧
      ∀ s t, unify (s ++ t) = unify s ++ unify t ↔
        ¬ (s.getLast? = some '\r' ∧ t.head? = some '\n') := by
  have hreturns (s : List Char) : '\r' ∉ unify s := by
    rw [unify_eq_scan]
    exact return_not_mem_scan false s
  refine ⟨unify_eq_scan, hreturns, ?_, ?_, unify_append_iff⟩
  · intro s
    exact unify_eq_self (hreturns s)
  · intro s
    rw [unify_eq_scan]
    exact filter_scan false s

example : unify ['a', '\r', '\r', '\n', '\n', '\r'] = ['a', '\n', '\n', '\n', '\n'] := by decide

end Newline
end HeaderAudit

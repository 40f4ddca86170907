/-!
# Pieces — what stands between separators

Cutting a list at a separator and putting its pieces together again are the library's `splitOn` and
`intercalate`.  This file adds that no piece holds the separator, and that pieces written behind
separators are found again.
-/

namespace HeaderAudit

variable {α : Type} [BEq α] [LawfulBEq α] {a : α} {s piece : List α}

theorem not_mem_of_mem_splitOn (h : piece ∈ s.splitOn a) : a ∉ piece := by
  induction s generalizing piece with
  | nil =>
      have hpiece : piece = [] := by simpa using h
      simp [hpiece]
  | cons b rest ih =>
      rw [List.splitOn_cons_eq_if_modifyHead] at h
      split at h
      · rcases List.mem_cons.1 h with rfl | hmem
        · simp
        · exact ih hmem
      · rename_i hb
        -- What is in front goes to the first piece of the rest; the other pieces stay.
        cases hpieces : rest.splitOn a with
        | nil => exact absurd hpieces (List.splitOn_ne_nil a rest)
        | cons first others =>
            rw [hpieces] at h ih
            rcases List.mem_cons.1 h with rfl | hmem
            · have hne : a ≠ b := fun heq => hb (by simp [heq])
              have hfirst : a ∉ first := ih (by simp)
              simp [hne, hfirst]
            · exact ih (List.mem_cons_of_mem first hmem)

/-- The first piece stands in front, and each other piece behind a separator. -/
theorem splitOn_append_flatMap {first : List α} {others : List (List α)} (hfirst : a ∉ first)
    (hothers : ∀ piece ∈ others, a ∉ piece) :
    (first ++ others.flatMap (a :: ·)).splitOn a = first :: others := by
  induction others generalizing first with
  | nil => simpa using List.splitOn_eq_singleton hfirst
  | cons piece rest ih =>
      have hpiece : a ∉ piece := hothers piece (by simp)
      have hrest : ∀ other ∈ rest, a ∉ other :=
        fun other hmem => hothers other (List.mem_cons_of_mem piece hmem)
      rw [List.flatMap_cons, List.cons_append,
        List.splitOn_append_cons_self_of_not_mem hfirst, ih hpiece hrest]

end HeaderAudit

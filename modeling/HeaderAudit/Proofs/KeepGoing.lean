import HeaderAudit.Proofs.RunFindings

/-!
# KeepGoing — the run that ends at an unreadable file, and the run that goes on

Both runs take the same arguments in the same order, and up to the first file that cannot be read
they find the same.  There the one goes on with a finding and the other ends with an error.
`stops_at_first_unreadable` reads the outcome of the second off the findings of the first.
-/

namespace HeaderAudit
namespace Findings

def firstUnreadable? (findings : List Finding) : Option Finding :=
  findings.find? fun f => f.status = .unreadable

theorem readable_of_firstUnreadable?_eq_none {findings : List Finding}
    (h : firstUnreadable? findings = none) : ∀ f ∈ findings, f.status ≠ .unreadable := by
  intro f hf
  have hnot := List.find?_eq_none.1 h f hf
  simpa using hnot

theorem exists_of_firstUnreadable?_eq_some {findings : List Finding} {f : Finding}
    (h : firstUnreadable? findings = some f) :
    f.status = .unreadable ∧ ∃ before after, findings = before ++ f :: after ∧
      ∀ g ∈ before, g.status ≠ .unreadable := by
  rcases List.find?_eq_some_iff_append.1 h with ⟨hf, before, after, hsplit, hbefore⟩
  refine ⟨by simpa using hf, before, after, hsplit, ?_⟩
  intro g hg
  simpa using hbefore g hg

end Findings

namespace Run

/-- Where the forwarded arguments are split, the arguments can be split. -/
theorem exists_of_forwarded_eq {everyStyle : Bool} {arguments before after : List String}
    {argument : String}
    (h : forwarded everyStyle arguments = before ++ argument :: after) :
    ∃ front rest, arguments = front ++ argument :: rest ∧ forwarded everyStyle front = before ∧
      forwards everyStyle (Path.ofString argument) := by
  rcases List.filter_eq_append_iff.1 h with ⟨front, back, rfl, hfront, hback⟩
  rcases List.filter_eq_cons_iff.1 hback with ⟨skipped, rest, rfl, hskipped, hargument, _⟩
  refine ⟨front ++ skipped, rest, by simp, ?_, hargument⟩
  have hnone : skipped.filter (fun a => forwards everyStyle (Path.ofString a)) = [] := by
    simpa using hskipped
  simpa [forwarded, hnone] using hfront

/-- A run that keeps going always ends with findings.  If none of them is about an unreadable file,
the run that does not keep going ends with the same findings.  Otherwise it ends with an error that
has the argument and the reason of the first such finding, whatever arguments stand behind it. -/
theorem stops_at_first_unreadable (read : Reader) (exemptions : Exemptions) (everyStyle : Bool)
    (arguments : List String) :
    ∃ findings,
      (ofArguments read exemptions ⟨everyStyle, true⟩ arguments).outcome = .ok findings ∧
      (Findings.firstUnreadable? findings = none →
        (ofArguments read exemptions ⟨everyStyle, false⟩ arguments).outcome = .ok findings) ∧
      ∀ f, Findings.firstUnreadable? findings = some f →
        ∃ u before after front rest,
          u.path = Path.ofString f.path ∧ f.error = some u.cause.message ∧
          findings = before ++ f :: after ∧ (∀ g ∈ before, g.status ≠ .unreadable) ∧
          arguments = front ++ f.path :: rest ∧
          (ofArguments read exemptions ⟨everyStyle, true⟩ front).outcome = .ok before ∧
          ∀ others, (ofArguments read exemptions ⟨everyStyle, false⟩
            (front ++ f.path :: others)).outcome = .error u := by
  have hkept : ∀ arguments, (ofArguments read exemptions ⟨everyStyle, true⟩ arguments).outcome =
      .ok ((forwarded everyStyle arguments).map (finding read exemptions)) := by
    intro arguments
    exact (outcome_ofArguments arguments).trans (outcome_through_eq_ok arguments (Or.inl rfl))
  refine ⟨_, hkept arguments, ?_, ?_⟩
  · intro hnone
    have hreadable := Findings.readable_of_firstUnreadable?_eq_none hnone
    apply (outcome_ofArguments arguments).trans
    apply outcome_through_eq_ok arguments
    apply Or.inr
    intro argument hargument
    exact hreadable _ (List.mem_map_of_mem hargument)
  · intro f hsome
    rcases Findings.exists_of_firstUnreadable?_eq_some hsome with
      ⟨hstatus, before, after, hsplit, hbefore⟩
    -- The split of the findings is carried back to the forwarded arguments, and from them to all.
    rcases List.map_eq_append_iff.1 hsplit with ⟨as, bs, hforwarded, rfl, hback⟩
    rcases List.map_eq_cons_iff.1 hback with ⟨argument, bs, rfl, rfl, rfl⟩
    rcases exists_of_forwarded_eq hforwarded with ⟨front, rest, rfl, rfl, hforwards⟩
    rcases exists_of_unreadable_finding hstatus with ⟨u, hexamine, hpath, herror⟩
    rw [path_finding]
    refine ⟨u, _, _, front, rest, hpath, herror, hsplit, hbefore, rfl, hkept front, ?_⟩
    have hfront : ∀ other ∈ forwarded everyStyle front,
        (finding read exemptions other).status ≠ .unreadable := by
      intro other hother
      exact hbefore _ (List.mem_map_of_mem hother)
    intro others
    apply (outcome_ofArguments _).trans
    exact outcome_through_of_error others rfl hfront hforwards hexamine

end Run
end HeaderAudit

import SerialAudit.Proofs.Audit.Provenance

/-! How often a pass finds each rule violated. A candidate that names a pair either gets a duplicate or
registers a pair, so the number of duplicates is fixed by what is registered, and the number for
every rule does not depend on the order of the candidates (`count_findings_perm`). -/
namespace SerialAudit
set_option autoImplicit false

/-- The diagnostics of a candidate whose pair, if it names one, is taken. -/
def Candidate.worst (c : Candidate) : List Diagnostic :=
  if c.pair?.isSome then [c.duplicate] else (check c .empty).diagnostics

theorem Candidate.worst_of_names {c : Candidate} {p : Registry.Pair} (h : c.Names p) :
    c.worst = [c.duplicate] := by
  rw [worst, pair?_of_names h]
  rfl

theorem Candidate.worst_of_not_passesOn {c : Candidate} {r : Registry} (h : ¬ c.PassesOn r) :
    (check c r).diagnostics = c.worst := by
  rcases c.settled_or_names with ⟨ds, hs⟩ | ⟨p, hp⟩
  · rw [worst, pair?_of_settled hs, check_of_settled hs, check_of_settled hs]
    rfl
  · rw [worst_of_names hp]
    rcases check_cases c r with ⟨-, -, -, hpass, -⟩ | ⟨-, -, hheld⟩
    · exact absurd hpass h
    · rw [check_of_names hp, if_pos (hheld p hp)]

namespace Registry

theorem size_after {r : Registry} (h : r.WellFormed) (cs : List Candidate) :
    (r.after cs).size = (r.taken cs).length + r.size := by
  rw [size_eq_length_toPairs, (h.toPairs_after cs).length_eq, List.length_append,
    size_eq_length_toPairs]

/-- Every candidate that registers a pair saves one duplicate. -/
theorem count_findings (rule : Rule) (r : Registry) (cs : List Candidate) :
    (r.findings cs).flatten.countP (·.rule = rule) +
        (if rule = .duplicateVersion then (r.taken cs).length else 0) =
      (cs.flatMap Candidate.worst).countP (·.rule = rule) := by
  induction cs generalizing r with
  | nil => simp [findings, taken]
  | cons c cs ih =>
    have hrest := ih (check c r).registry
    rw [findings, taken, List.flatten_cons, List.countP_append, List.flatMap_cons, List.countP_append]
    -- a candidate that passes has no diagnostic, and one pair more is taken
    by_cases hp : c.PassesOn r
    · rw [hp.2, Candidate.worst_of_names hp.names.1, if_pos hp, List.length_cons, ← hrest]
      by_cases hrule : rule = .duplicateVersion
      · simp [hrule, Candidate.duplicate]
        omega
      · have hne : ¬ Rule.duplicateVersion = rule := fun h => hrule h.symm
        simp [hrule, hne, Candidate.duplicate]
    · rw [Candidate.worst_of_not_passesOn hp, if_neg hp, ← hrest]
      omega

theorem count_findings_perm {r : Registry} (h : r.Reachable) {xs ys : List Candidate}
    (hperm : xs.Perm ys) (rule : Rule) :
    (r.findings xs).flatten.countP (·.rule = rule) =
      (r.findings ys).flatten.countP (·.rule = rule) := by
  have hsame : (r.after xs).toPairs.Perm (r.after ys).toPairs :=
    (h.after xs).wellFormed.toPairs_perm (h.after ys).wellFormed fun p => by
      rw [holds_after, holds_after]
      exact or_congr_right (exists_congr fun c => and_congr_left fun _ => hperm.mem_iff)
  have hlen : (r.taken xs).length = (r.taken ys).length := by
    have hx := size_after h.wellFormed xs
    have hy := size_after h.wellFormed ys
    rw [size_eq_length_toPairs, hsame.length_eq, ← size_eq_length_toPairs, hy] at hx
    omega
  have hx := count_findings rule r xs
  have hy := count_findings rule r ys
  rw [(hperm.flatMap_right _).countP_eq, ← hy, hlen] at hx
  exact Nat.add_right_cancel hx

end Registry
end SerialAudit

import SerialAudit.Proofs.Audit.Insertion
import SerialAudit.Proofs.Audit.Provenance

/-! The same candidates, checked again on the registry that they left.

* `Registry.afterPasses` : the registry after a number of passes over the same candidates.

One pass leaves a registry that holds all pairs of its candidates, and a pass on such a registry changes
nothing (`afterPasses_succ`). The first pass and any later one differ where the first registered a pair,
and nowhere else (`repetition_reports_duplicates`). -/
namespace SerialAudit
set_option autoImplicit false

open Registry (Pair)

namespace Registry

/-! ## Registries that hold all pairs -/

theorem Covers.take {r : Registry} {cs : List Candidate} (h : r.Covers cs) (n : Nat) :
    r.Covers (cs.take n) :=
  fun c hc => h c (List.mem_of_mem_take hc)

/-- On such a registry each candidate gets what it gets there alone. -/
theorem Covers.getElem?_findings {r : Registry} {cs : List Candidate} (h : r.Covers cs)
    (i : Fin cs.length) :
    (r.findings cs)[i.val]? = some (SerialAudit.check (cs.get i) r).diagnostics := by
  rw [Registry.getElem?_findings, (after_eq_self_iff r _).mpr (h.take i)]

/-! ## Passes over the same candidates -/

def afterPasses (r : Registry) (cs : List Candidate) : Nat → Registry
  | 0 => r
  | n + 1 => (r.afterPasses cs n).after cs

theorem afterPasses_succ (r : Registry) (cs : List Candidate) (n : Nat) :
    r.afterPasses cs (n + 1) = r.after cs := by
  induction n with
  | zero => rfl
  | succ n ih => rw [afterPasses, ih, (after_eq_self_iff _ cs).mpr (covers_after r cs)]

theorem holds_after_of_holds_take {r : Registry} {cs : List Candidate} {i : Fin cs.length} {p : Pair}
    (h : (r.after (cs.take i)).Holds p) : (r.after cs).Holds p := by
  rcases (holds_after_take r cs i p).mp h with h | ⟨j, -, hj⟩
  · exact (holds_after r cs p).mpr (Or.inl h)
  · exact (holds_after r cs p).mpr (Or.inr ⟨cs.get j, List.get_mem cs j, hj⟩)

theorem diagnostics_check_after_of_passed {r : Registry} {cs : List Candidate} {i : Fin cs.length}
    (h : r.Passed cs i) :
    (SerialAudit.check (cs.get i) (r.after cs)).diagnostics = [(cs.get i).duplicate] := by
  obtain ⟨hp, hfree, -⟩ := ((passed_iff r cs i).mp h).names
  have hheld := covers_after r cs _ (List.get_mem cs i) _ hp
  exact (diagnostics_check_of_names_of_not_holds hp hfree hheld).2

theorem diagnostics_check_after_of_not_passed {r : Registry} {cs : List Candidate} {i : Fin cs.length}
    (h : ¬ r.Passed cs i) :
    (SerialAudit.check (cs.get i) (r.after cs)).diagnostics =
      (SerialAudit.check (cs.get i) (r.after (cs.take i))).diagnostics := by
  by_contra hne
  obtain ⟨p, hp, hfree, -⟩ :=
    (diagnostics_check_ne_iff (fun _ => holds_after_of_holds_take) (cs.get i)).mp hne
  rcases check_cases (cs.get i) (r.after (cs.take i)) with ⟨-, -, -, hpass, -⟩ | ⟨-, -, hheld⟩
  · exact h ((passed_iff r cs i).mpr hpass)
  · exact hfree (hheld p hp)

/-- A second pass over the same candidates leaves the registry as the first left it. The candidates in
scope that passed are duplicates now, and all others get what they got. Every further pass finds the same
registry and gives the results of the second. -/
theorem repetition_reports_duplicates (r : Registry) (cs : List Candidate) :
    let first := r.findings cs
    let second := (r.after cs).findings cs
    (r.after cs).after cs = r.after cs ∧
    (∀ i : Fin cs.length, r.Passed cs i → second[i.val]? = some [(cs.get i).duplicate]) ∧
    (∀ i : Fin cs.length, ¬ r.Passed cs i → second[i.val]? = first[i.val]?) ∧
    ∀ n, r.afterPasses cs (n + 1) = r.after cs ∧ (r.afterPasses cs (n + 1)).findings cs = second := by
  intro first second
  have hcovers := covers_after r cs
  refine ⟨(after_eq_self_iff _ cs).mpr hcovers, fun i hi => ?_, fun i hi => ?_, fun n => ?_⟩
  · rw [hcovers.getElem?_findings, diagnostics_check_after_of_passed hi]
  · rw [hcovers.getElem?_findings, diagnostics_check_after_of_not_passed hi,
      ← Registry.getElem?_findings]
  · rw [afterPasses_succ]
    exact ⟨rfl, rfl⟩

end Registry
end SerialAudit

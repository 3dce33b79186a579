import SerialAudit.Proofs.Audit.Pool
import SerialAudit.Proofs.Audit.Tally
import SerialAudit.Proofs.Service.Call

/-! Calls that share a run, with the steps of their checks in any order: of the candidates that name a
free pair exactly one passes, whichever it is, and all else is the same in every order. -/
namespace SerialAudit
set_option autoImplicit false

namespace Pool

variable {cs : List Candidate} {r : Registry} {order : List (Fin cs.length)}
  {out : Fin cs.length → List Diagnostic}

/-- How often a rule is violated. -/
def tally (out : Fin cs.length → List Diagnostic) (rule : Rule) : Nat :=
  ((List.finRange cs.length).flatMap out).countP (·.rule = rule)

theorem tally_eq (hr : r.Reachable) (hperm : order.Perm (List.finRange cs.length))
    (hout : order.map out = r.findings (order.map cs.get)) (rule : Rule) :
    tally out rule = (r.findings cs).flatten.countP (·.rule = rule) := by
  have hflat : order.flatMap out = (r.findings (order.map cs.get)).flatten := by
    rw [← hout, List.flatMap_def]
  rw [tally, ← (hperm.flatMap_right out).countP_eq, hflat,
    Registry.count_findings_perm hr (map_get_perm hperm)]

end Pool

/-- The checks of some calls on a run, after the steps of a schedule. -/
def Call.ran (calls : List Call) (run : Run) (schedule : List (Fin (jobs calls).length)) :
    Pool (jobs calls) :=
  (Pool.start (jobs calls) run.registry).run schedule

open Call (jobs ran)

/-- Calls share a run, and their checks take their steps in the order of a schedule. Every schedule can
be brought to its end. At the end of each, of the candidates that name a pair that was free exactly
one has passed and the others are duplicates, and all that name a pair that was taken are duplicates;
the registry holds the pairs from before and those named. Between two schedules nothing differs but
which candidates have passed. -/
theorem exactly_one_winner {run : Run} (hr : run.registry.Reachable) (calls : List Call)
    (schedule : List (Fin (jobs calls).length)) :
    (∃ more out, (ran calls run (schedule ++ more)).Ends out) ∧
    ∀ out, (ran calls run schedule).Ends out →
      (∀ p, p ∉ run.registry.toPairs → (∃ i : Fin (jobs calls).length, ((jobs calls).get i).Names p) →
        ∃ i, ((jobs calls).get i).Names p ∧ out i = [] ∧
          ∀ j, j ≠ i → ((jobs calls).get j).Names p → out j = [((jobs calls).get j).duplicate]) ∧
      (∀ p ∈ run.registry.toPairs, ∀ i : Fin (jobs calls).length, ((jobs calls).get i).Names p →
        out i = [((jobs calls).get i).duplicate]) ∧
      (∀ p, p ∈ (ran calls run schedule).registry.toPairs ↔
        p ∈ run.registry.toPairs ∨ ∃ c ∈ jobs calls, c.Names p) ∧
      ∀ schedule' out', (ran calls run schedule').Ends out' →
        (∀ i : Fin (jobs calls).length, (∀ p, ¬ ((jobs calls).get i).Names p) → out i = out' i) ∧
        (∀ p, p ∈ (ran calls run schedule).registry.toPairs ↔
          p ∈ (ran calls run schedule').registry.toPairs) ∧
        ∀ rule, Pool.tally out rule = Pool.tally out' rule := by
  refine ⟨Pool.exists_ends _ schedule, fun out hends => ?_⟩
  have hpairs : ∀ {schedule out}, (ran calls run schedule).Ends out → ∀ p,
      p ∈ (ran calls run schedule).registry.toPairs ↔
        p ∈ run.registry.toPairs ∨ ∃ c ∈ jobs calls, c.Names p := by
    intro schedule out hends p
    obtain ⟨order, hperm, hreg, -⟩ := Pool.serial_of_ends hends
    rw [ran, hreg, (hr.after _).wellFormed.mem_toPairs, hr.wellFormed.mem_toPairs,
      Pool.holds_of_serial hperm]
  obtain ⟨order, hperm, -, hout⟩ := Pool.serial_of_ends hends
  refine ⟨fun p hp hex => ?_, fun p hp i hi => ?_, hpairs hends, fun schedule' out' hends' => ?_⟩
  · exact Pool.exists_winner hperm hout (fun h => hp ((hr.wellFormed.mem_toPairs p).mpr h)) hex
  · obtain ⟨k, rfl⟩ := Pool.exists_position hperm i
    exact (Pool.verdict_of_serial hout k).eq_duplicate hi
      (Or.inl ((hr.wellFormed.mem_toPairs p).mp hp))
  · obtain ⟨order', hperm', -, hout'⟩ := Pool.serial_of_ends hends'
    refine ⟨fun i hi => ?_, fun p => (hpairs hends p).trans (hpairs hends' p).symm, fun rule => ?_⟩
    · rw [Pool.eq_check_empty_of_serial hperm hout hi, Pool.eq_check_empty_of_serial hperm' hout' hi]
    · rw [Pool.tally_eq hr hperm hout, Pool.tally_eq hr hperm' hout']

/-- A check and an analysis name the same pair, and the analysis registers it first. -/
theorem exactly_one_winner_of_check_and_analysis :
    let rules : Rulebook := ⟨Rule.all.map fun rule => ⟨rule, "D", "T", "M", .error, "C", true⟩⟩
    let calls := [.check (.ofPair "A" "x" 1),
      .analyze ⟨⟨"rules", some rules⟩, 4⟩ .absent [.ofPair "B" "x" 1, .ofPair "C" "x" 0]]
    let run : Run := ⟨"r", (Registry.empty.register "x" 0).2⟩
    let a : Fin (jobs calls).length := ⟨0, by decide⟩
    let b : Fin (jobs calls).length := ⟨1, by decide⟩
    let c : Fin (jobs calls).length := ⟨2, by decide⟩
    let schedule := [a, b, c, c, b, a]
    let out := fun i => if i = b then [] else [((jobs calls).get i).duplicate]
    run.registry.Reachable ∧ (ran calls run schedule).Ends out ∧
      ∃ i, ((jobs calls).get i).Names ("x", 1) ∧ out i = [] ∧
        ∀ j, j ≠ i → ((jobs calls).get j).Names ("x", 1) → out j = [((jobs calls).get j).duplicate] := by
  intro rules calls run a b c schedule out
  have hr : run.registry.Reachable := .register .empty ("x", 0)
  have hends : (ran calls run schedule).Ends out := by
    unfold Pool.Ends
    decide +kernel
  have hfree : ("x", 1) ∉ run.registry.toPairs := by decide +kernel
  exact ⟨hr, hends, ((exactly_one_winner hr calls schedule).2 out hends).1 ("x", 1) hfree
    ⟨b, by decide +kernel⟩⟩

end SerialAudit

import SerialAudit.Proofs.Audit.Pool
import SerialAudit.Proofs.Service.Call
import SerialAudit.Tools

/-! Analyses whose workers take the steps of the checks in any order.

* `Schedule` : the order of the steps, by the places of the candidates;
* `Pool.finished` : the checks of some candidates, after the steps of a schedule and then to their end;
* `Conclusion` : what an analysis gives back, apart from its log;
* `Service.concludeBy`, `Tool.callBy` : an analysis and the call of a tool, by a schedule.

The steps may be taken as in any pool: all checks come to their end (`ends_finished`). By the empty
schedule, which is that of a single worker, the candidates are checked in turn, so that an analysis
is `Service.analyze` and a call `Tool.call` (`concludeBy_nil`, `callBy_nil`). -/
namespace SerialAudit
set_option autoImplicit false

/-- The places of the candidates whose checks take the next steps; steps of no candidate are left out. -/
abbrev Schedule := List Nat

def Schedule.steps (schedule : Schedule) (n : Nat) : List (Fin n) :=
  schedule.filterMap fun k => if h : k < n then some ⟨k, h⟩ else none

def Stage.diagnostics : Stage → List Diagnostic
  | .done ds => ds
  | _ => []

namespace Pool

variable {cs : List Candidate}

def inTurn (is : List (Fin cs.length)) : List (Fin cs.length) := is.flatMap fun i => [i, i]

def finished (cs : List Candidate) (r : Registry) (schedule : Schedule) : Pool cs :=
  (start cs r).run (schedule.steps cs.length ++ inTurn (List.finRange cs.length))

def results (s : Pool cs) : List (Candidate × List Diagnostic) :=
  cs.zip ((List.finRange cs.length).map fun i => (s.stage i).diagnostics)

theorem ends_finished (cs : List Candidate) (r : Registry) (schedule : Schedule) :
    (finished cs r schedule).Ends fun i => ((finished cs r schedule).stage i).diagnostics := by
  intro i
  have hdone : ∃ ds, (finished cs r schedule).stage i = .done ds := by
    rw [finished, run_append]
    exact exists_done_run _ _ (List.mem_finRange i)
  obtain ⟨ds, hds⟩ := hdone
  simp only [hds, Stage.diagnostics]

/-- Checks that have not begun, made in turn, are a pass over their candidates. -/
theorem run_inTurn {s : Pool cs} {is : List (Fin cs.length)} (hnodup : is.Nodup)
    (hwaiting : ∀ i ∈ is, s.stage i = .waiting) :
    (s.run (inTurn is)).registry = s.registry.after (is.map cs.get) ∧
      is.map (s.run (inTurn is)).stage = (s.registry.findings (is.map cs.get)).map .done ∧
      ∀ j ∉ is, (s.run (inTurn is)).stage j = s.stage j := by
  induction is generalizing s with
  | nil => exact ⟨rfl, rfl, fun _ _ => rfl⟩
  | cons i is ih =>
    obtain ⟨hi, hrest⟩ := List.nodup_cons.mp hnodup
    have hfirst := step_step_of_waiting (hwaiting i List.mem_cons_self)
    have hne : ∀ j ∈ is, j ≠ i := fun j hj he => hi (he ▸ hj)
    have hrun : s.run (inTurn (i :: is)) = ((s.step i).step i).run (inTurn is) := rfl
    rw [hrun, hfirst]
    obtain ⟨hreg, hstages, hothers⟩ := ih hrest fun j hj => by
      rw [stage_set_of_ne s (hne j hj)]
      exact hwaiting j (List.mem_cons_of_mem i hj)
    refine ⟨hreg, ?_, fun j hj => ?_⟩
    · rw [List.map_cons, hstages, hothers i hi, stage_set_self]
      rfl
    · rw [hothers j fun h => hj (List.mem_cons_of_mem i h)]
      exact stage_set_of_ne s (List.ne_of_not_mem_cons hj) _ _

theorem finished_nil (cs : List Candidate) (r : Registry) :
    (finished cs r []).registry = r.after cs ∧ (finished cs r []).results = cs.zip (r.findings cs) := by
  obtain ⟨hreg, hstages, -⟩ := run_inTurn (s := start cs r) (List.nodup_finRange cs.length)
    fun _ _ => rfl
  rw [List.map_get_finRange] at hreg hstages
  refine ⟨hreg, congrArg cs.zip ?_⟩
  calc (List.finRange cs.length).map (fun i => ((finished cs r []).stage i).diagnostics)
      = ((List.finRange cs.length).map (finished cs r []).stage).map Stage.diagnostics := by
        rw [List.map_map]
        rfl
    _ = ((r.findings cs).map Stage.done).map Stage.diagnostics := congrArg _ hstages
    _ = r.findings cs := by
        rw [List.map_map]
        exact List.map_id _

end Pool

/-! ## Analyses -/

structure Conclusion where
  outcome : Except ServiceFault Report
  service : Service
  run : Run

def Analysis.conclusion (a : Analysis) : Conclusion := ⟨a.outcome, a.service, a.run⟩

namespace Service

def concludeBy (schedule : Schedule) (s : Service) (folder : Folder) (run : Run)
    (cs : List Candidate) : Conclusion :=
  match s.catalog.load folder with
  | .error fault => ⟨.error (.catalog (.load fault)), s, run⟩
  | .ok b =>
    if s.workers < 1 then ⟨.error .noWorkers, s.keeping b, run⟩
    else
      let done := Pool.finished cs run.registry schedule
      let run : Run := ⟨run.id, done.registry⟩
      ⟨reportOn b run cs.length done.results, s.keeping b, run⟩

theorem concludeBy_nil (s : Service) (folder : Folder) (run : Run) (cs : List Candidate) :
    s.concludeBy [] folder run cs = (s.analyze folder run cs).conclusion := by
  cases hload : s.catalog.load folder with
  | error fault => rw [concludeBy, analyze, hload]; rfl
  | ok b =>
    by_cases hw : s.workers < 1
    · simp only [concludeBy, analyze, hload, hw, if_true]
      rfl
    · obtain ⟨hreg, hresults⟩ := Pool.finished_nil cs run.registry
      have hrun : (⟨run.id, run.registry.after cs⟩ : Run) = (run.checkAll cs).run := by
        rw [← Run.registry_checkAll, ← run.id_run_checkAll cs]
      simp only [concludeBy, hload, hw, if_false]
      rw [analyze_of_load hload hw, Analysis.conclusion, outcome_analyzeBy, service_analyzeBy,
        run_analyzeBy, hresults, hreg, hrun, Run.results_checkAll]

end Service

/-! ## Calls of tools -/

namespace Tool

def answerBy (schedule : Schedule) (s : Service) (folder : Folder) (fresh : String)
    (candidates : List Datum) (write : Report → List (String × Datum)) : Reply × Service :=
  match Candidate.readAll candidates with
  | .error e => (.refusal "InvalidCandidateError" e.message, s)
  | .ok cs =>
    let a := s.concludeBy schedule folder (Run.start none fresh) cs
    (reply s.catalog.directory write a.outcome, a.service)

def callBy (schedule : Schedule) (t : Tool) (s : Service) (folder : Folder) (fresh : String) :
    Reply × Service :=
  match t with
  | analyzeClasses candidates => answerBy schedule s folder fresh candidates Report.fields
  | checkClass candidate => answerBy schedule s folder fresh [candidate] verdictFields
  | getRules => getRules.call s folder fresh

theorem answerBy_nil (s : Service) (folder : Folder) (fresh : String) (candidates : List Datum)
    (write : Report → List (String × Datum)) :
    answerBy [] s folder fresh candidates write = analyze s folder fresh candidates write := by
  rw [answerBy, analyze]
  cases Candidate.readAll candidates with
  | error e => rfl
  | ok cs => simp only [Service.concludeBy_nil]; rfl

theorem callBy_nil (t : Tool) (s : Service) (folder : Folder) (fresh : String) :
    t.callBy [] s folder fresh = t.call s folder fresh := by
  cases t with
  | analyzeClasses candidates => exact answerBy_nil ..
  | checkClass candidate => exact answerBy_nil ..
  | getRules => rfl

end Tool
end SerialAudit

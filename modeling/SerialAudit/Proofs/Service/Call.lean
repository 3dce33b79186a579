import SerialAudit.Proofs.Audit.Pass
import SerialAudit.Service

/-! The calls on a run and the candidates that they check.

* `Service.admitted` : the candidates that an analysis gets to check;
* `Service.keeping` : a service with some rules that it has loaded;
* `Service.WorksBy` : a service with some rules and one worker;
* `Call`, `Call.candidates` : a call on a run, and the candidates that it checks;
* `Call.perform` : the run after a call that is not interrupted;
* `Call.jobs` : the candidates of some calls, call by call.

An analysis changes its run only by checking the candidates that it admits (`run_analyze`). -/
namespace SerialAudit
set_option autoImplicit false

namespace Service

/-- An analysis without rules or without workers checks no candidate. -/
def admitted (s : Service) (folder : Folder) (cs : List Candidate) : List Candidate :=
  match s.catalog.load folder with
  | .error _ => []
  | .ok _ => if s.workers < 1 then [] else cs

theorem run_analyzeBy (b : Rulebook) (s : Service) (run : Run) (cs : List Candidate) :
    (s.analyzeBy b run cs).run = (run.checkAll cs).run := by
  rw [analyzeBy]
  split <;> rfl

/-- The report on a run in which some candidates had these results, or what keeps it from being made. -/
def reportOn (b : Rulebook) (run : Run) (checked : Nat) (results : List (Candidate × List Diagnostic)) :
    Except ServiceFault Report :=
  match b.formatAll results with
  | .error fault => .error (.catalog fault)
  | .ok ds => .ok (report run checked ds)

theorem outcome_analyzeBy (b : Rulebook) (s : Service) (run : Run) (cs : List Candidate) :
    (s.analyzeBy b run cs).outcome =
      reportOn b (run.checkAll cs).run cs.length (run.checkAll cs).results := by
  rw [analyzeBy, reportOn]
  cases b.formatAll (run.checkAll cs).results <;> rfl

theorem service_analyzeBy (b : Rulebook) (s : Service) (run : Run) (cs : List Candidate) :
    (s.analyzeBy b run cs).service = s := by
  rw [analyzeBy]
  cases b.formatAll (run.checkAll cs).results <;> rfl

/-- A service that keeps these rules. -/
def keeping (s : Service) (b : Rulebook) : Service :=
  { s with catalog := { s.catalog with rulebook := some b } }

theorem analyze_of_load {s : Service} {folder : Folder} {b : Rulebook}
    (hload : s.catalog.load folder = .ok b) (hw : ¬ s.workers < 1) (run : Run)
    (cs : List Candidate) : s.analyze folder run cs = (s.keeping b).analyzeBy b run cs := by
  rw [analyze, hload]
  exact if_neg hw

theorem reportOn_eq_ok_iff {b : Rulebook} {run : Run} {checked : Nat}
    {results : List (Candidate × List Diagnostic)} {r : Report} :
    reportOn b run checked results = .ok r ↔
      ∃ xs, b.formatAll results = .ok xs ∧ report run checked xs = r := by
  rw [reportOn]
  cases b.formatAll results <;> simp

theorem run_analyze (s : Service) (folder : Folder) (run : Run) (cs : List Candidate) :
    (s.analyze folder run cs).run = (run.checkAll (s.admitted folder cs)).run := by
  rw [analyze, admitted]
  cases s.catalog.load folder with
  | error fault => rfl
  | ok b =>
    by_cases hw : s.workers < 1
    · simp only [hw, if_true]
      rfl
    · simp only [hw, if_false]
      exact run_analyzeBy ..

/-! ### One worker -/

structure WorksBy (s : Service) (folder : Folder) (b : Rulebook) : Prop where
  rules : s.catalog.load folder = .ok b
  workers : s.workers = 1

section WorksBy

variable {s : Service} {folder : Folder} {b : Rulebook} (h : s.WorksBy folder b) (run : Run)
  (cs : List Candidate)

include h

theorem WorksBy.analyze_eq : s.analyze folder run cs = (s.keeping b).analyzeBy b run cs := by
  have hw : ¬ s.workers < 1 := by
    rw [h.workers]
    decide
  exact analyze_of_load h.rules hw run cs

theorem WorksBy.outcome_analyze :
    (s.analyze folder run cs).outcome =
      reportOn b (run.checkAll cs).run cs.length (cs.zip (run.registry.findings cs)) := by
  rw [h.analyze_eq, outcome_analyzeBy, Run.results_checkAll]

theorem WorksBy.run_analyze : (s.analyze folder run cs).run = (run.checkAll cs).run := by
  rw [h.analyze_eq, run_analyzeBy]

end WorksBy

end Service

/-- A call on a run: the check of a candidate, or the analysis of some candidates by a service. -/
inductive Call where
  | check (c : Candidate)
  | analyze (s : Service) (folder : Folder) (cs : List Candidate)

namespace Call

def candidates : Call → List Candidate
  | check c => [c]
  | analyze s folder cs => s.admitted folder cs

def perform (run : Run) : Call → Run
  | check c => (run.check c).run
  | analyze s folder cs => (s.analyze folder run cs).run

def jobs (calls : List Call) : List Candidate := calls.flatMap candidates

/-- Calls one after the other are a pass over their candidates. -/
theorem registry_foldl_perform (calls : List Call) (run : Run) :
    (calls.foldl perform run).registry = run.registry.after (jobs calls) := by
  induction calls generalizing run with
  | nil => rfl
  | cons call calls ih =>
    have hcall : (perform run call).registry = run.registry.after call.candidates := by
      cases call with
      | check c => rfl
      | analyze s folder cs => rw [perform, Service.run_analyze, Run.registry_checkAll, candidates]
    have hjobs : jobs (call :: calls) = call.candidates ++ jobs calls := List.flatMap_cons ..
    rw [List.foldl_cons, ih, hcall, hjobs, Registry.after_append]

end Call
end SerialAudit

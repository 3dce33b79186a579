import SerialAudit.Audit.Check

/-! Runs: analyses that share a registry. A run is checked against candidate by candidate.

* `Run` : the id of a run and the pairs registered in it;
* `Run.start` : a run with nothing registered;
* `Run.check` : the check of one candidate;
* `Run.checkAll` : the checks of several candidates in order. -/
namespace SerialAudit
set_option autoImplicit false

structure Run where
  id : String
  registry : Registry
  deriving DecidableEq, Repr

namespace Run

def start (id : Option String) (fresh : String) : Run :=
  ⟨if id.getD "" = "" then fresh else id.getD "", Registry.empty⟩

def startedLine (id : String) : Log.Line := Log.info ("Started analysis run " ++ id)

/-- The log line about the check of a candidate: its first finding, or that it passed. -/
def checkedLine (id name : String) : List Diagnostic → Log.Line
  | [] => Log.debug ("Run " ++ id ++ ": " ++ name ++ " passed")
  | d :: _ => Log.debug ("Run " ++ id ++ ": " ++ name ++ " -> " ++ d.rule.name)

structure Checked where
  diagnostics : List Diagnostic
  run : Run
  log : List Log.Line
  deriving DecidableEq, Repr

def check (r : Run) (c : Candidate) : Checked :=
  let o := SerialAudit.check c r.registry
  ⟨o.diagnostics, { r with registry := o.registry }, o.log ++ [checkedLine r.id c.name o.diagnostics]⟩

/-- What the checks of several candidates give back: the candidates with their diagnostics. -/
structure CheckedAll where
  results : List (Candidate × List Diagnostic)
  run : Run
  log : List Log.Line
  deriving DecidableEq, Repr

def checkAll (r : Run) : List Candidate → CheckedAll
  | [] => ⟨[], r, []⟩
  | c :: cs =>
    let first := r.check c
    let rest := first.run.checkAll cs
    ⟨(c, first.diagnostics) :: rest.results, rest.run, first.log ++ rest.log⟩

/-! ## Laws -/

@[simp] theorem id_check (r : Run) (c : Candidate) : (r.check c).run.id = r.id := rfl

theorem id_run_checkAll (r : Run) (cs : List Candidate) : (r.checkAll cs).run.id = r.id := by
  induction cs generalizing r with
  | nil => rfl
  | cons c cs ih => simp [checkAll, ih]

theorem checkAll_append (r : Run) (xs ys : List Candidate) :
    r.checkAll (xs ++ ys) =
      ⟨(r.checkAll xs).results ++ ((r.checkAll xs).run.checkAll ys).results,
        ((r.checkAll xs).run.checkAll ys).run,
        (r.checkAll xs).log ++ ((r.checkAll xs).run.checkAll ys).log⟩ := by
  induction xs generalizing r with
  | nil => simp [checkAll]
  | cons x xs ih => simp [checkAll, ih]

end Run
end SerialAudit

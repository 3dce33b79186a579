import SerialAudit.Rulebook.Catalog
import SerialAudit.Run

/-! The analysis service: checks lists of candidates and words what it finds. The rules are loaded
before anything is checked, and everything is checked before anything is worded, so an analysis
that fails at a wording has registered its candidates.

* `Service` : the catalog and the number of workers;
* `Rulebook.formatAll` : the wording of all diagnostics;
* `Analysis` : what an analysis gives back;
* `Service.analyze`, `Service.analyzeFresh` : the analysis in a run and in a run of its own. -/
namespace SerialAudit
set_option autoImplicit false

inductive ServiceFault where
  | catalog (fault : CatalogFault)
  | noWorkers
  deriving DecidableEq, Repr

def ServiceFault.message? (directory : String) : ServiceFault → Option String
  | catalog fault => fault.message? directory
  | noWorkers => none

namespace Rulebook

/-- The wording of the diagnostics of one candidate, without those of rules that are not enabled. -/
def formatEach (b : Rulebook) (location : Option String) :
    List Diagnostic → Except CatalogFault (List Reported)
  | [] => .ok []
  | d :: ds => do
    let first ← b.format d location
    let rest ← b.formatEach location ds
    .ok (first.toList ++ rest)

def formatAll (b : Rulebook) : List (Candidate × List Diagnostic) → Except CatalogFault (List Reported)
  | [] => .ok []
  | (c, ds) :: results => do
    let first ← b.formatEach c.location ds
    let rest ← b.formatAll results
    .ok (first ++ rest)

end Rulebook

structure Service where
  catalog : Catalog
  workers : Int
  deriving Repr

/-- What an analysis gives back, and what is left of the service and of the run. -/
structure Analysis where
  outcome : Except ServiceFault Report
  service : Service
  run : Run
  log : List Log.Line

namespace Service

def finishedLine (id : String) (checked reported : Nat) : Log.Line :=
  Log.info ("Analysis run " ++ id ++ " checked " ++ Text.decimal checked ++ " classes, " ++
    Text.decimal reported ++ " diagnostics")

def report (run : Run) (checked : Nat) (diagnostics : List Reported) : Report :=
  ⟨run.id, checked, diagnostics, run.registry.entries⟩

def analyzeBy (b : Rulebook) (s : Service) (run : Run) (cs : List Candidate) : Analysis :=
  let done := run.checkAll cs
  match b.formatAll done.results with
  | .error fault => ⟨.error (.catalog fault), s, done.run, done.log⟩
  | .ok ds =>
    ⟨.ok (report done.run cs.length ds), s, done.run,
      done.log ++ [finishedLine run.id cs.length ds.length]⟩

def analyze (s : Service) (folder : Folder) (run : Run) (cs : List Candidate) : Analysis :=
  match s.catalog.load folder with
  | .error fault => ⟨.error (.catalog (.load fault)), s, run, []⟩
  | .ok b =>
    let s := { s with catalog := { s.catalog with rulebook := some b } }
    if s.workers < 1 then ⟨.error .noWorkers, s, run, []⟩ else analyzeBy b s run cs

def analyzeFresh (s : Service) (folder : Folder) (fresh : String) (cs : List Candidate) : Analysis :=
  let a := s.analyze folder (Run.start none fresh) cs
  { a with log := Run.startedLine (Run.start none fresh).id :: a.log }

end Service
end SerialAudit

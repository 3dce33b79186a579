import SerialAudit.Proofs.Audit.Writable
import SerialAudit.Proofs.Service.Schedule

/-! Analyses whose checks may have no result.

* `Course` : what an analysis does not say about the way its checks go;
* `Course.checked` : the candidates whose checks are made, and have a result;
* `Service.attemptBy` : an analysis, which fails with the first check that has no result;
* `Datum.texts` : the texts inside a value;
* `Tool.replyBy` : the reply to a call of a tool, of which all texts have to be encoded.

An analysis hands out its checks in the order of the candidates and waits for their results in that order.
When it meets a check without a result it takes back those that have not begun and waits for the others. So
the checks that are made are those of some first candidates, and go on in any order. Where all candidates
can be written the analysis is that of the same schedule (`attemptBy_of_writable`), and so is the reply of a
tool (`replyBy_of_writable`). -/
namespace SerialAudit
set_option autoImplicit false

open Registry (Pair)

/-! ## Registries after a schedule -/

namespace Pool

variable (cs : List Candidate) (r : Registry) (schedule : Schedule)

theorem exists_order_finished :
    ∃ order : List (Fin cs.length), order.Perm (List.finRange cs.length) ∧
      (finished cs r schedule).registry = r.after (order.map cs.get) ∧
      order.map (fun i => ((finished cs r schedule).stage i).diagnostics) =
        r.findings (order.map cs.get) :=
  serial_of_ends (ends_finished cs r schedule)

theorem holds_finished (p : Pair) :
    (finished cs r schedule).registry.Holds p ↔ r.Holds p ∨ ∃ c ∈ cs, c.Names p := by
  obtain ⟨order, hperm, hreg, -⟩ := exists_order_finished cs r schedule
  rw [hreg, holds_of_serial hperm]

theorem registry_finished_eq_self_iff : (finished cs r schedule).registry = r ↔ r.Covers cs := by
  obtain ⟨order, hperm, hreg, -⟩ := exists_order_finished cs r schedule
  rw [hreg, Registry.after_eq_self_iff]
  simp only [Registry.Covers, (map_get_perm hperm).mem_iff]

variable {cs r}

/-- A candidate whose pair is held before is a duplicate in every order. -/
theorem diagnostics_finished_of_holds {i : Fin cs.length} {p : Pair} (hp : (cs.get i).Names p)
    (hheld : r.Holds p) : ((finished cs r schedule).stage i).diagnostics = [(cs.get i).duplicate] := by
  obtain ⟨order, hperm, -, hout⟩ := exists_order_finished cs r schedule
  obtain ⟨k, rfl⟩ := exists_position hperm i
  exact (verdict_of_serial hout k).eq_duplicate hp (Or.inl hheld)

/-- Of the candidates that name a pair which is free before, one passes in every order. -/
theorem exists_passing_finished {p : Pair} (hfree : ¬ r.Holds p) (hex : ∃ c ∈ cs, c.Names p) :
    ∃ i : Fin cs.length, (cs.get i).Names p ∧
      ((finished cs r schedule).stage i).diagnostics = [] := by
  obtain ⟨c, hc, hp⟩ := hex
  obtain ⟨order, hperm, -, hout⟩ := exists_order_finished cs r schedule
  obtain ⟨i, hi⟩ := List.mem_iff_get.mp hc
  obtain ⟨j, hj, hpass, -⟩ := exists_winner hperm hout hfree ⟨i, hi ▸ hp⟩
  exact ⟨j, hj, hpass⟩

end Pool

/-! ## Courses -/

/-- How many digits may be written, in which order the checks take their steps, and how many have begun at
least when the first without a result is met. -/
structure Course where
  limit : Option Nat
  schedule : Schedule
  begun : Nat

def Course.checked (k : Course) (cs : List Candidate) : List Candidate :=
  (cs.take (max (cs.findIdx (!·.Writable k.limit) + 1) k.begun)).filter (·.Writable k.limit)

theorem Course.checked_of_writable {k : Course} {cs : List Candidate}
    (h : ∀ c ∈ cs, c.Writable k.limit) : k.checked cs = cs := by
  have hnone : cs.findIdx (!·.Writable k.limit) = cs.length :=
    List.findIdx_eq_length.mpr fun c hc => by simp [h c hc]
  rw [checked, hnone, List.take_of_length_le (by omega)]
  exact List.filter_eq_self.mpr fun c hc => decide_eq_true (h c hc)

theorem Course.mem_of_mem_checked {k : Course} {cs : List Candidate} {c : Candidate}
    (h : c ∈ k.checked cs) : c ∈ cs :=
  List.mem_of_mem_take (List.mem_filter.mp h).1

/-! ## Analyses -/

inductive AnalysisFault where
  | service (fault : ServiceFault)
  | check (fault : CheckFault)
  deriving DecidableEq, Repr

structure Attempt where
  outcome : Except AnalysisFault Report
  service : Service
  run : Run

def Conclusion.attempt (c : Conclusion) : Attempt :=
  ⟨c.outcome.mapError .service, c.service, c.run⟩

namespace Service

def attemptBy (k : Course) (s : Service) (folder : Folder) (run : Run) (cs : List Candidate) : Attempt :=
  match s.catalog.load folder with
  | .error fault => ⟨.error (.service (.catalog (.load fault))), s, run⟩
  | .ok b =>
    if s.workers < 1 then ⟨.error (.service .noWorkers), s.keeping b, run⟩
    else
      let done := Pool.finished (k.checked cs) run.registry k.schedule
      let run : Run := ⟨run.id, done.registry⟩
      if ∀ c ∈ cs, c.Writable k.limit then
        ⟨(reportOn b run cs.length done.results).mapError .service, s.keeping b, run⟩
      else ⟨.error (.check .idTooLong), s.keeping b, run⟩

variable {k : Course} {s : Service} {folder : Folder} {run : Run} {cs : List Candidate} {b : Rulebook}

theorem attemptBy_of_load (hload : s.catalog.load folder = .ok b) (hw : ¬ s.workers < 1) :
    s.attemptBy k folder run cs =
      ⟨if ∀ c ∈ cs, c.Writable k.limit then
          (reportOn b ⟨run.id, (Pool.finished (k.checked cs) run.registry k.schedule).registry⟩ cs.length
            (Pool.finished (k.checked cs) run.registry k.schedule).results).mapError .service
        else .error (.check .idTooLong),
        s.keeping b, ⟨run.id, (Pool.finished (k.checked cs) run.registry k.schedule).registry⟩⟩ := by
  rw [attemptBy, hload]
  simp only [hw, if_false]
  split <;> rfl

theorem attemptBy_of_writable (h : ∀ c ∈ cs, c.Writable k.limit) :
    s.attemptBy k folder run cs = (s.concludeBy k.schedule folder run cs).attempt := by
  cases hload : s.catalog.load folder with
  | error fault => rw [attemptBy, concludeBy, hload]; rfl
  | ok b =>
    by_cases hw : s.workers < 1
    · simp only [attemptBy, concludeBy, hload, hw, if_true]
      rfl
    · rw [attemptBy_of_load hload hw, if_pos h, Course.checked_of_writable h]
      simp only [concludeBy, hload, hw, if_false]
      rfl

end Service

/-! ## Calls of tools -/

namespace Datum

mutual

def texts : Datum → List String
  | .text s => [s]
  | .list items => textsOfItems items
  | .record fields => textsOfFields fields
  | _ => []

def textsOfItems : List Datum → List String
  | [] => []
  | d :: ds => d.texts ++ textsOfItems ds

def textsOfFields : List (String × Datum) → List String
  | [] => []
  | (name, d) :: fields => name :: (d.texts ++ textsOfFields fields)

end

mutual

theorem any_texts (d : Datum) : d.texts.any Text.hasHalf = d.hasHalf := by
  cases d with
  | text s => simp [texts, hasHalf]
  | list items => rw [texts, hasHalf, any_textsOfItems]
  | record fields => rw [texts, hasHalf, any_textsOfFields]
  | _ => rfl

theorem any_textsOfItems (ds : List Datum) : (textsOfItems ds).any Text.hasHalf = haveHalf ds := by
  cases ds with
  | nil => rfl
  | cons d ds => rw [textsOfItems, haveHalf, List.any_append, any_texts, any_textsOfItems]

theorem any_textsOfFields (fields : List (String × Datum)) :
    (textsOfFields fields).any Text.hasHalf = fieldsHaveHalf fields := by
  cases fields with
  | nil => rfl
  | cons field fields =>
    obtain ⟨name, d⟩ := field
    rw [textsOfFields, fieldsHaveHalf, List.any_cons, List.any_append, any_texts, any_textsOfFields,
      Bool.or_assoc]

end

end Datum

namespace Tool

/-- The reply to a call with some outcome, given which texts can be encoded. A check without a result is
a fault that the user cannot mend. -/
def send {α : Type} (encodes : String → Bool) (directory : String)
    (write : α → List (String × Datum)) : Except AnalysisFault α → Reply
  | .ok a => if (Datum.record (write a)).texts.all encodes then .answer (write a) else .failure
  | .error (.service fault) => reply directory write (.error fault)
  | .error (.check _) => .failure

def sendAnalysis (encodes : String → Bool) (k : Course) (s : Service) (folder : Folder)
    (fresh : String) (candidates : List Datum) (write : Report → List (String × Datum)) : Reply :=
  match Candidate.readAll candidates with
  | .error e => .refusal "InvalidCandidateError" e.message
  | .ok cs =>
    send encodes s.catalog.directory write (s.attemptBy k folder (Run.start none fresh) cs).outcome

def replyBy (encodes : String → Bool) (k : Course) (t : Tool) (s : Service) (folder : Folder)
    (fresh : String) : Reply :=
  match t with
  | analyzeClasses candidates => sendAnalysis encodes k s folder fresh candidates Report.fields
  | checkClass candidate => sendAnalysis encodes k s folder fresh [candidate] verdictFields
  | getRules =>
    send encodes s.catalog.directory (fun ds => [("rules", Datum.list (ds.map Descriptor.toDatum))])
      ((s.catalog.descriptors folder).1.mapError fun fault => .service (.catalog fault))

theorem send_mapError {α : Type} (directory : String) (write : α → List (String × Datum))
    (outcome : Except ServiceFault α) :
    send (!Text.hasHalf ·) directory write (outcome.mapError .service) =
      reply directory write outcome := by
  cases outcome with
  | error fault => rfl
  | ok a =>
    have hwhole : (Datum.record (write a)).texts.all (!Text.hasHalf ·) =
        !(Datum.record (write a)).hasHalf := by
      rw [← Datum.any_texts, List.not_any_eq_all_not]
    rw [reply, Except.mapError, send, hwhole]
    cases (Datum.record (write a)).hasHalf <;> rfl

theorem sendAnalysis_of_writable {k : Course} {candidates : List Datum}
    (h : ∀ cs, Candidate.readAll candidates = .ok cs → ∀ c ∈ cs, c.Writable k.limit) (s : Service)
    (folder : Folder) (fresh : String) (write : Report → List (String × Datum)) :
    sendAnalysis (!Text.hasHalf ·) k s folder fresh candidates write =
      (answerBy k.schedule s folder fresh candidates write).1 := by
  rw [sendAnalysis, answerBy]
  cases hread : Candidate.readAll candidates with
  | error e => rfl
  | ok cs =>
    dsimp only
    rw [Service.attemptBy_of_writable (h cs hread)]
    exact send_mapError ..

/-- The classes that a call is about. -/
def candidates : Tool → List Datum
  | analyzeClasses candidates => candidates
  | checkClass candidate => [candidate]
  | getRules => []

theorem replyBy_of_writable {k : Course} {t : Tool}
    (h : ∀ cs, Candidate.readAll t.candidates = .ok cs → ∀ c ∈ cs, c.Writable k.limit) (s : Service)
    (folder : Folder) (fresh : String) :
    t.replyBy (!Text.hasHalf ·) k s folder fresh = (t.callBy k.schedule s folder fresh).1 := by
  cases t with
  | analyzeClasses candidates => exact sendAnalysis_of_writable h ..
  | checkClass candidate => exact sendAnalysis_of_writable h ..
  | getRules =>
    have hmapped : (s.catalog.descriptors folder).1.mapError
        (fun fault => AnalysisFault.service (.catalog fault)) =
          ((s.catalog.descriptors folder).1.mapError ServiceFault.catalog).mapError .service := by
      cases (s.catalog.descriptors folder).1 <;> rfl
    rw [replyBy, hmapped]
    exact send_mapError ..

end Tool
end SerialAudit

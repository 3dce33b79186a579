import SerialAudit.Proofs.Rulebook.Wording
import SerialAudit.Proofs.Service.Schedule

/-! A service and the runs that are started on it, through any sequence of operations.

* `Session` : a service and its runs, each under a name;
* `Session.Operation`, `Session.Answer` : what is done with a service, and what it gives;
* `Session.answers` : the answers to some operations in a row;
* `Service.setup` : what an analysis depends on, apart from its run;
* `Session.Alike` : sessions with one setup and the same runs under some names.

No operation changes the setup, though the first that needs the rules loads them (`setup_perform`), and
an operation on one run leaves the others as they are (`runs_perform_of_ne`). So alike sessions answer
alike (`Alike.perform`), and stay so when one of them does something with another run (`Alike.skip`). -/
namespace SerialAudit
set_option autoImplicit false

/-! ## Operations -/

/-- An id that is made up for a run: any text that can be encoded. -/
structure RunId where
  text : String
  encodable : Text.hasHalf text = false

structure Session where
  service : Service
  runs : Nat → Option Run

namespace Session

/-- The operations that start a run get its id. A run is addressed by a name; a name that is given again
stands for the new run from then on. -/
inductive Operation where
  | start (name : Nat) (id : RunId)
  | check (name : Nat) (c : Candidate)
  | analyze (name : Nat) (cs : List Candidate) (schedule : Schedule)
  | analyzeFresh (id : RunId) (cs : List Candidate) (schedule : Schedule)
  | call (t : Tool) (id : RunId) (schedule : Schedule)

def Operation.name? : Operation → Option Nat
  | start name _ | check name _ | analyze name _ _ => some name
  | analyzeFresh _ _ _ | call _ _ _ => none

def Operation.isOn (name : Nat) (op : Operation) : Bool := op.name? = some name

def Operation.isUnnamed (op : Operation) : Bool := op.name?.isNone

inductive Answer where
  | started (id : String)
  | checked (ds : List Diagnostic)
  | analyzed (outcome : Except ServiceFault Report)
  | replied (reply : Tool.Reply)
  | unknownRun

def fresh (directory : String) (workers : Int) : Session :=
  ⟨⟨.ofDirectory directory, workers⟩, fun _ => none⟩

def put (s : Session) (name : Nat) (run : Run) : Session :=
  { s with runs := Function.update s.runs name (some run) }

def perform (folder : Folder) (s : Session) : Operation → Answer × Session
  | .start name id => (.started (Run.start none id.text).id, s.put name (Run.start none id.text))
  | .check name c =>
    match s.runs name with
    | none => (.unknownRun, s)
    | some run => (.checked (run.check c).diagnostics, s.put name (run.check c).run)
  | .analyze name cs schedule =>
    match s.runs name with
    | none => (.unknownRun, s)
    | some run =>
      let a := s.service.concludeBy schedule folder run cs
      (.analyzed a.outcome, { s with service := a.service }.put name a.run)
  | .analyzeFresh id cs schedule =>
    let a := s.service.concludeBy schedule folder (Run.start none id.text) cs
    (.analyzed a.outcome, { s with service := a.service })
  | .call t id schedule =>
    let (reply, service) := t.callBy schedule s.service folder id.text
    (.replied reply, { s with service := service })

def answers (folder : Folder) (s : Session) : List Operation → List Answer
  | [] => []
  | op :: ops => (s.perform folder op).1 :: answers folder (s.perform folder op).2 ops

end Session

/-! ## Setups -/

structure Setup where
  directory : String
  workers : Int
  rules : Except LoadFault Rulebook

namespace Service

def setup (s : Service) (folder : Folder) : Setup :=
  ⟨s.catalog.directory, s.workers, s.catalog.load folder⟩

theorem setup_keeping {s : Service} {folder : Folder} {b : Rulebook}
    (h : s.catalog.load folder = .ok b) : (s.keeping b).setup folder = s.setup folder := by
  simp only [setup, keeping, h]
  rfl

theorem setup_concludeBy (schedule : Schedule) (s : Service) (folder : Folder) (run : Run)
    (cs : List Candidate) :
    (s.concludeBy schedule folder run cs).service.setup folder = s.setup folder := by
  unfold concludeBy
  split
  · rfl
  · next b hload =>
    split
    · exact setup_keeping hload
    · exact setup_keeping hload

theorem concludeBy_of_setup {s t : Service} {folder : Folder} (h : s.setup folder = t.setup folder)
    (schedule : Schedule) (run : Run) (cs : List Candidate) :
    (s.concludeBy schedule folder run cs).outcome = (t.concludeBy schedule folder run cs).outcome ∧
      (s.concludeBy schedule folder run cs).run = (t.concludeBy schedule folder run cs).run := by
  obtain ⟨-, hworkers, hload⟩ := Setup.mk.inj h
  simp only [concludeBy, hload, hworkers]
  cases t.catalog.load folder with
  | error fault => exact ⟨rfl, rfl⟩
  | ok b =>
    by_cases hw : t.workers < 1
    · simp only [hw, if_true, and_self]
    · simp only [hw, if_false, and_self]

end Service

namespace Tool

theorem setup_answerBy (schedule : Schedule) (s : Service) (folder : Folder) (fresh : String)
    (candidates : List Datum) (write : Report → List (String × Datum)) :
    (answerBy schedule s folder fresh candidates write).2.setup folder = s.setup folder := by
  unfold answerBy
  split
  · rfl
  · exact Service.setup_concludeBy ..

theorem setup_callBy (schedule : Schedule) (t : Tool) (s : Service) (folder : Folder)
    (fresh : String) : (t.callBy schedule s folder fresh).2.setup folder = s.setup folder := by
  cases t with
  | analyzeClasses candidates => exact setup_answerBy ..
  | checkClass candidate => exact setup_answerBy ..
  | getRules =>
    show ({ s with catalog := (s.catalog.descriptors folder).2 } : Service).setup folder = _
    cases hload : s.catalog.load folder with
    | error fault =>
      have hkept : (s.catalog.descriptors folder).2 = s.catalog := by
        rw [Catalog.descriptors, Catalog.use, hload]
      rw [hkept]
    | ok b =>
      rw [Catalog.descriptors, Catalog.use_of_load hload]
      exact Service.setup_keeping hload

theorem answerBy_of_setup {s t : Service} {folder : Folder} (h : s.setup folder = t.setup folder)
    (schedule : Schedule) (fresh : String) (candidates : List Datum)
    (write : Report → List (String × Datum)) :
    (answerBy schedule s folder fresh candidates write).1 =
      (answerBy schedule t folder fresh candidates write).1 := by
  have hdirectory : s.catalog.directory = t.catalog.directory := (Setup.mk.inj h).1
  unfold answerBy
  cases Candidate.readAll candidates with
  | error e => rfl
  | ok cs => simp only [(Service.concludeBy_of_setup h schedule _ cs).1, hdirectory]

theorem callBy_of_setup {s t : Service} {folder : Folder} (h : s.setup folder = t.setup folder)
    (schedule : Schedule) (x : Tool) (fresh : String) :
    (x.callBy schedule s folder fresh).1 = (x.callBy schedule t folder fresh).1 := by
  cases x with
  | analyzeClasses candidates => exact answerBy_of_setup h ..
  | checkClass candidate => exact answerBy_of_setup h ..
  | getRules =>
    obtain ⟨hdirectory, -, hload⟩ := Setup.mk.inj h
    simp only [callBy, call, Catalog.descriptors, Catalog.use, hload, hdirectory]
    cases t.catalog.load folder <;> rfl

end Tool

namespace Session

/-! ## Alike sessions -/

structure Alike (folder : Folder) (names : Nat → Prop) (s t : Session) : Prop where
  setup : s.service.setup folder = t.service.setup folder
  runs : ∀ name, names name → s.runs name = t.runs name

variable {folder : Folder} {names : Nat → Prop} {s t : Session}

theorem setup_perform (folder : Folder) (s : Session) (op : Operation) :
    (s.perform folder op).2.service.setup folder = s.service.setup folder := by
  cases op with
  | start name id => rfl
  | check name c =>
    simp only [perform]
    cases s.runs name <;> rfl
  | analyze name cs schedule =>
    simp only [perform]
    cases s.runs name with
    | none => rfl
    | some run => exact Service.setup_concludeBy ..
  | analyzeFresh id cs schedule => exact Service.setup_concludeBy ..
  | call x id schedule => exact Tool.setup_callBy ..

/-- An operation on one run leaves the runs with other names as they are. -/
theorem runs_perform_of_ne (folder : Folder) (s : Session) {op : Operation} {name : Nat}
    (h : op.name? ≠ some name) : (s.perform folder op).2.runs name = s.runs name := by
  have hne : ∀ other, op.name? = some other → name ≠ other := fun other hop he => h (he ▸ hop)
  cases op with
  | start other id => exact Function.update_of_ne (hne other rfl) ..
  | check other c =>
    simp only [perform]
    cases s.runs other with
    | none => rfl
    | some run => exact Function.update_of_ne (hne other rfl) ..
  | analyze other cs schedule =>
    simp only [perform]
    cases s.runs other with
    | none => rfl
    | some run => exact Function.update_of_ne (hne other rfl) ..
  | analyzeFresh id cs schedule => rfl
  | call x id schedule => rfl

theorem Alike.skip (h : Alike folder names s t) (op : Operation)
    (hop : ∀ name, op.name? = some name → ¬ names name) :
    Alike folder names (s.perform folder op).2 t where
  setup := (setup_perform folder s op).trans h.setup
  runs name hname := by
    rw [runs_perform_of_ne folder s fun he => hop name he hname]
    exact h.runs name hname

theorem Alike.put (h : Alike folder names s t) (name : Nat) (run : Run) :
    Alike folder names (s.put name run) (t.put name run) where
  setup := h.setup
  runs other hother := by
    by_cases hne : other = name
    · simp only [Session.put, hne, Function.update_self]
    · simp only [Session.put, Function.update_of_ne hne]
      exact h.runs other hother

theorem Alike.serve (h : Alike folder names s t) {a b : Service}
    (ha : a.setup folder = s.service.setup folder) (hb : b.setup folder = t.service.setup folder) :
    Alike folder names { s with service := a } { t with service := b } where
  setup := ha.trans (h.setup.trans hb.symm)
  runs := h.runs

theorem Alike.perform (h : Alike folder names s t) {op : Operation}
    (hop : ∀ name, op.name? = some name → names name) :
    (s.perform folder op).1 = (t.perform folder op).1 ∧
      Alike folder names (s.perform folder op).2 (t.perform folder op).2 := by
  cases op with
  | start name id => exact ⟨rfl, h.put name _⟩
  | check name c =>
    simp only [Session.perform, h.runs name (hop name rfl)]
    cases t.runs name with
    | none => exact ⟨rfl, h⟩
    | some run => exact ⟨rfl, h.put name _⟩
  | analyze name cs schedule =>
    simp only [Session.perform, h.runs name (hop name rfl)]
    cases t.runs name with
    | none => exact ⟨rfl, h⟩
    | some run =>
      obtain ⟨houtcome, hrun⟩ := Service.concludeBy_of_setup h.setup schedule run cs
      refine ⟨congrArg Answer.analyzed houtcome, ?_⟩
      simp only [hrun]
      exact (h.serve (Service.setup_concludeBy ..) (Service.setup_concludeBy ..)).put name _
  | analyzeFresh id cs schedule =>
    obtain ⟨houtcome, -⟩ := Service.concludeBy_of_setup h.setup schedule (Run.start none id.text) cs
    exact ⟨congrArg Answer.analyzed houtcome,
      h.serve (Service.setup_concludeBy ..) (Service.setup_concludeBy ..)⟩
  | call x id schedule =>
    exact ⟨congrArg Answer.replied (Tool.callBy_of_setup h.setup schedule x id.text),
      h.serve (Tool.setup_callBy ..) (Tool.setup_callBy ..)⟩

end Session
end SerialAudit

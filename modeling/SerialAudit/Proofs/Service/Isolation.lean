import SerialAudit.Proofs.Service.Session

/-! Runs of one service do not know of each other.

* `Session.answersTo` : the answers to those operations that are picked, out of all that are done;
* `Operation.anonymous`, `Answer.anonymous` : the same without the ids that were made up for runs.

The answers on one run are those of its own operations alone, and what is done on no run is answered as
if nothing had been done before (`runs_are_isolated`). The ids that runs get show in what is answered
and nowhere else (`anonymous_answers`). -/
namespace SerialAudit
set_option autoImplicit false

namespace Session

variable {folder : Folder} {s t : Session}

/-! ## The answers to some of the operations -/

/-- The answers to the operations that are picked, of all the operations in a row. -/
def answersTo (folder : Folder) (s : Session) (ops : List Operation) (pick : Operation → Bool) :
    List Answer :=
  ((ops.zip (s.answers folder ops)).filter fun x => pick x.1).map Prod.snd

theorem answersTo_cons_of_pos {op : Operation} {pick : Operation → Bool} (h : pick op = true)
    (ops : List Operation) :
    s.answersTo folder (op :: ops) pick =
      (s.perform folder op).1 :: (s.perform folder op).2.answersTo folder ops pick := by
  simp only [answersTo, answers, List.zip_cons_cons, List.filter_cons, h, if_true, List.map_cons]

theorem answersTo_cons_of_neg {op : Operation} {pick : Operation → Bool} (h : ¬ pick op = true)
    (ops : List Operation) :
    s.answersTo folder (op :: ops) pick = (s.perform folder op).2.answersTo folder ops pick := by
  simp only [answersTo, answers, List.zip_cons_cons, List.filter_cons, h]
  rfl

/-- Alike sessions answer the operations on one run alike, though the first is also given others. -/
theorem Alike.answersTo_isOn {name : Nat} (h : Alike folder (· = name) s t) (ops : List Operation) :
    s.answersTo folder ops (·.isOn name) = t.answers folder (ops.filter (·.isOn name)) := by
  induction ops generalizing s t with
  | nil => rfl
  | cons op ops ih =>
    by_cases hop : op.isOn name = true
    · obtain ⟨hanswer, hnext⟩ := h.perform fun other hother =>
        Option.some.inj (hother.symm.trans (of_decide_eq_true hop))
      rw [answersTo_cons_of_pos hop, List.filter_cons_of_pos hop, answers, hanswer, ih hnext]
    · rw [answersTo_cons_of_neg hop, List.filter_cons_of_neg hop]
      exact ih (h.skip op fun other hother he => hop (decide_eq_true (he ▸ hother)))

/-- What is done on no run is answered as in a session in which nothing else was done. -/
theorem Alike.answersTo_isUnnamed (h : Alike folder (fun _ => False) s t) (ops : List Operation) :
    s.answersTo folder ops (·.isUnnamed) =
      (ops.filter (·.isUnnamed)).flatMap fun op => t.answers folder [op] := by
  induction ops generalizing s with
  | nil => rfl
  | cons op ops ih =>
    have hrest := ih (h.skip op fun _ _ => id)
    by_cases hop : op.isUnnamed = true
    · have hanswer := (h.perform fun name hname =>
        absurd ((Option.isNone_iff_eq_none.mp hop).symm.trans hname) nofun).1
      rw [answersTo_cons_of_pos hop, List.filter_cons_of_pos hop, hrest, hanswer]
      rfl
    · rw [answersTo_cons_of_neg hop, List.filter_cons_of_neg hop, hrest]

end Session

/-! ## Without ids -/

def Report.anonymous (r : Report) : Report := { r with runId := "" }

def Run.anonymous (run : Run) : Run := { run with id := "" }

def RunId.blank : RunId := ⟨"", by decide⟩

theorem Run.anonymous_start (id : String) : (Run.start none id).anonymous = Run.start none "" := rfl

namespace Service

theorem reportOn_anonymous (b : Rulebook) (run : Run) (checked : Nat)
    (results : List (Candidate × List Diagnostic)) :
    reportOn b run.anonymous checked results =
      (reportOn b run checked results).map Report.anonymous := by
  rw [reportOn, reportOn]
  cases b.formatAll results <;> rfl

theorem runId_of_reportOn {b : Rulebook} {run : Run} {checked : Nat}
    {results : List (Candidate × List Diagnostic)} {r : Report}
    (h : reportOn b run checked results = .ok r) : r.runId = run.id := by
  rw [reportOn] at h
  cases hds : b.formatAll results with
  | error fault => rw [hds] at h; cases h
  | ok ds => rw [hds] at h; cases h; rfl

theorem concludeBy_anonymous (schedule : Schedule) (s : Service) (folder : Folder) (run : Run)
    (cs : List Candidate) :
    s.concludeBy schedule folder run.anonymous cs =
      ⟨(s.concludeBy schedule folder run cs).outcome.map Report.anonymous,
        (s.concludeBy schedule folder run cs).service,
        (s.concludeBy schedule folder run cs).run.anonymous⟩ := by
  unfold concludeBy
  cases s.catalog.load folder with
  | error fault => rfl
  | ok b =>
    by_cases hw : s.workers < 1
    · simp only [hw, if_true]
      rfl
    · simp only [hw, if_false]
      rw [← reportOn_anonymous]
      rfl

theorem runId_of_concludeBy {schedule : Schedule} {s : Service} {folder : Folder} {run : Run}
    {cs : List Candidate} {r : Report} (h : (s.concludeBy schedule folder run cs).outcome = .ok r) :
    r.runId = run.id := by
  unfold concludeBy at h
  cases hload : s.catalog.load folder with
  | error fault => rw [hload] at h; cases h
  | ok b =>
    simp only [hload] at h
    by_cases hw : s.workers < 1
    · rw [if_pos hw] at h; cases h
    · rw [if_neg hw] at h
      have hid := runId_of_reportOn h
      exact hid

end Service

namespace Tool

def Reply.anonymous : Reply → Reply
  | answer fields => .answer (fields.filter fun field => field.1 ≠ "run_id")
  | refusal name message => .refusal name message
  | failure => .failure

/-- Reports that differ in their ids are written alike, apart from the id. -/
def Discreet (write : Report → List (String × Datum)) : Prop :=
  ∀ directory r, Text.hasHalf r.runId = false →
    (reply directory write (.ok r)).anonymous = (reply directory write (.ok r.anonymous)).anonymous

theorem discreet_fields : Discreet Report.fields := by
  intro directory r hid
  have hhalf : (Datum.record r.fields).hasHalf = (Datum.record r.anonymous.fields).hasHalf := by
    simp only [Report.fields, Report.anonymous, Datum.hasHalf, Datum.fieldsHaveHalf, hid]
    rfl
  simp only [reply, hhalf]
  split
  · rfl
  · rfl

theorem discreet_verdictFields : Discreet verdictFields := fun _ _ _ => rfl

theorem anonymous_answerBy {write : Report → List (String × Datum)} (hwrite : Discreet write)
    (schedule : Schedule) (s : Service) (folder : Folder) (id : RunId) (candidates : List Datum) :
    (answerBy schedule s folder id.text candidates write).1.anonymous =
        (answerBy schedule s folder "" candidates write).1.anonymous ∧
      (answerBy schedule s folder id.text candidates write).2 =
        (answerBy schedule s folder "" candidates write).2 := by
  unfold answerBy
  cases Candidate.readAll candidates with
  | error e => exact ⟨rfl, rfl⟩
  | ok cs =>
    have hblank := s.concludeBy_anonymous schedule folder (Run.start none id.text) cs
    rw [Run.anonymous_start] at hblank
    simp only [hblank]
    refine ⟨?_, trivial⟩
    cases houtcome : (s.concludeBy schedule folder (Run.start none id.text) cs).outcome with
    | error fault => rfl
    | ok r =>
      have hid : r.runId = id.text := Service.runId_of_concludeBy houtcome
      exact hwrite _ r (hid ▸ id.encodable)

theorem anonymous_callBy (schedule : Schedule) (t : Tool) (s : Service) (folder : Folder)
    (id : RunId) :
    (t.callBy schedule s folder id.text).1.anonymous = (t.callBy schedule s folder "").1.anonymous ∧
      (t.callBy schedule s folder id.text).2 = (t.callBy schedule s folder "").2 := by
  cases t with
  | analyzeClasses candidates => exact anonymous_answerBy discreet_fields ..
  | checkClass candidate => exact anonymous_answerBy discreet_verdictFields ..
  | getRules => exact ⟨rfl, rfl⟩

end Tool

namespace Session

def anonymous (s : Session) : Session :=
  { s with runs := fun name => (s.runs name).map Run.anonymous }

def Operation.anonymous : Operation → Operation
  | start name _ => .start name .blank
  | analyzeFresh _ cs schedule => .analyzeFresh .blank cs schedule
  | call t _ schedule => .call t .blank schedule
  | op => op

def Answer.anonymous : Answer → Answer
  | started _ => .started ""
  | analyzed outcome => .analyzed (outcome.map Report.anonymous)
  | replied reply => .replied reply.anonymous
  | answer => answer

theorem anonymous_put (s : Session) (name : Nat) (run : Run) :
    (s.put name run).anonymous = s.anonymous.put name run.anonymous := by
  have hruns : (fun other => (Function.update s.runs name (some run) other).map Run.anonymous) =
      Function.update (fun other => (s.runs other).map Run.anonymous) name (some run.anonymous) :=
    funext fun other => Function.apply_update (fun _ => Option.map Run.anonymous) s.runs name _ other
  exact congrArg (Session.mk s.service) hruns

theorem service_anonymous (s : Session) : s.anonymous.service = s.service := rfl

theorem anonymous_analyzed (outcome : Except ServiceFault Report) :
    (Answer.analyzed (outcome.map Report.anonymous)).anonymous =
      (Answer.analyzed outcome).anonymous := by
  cases outcome with
  | error fault => rfl
  | ok r => rfl

theorem anonymous_perform (folder : Folder) (s : Session) (op : Operation) :
    (s.anonymous.perform folder op.anonymous).1.anonymous = (s.perform folder op).1.anonymous ∧
      (s.anonymous.perform folder op.anonymous).2 = (s.perform folder op).2.anonymous := by
  have hruns : ∀ name, s.anonymous.runs name = (s.runs name).map Run.anonymous := fun _ => rfl
  cases op with
  | start name id => exact ⟨rfl, (anonymous_put s name (Run.start none id.text)).symm⟩
  | check name c =>
    simp only [Operation.anonymous, perform, hruns]
    cases s.runs name with
    | none => exact ⟨rfl, rfl⟩
    | some run => exact ⟨rfl, (anonymous_put s name (run.check c).run).symm⟩
  | analyze name cs schedule =>
    simp only [Operation.anonymous, perform, hruns]
    cases s.runs name with
    | none => exact ⟨rfl, rfl⟩
    | some run =>
      have ha := s.service.concludeBy_anonymous schedule folder run cs
      simp only [Option.map_some, s.service_anonymous, ha]
      exact ⟨anonymous_analyzed _, (anonymous_put { s with service := _ } name _).symm⟩
  | analyzeFresh id cs schedule =>
    have ha := s.service.concludeBy_anonymous schedule folder (Run.start none id.text) cs
    rw [Run.anonymous_start] at ha
    simp only [Operation.anonymous, perform, s.service_anonymous, RunId.blank, ha]
    exact ⟨anonymous_analyzed _, rfl⟩
  | call x id schedule =>
    obtain ⟨hreply, hservice⟩ := x.anonymous_callBy schedule s.service folder id
    simp only [Operation.anonymous, perform, s.service_anonymous, RunId.blank, ← hservice]
    exact ⟨congrArg Answer.replied hreply.symm, rfl⟩

theorem anonymous_answers (folder : Folder) (s : Session) (ops : List Operation) :
    (s.anonymous.answers folder (ops.map Operation.anonymous)).map Answer.anonymous =
      (s.answers folder ops).map Answer.anonymous := by
  induction ops generalizing s with
  | nil => rfl
  | cons op ops ih =>
    obtain ⟨hanswer, hnext⟩ := anonymous_perform folder s op
    rw [List.map_cons, answers, answers, List.map_cons, List.map_cons, hanswer, hnext, ih]

/-! ## Isolation -/

/-- In whatever order the operations of several runs come, each run answers its own as if the others
had not been done, and what is done on no run is answered as if it came first. Ids that are made up
otherwise change no answer but by themselves. -/
theorem runs_are_isolated (directory : String) (workers : Int) (folder : Folder)
    (ops : List Operation) :
    (∀ name, (fresh directory workers).answersTo folder ops (·.isOn name) =
        (fresh directory workers).answers folder (ops.filter (·.isOn name))) ∧
      (fresh directory workers).answersTo folder ops (·.isUnnamed) =
        (ops.filter (·.isUnnamed)).flatMap (fun op => (fresh directory workers).answers folder [op]) ∧
      ((fresh directory workers).answers folder ops).map Answer.anonymous =
        ((fresh directory workers).answers folder (ops.map Operation.anonymous)).map
          Answer.anonymous := by
  have halike : ∀ names, Alike folder names (fresh directory workers) (fresh directory workers) :=
    fun _ => ⟨rfl, fun _ _ => rfl⟩
  exact ⟨fun name => (halike _).answersTo_isOn ops, (halike _).answersTo_isUnnamed ops,
    (anonymous_answers folder (fresh directory workers) ops).symm⟩

end Session
end SerialAudit

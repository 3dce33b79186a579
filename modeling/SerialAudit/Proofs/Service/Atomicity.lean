import SerialAudit.Proofs.Rulebook.Wording
import SerialAudit.Proofs.Service.Interruption

/-! Analyses without a report, and what they leave in their run.

* `Service.FailsLate` : an analysis registers a pair, and then meets a check without a result or cannot make
  the message of a diagnostic.

An analysis that finds no rules or no workers leaves its run as it was. One that fails at a check or at a
message has begun its checks by then, so the run is as it was only if they registered nothing. That holds
for every course that the checks may take (`failing_analysis_keeps_run_iff`). -/
namespace SerialAudit
set_option autoImplicit false

namespace Service

/-! ## Analyses that fail -/

variable {k : Course} {s : Service} {folder : Folder} {run : Run} {cs : List Candidate} {b : Rulebook}

structure FailsLate (k : Course) (s : Service) (folder : Folder) (run : Run) (cs : List Candidate) :
    Prop where
  workers : ¬ s.workers < 1
  registers : ¬ run.registry.Covers (k.checked cs)
  unreported : ∃ b, s.catalog.load folder = .ok b ∧ ((∃ c ∈ cs, ¬ c.Writable k.limit) ∨
    ∃ x ∈ (Pool.finished cs run.registry k.schedule).results, ∃ d ∈ x.2, b.Unwordable d)

theorem reportOn_fails_iff (hb : b.Complete) (checked : Nat)
    (results : List (Candidate × List Diagnostic)) :
    (∃ fault, reportOn b run checked results = .error fault) ↔
      ∃ x ∈ results, ∃ d ∈ x.2, b.Unwordable d := by
  have hall := b.formatAll_eq_error_iff results
  simp only [Rulebook.format_eq_error_iff hb] at hall
  rw [← hall, reportOn]
  cases b.formatAll results <;> simp

theorem exists_mapError_eq_error_iff (outcome : Except ServiceFault Report) :
    (∃ fault, outcome.mapError AnalysisFault.service = .error fault) ↔
      ∃ fault, outcome = .error fault := by
  cases outcome <;> simp [Except.mapError]

theorem attemptBy_fails_iff (hb : b.Complete) (hload : s.catalog.load folder = .ok b)
    (hw : ¬ s.workers < 1) :
    (∃ fault, (s.attemptBy k folder run cs).outcome = .error fault) ↔
      (∃ c ∈ cs, ¬ c.Writable k.limit) ∨
        ∃ x ∈ (Pool.finished cs run.registry k.schedule).results, ∃ d ∈ x.2, b.Unwordable d := by
  rw [attemptBy_of_load hload hw]
  by_cases hall : ∀ c ∈ cs, c.Writable k.limit
  · have hnone : ¬ ∃ c ∈ cs, ¬ c.Writable k.limit := fun ⟨c, hc, hno⟩ => hno (hall c hc)
    rw [if_pos hall, Course.checked_of_writable hall, or_iff_right hnone, ← reportOn_fails_iff hb]
    exact exists_mapError_eq_error_iff _
  · rw [if_neg hall]
    simp only [not_forall] at hall
    obtain ⟨c, hc, hno⟩ := hall
    exact iff_of_true ⟨_, rfl⟩ (Or.inl ⟨c, hc, hno⟩)

theorem run_attemptBy_eq_self_iff (hload : s.catalog.load folder = .ok b) (hw : ¬ s.workers < 1) :
    (s.attemptBy k folder run cs).run = run ↔ run.registry.Covers (k.checked cs) := by
  rw [attemptBy_of_load hload hw, ← Pool.registry_finished_eq_self_iff _ _ k.schedule]
  constructor
  · intro h
    exact congrArg Run.registry h
  · intro h
    exact congrArg (Run.mk run.id) h

theorem failsLate_iff (hs : s.catalog.Loaded) :
    (∃ fault, (s.attemptBy k folder run cs).outcome = .error fault) ∧
        (s.attemptBy k folder run cs).run ≠ run ↔ s.FailsLate k folder run cs := by
  cases hload : s.catalog.load folder with
  | error fault =>
    have hkept : (s.attemptBy k folder run cs).run = run := by rw [attemptBy, hload]
    refine ⟨fun h => absurd hkept h.2, fun h => ?_⟩
    obtain ⟨b, hb, -⟩ := h.unreported
    cases hload.symm.trans hb
  | ok b =>
    by_cases hw : s.workers < 1
    · have hkept : (s.attemptBy k folder run cs).run = run := by
        rw [attemptBy, hload]
        simp only [hw, if_true]
      exact ⟨fun h => absurd hkept h.2, fun h => absurd hw h.workers⟩
    · rw [attemptBy_fails_iff (hs.complete hload) hload hw, ne_eq, run_attemptBy_eq_self_iff hload hw]
      constructor
      · rintro ⟨hfails, hnew⟩
        exact ⟨hw, hnew, b, hload, hfails⟩
      · rintro ⟨-, hnew, b', hb', hfails⟩
        obtain rfl : b = b' := Except.ok.inj (hload.symm.trans hb')
        exact ⟨hfails, hnew⟩

theorem FailsLate.exists_fault (h : s.FailsLate k folder run cs) (hs : s.catalog.Loaded) :
    ∃ fault, (s.attemptBy k folder run cs).outcome = .error fault := ((failsLate_iff hs).mpr h).1

/-- An analysis that fails late has taken a free pair, with which a candidate would have passed in every
order, and which no candidate passes with any more. -/
theorem FailsLate.exists_taken (h : s.FailsLate k folder run cs) :
    ∃ p, ¬ run.registry.Holds p ∧ (s.attemptBy k folder run cs).run.registry.Holds p ∧ ∀ schedule,
      (∃ i : Fin cs.length, (cs.get i).Names p ∧
        ((Pool.finished cs run.registry schedule).stage i).diagnostics = []) ∧
      ∀ i : Fin cs.length, (cs.get i).Names p →
        ((Pool.finished cs (s.attemptBy k folder run cs).run.registry schedule).stage i).diagnostics =
          [(cs.get i).duplicate] := by
  obtain ⟨b, hload, -⟩ := h.unreported
  obtain ⟨c, hc, p, hp, hfree⟩ : ∃ c ∈ k.checked cs, ∃ p, c.Names p ∧ ¬ run.registry.Holds p := by
    have hnew := h.registers
    simp only [Registry.Covers, not_forall] at hnew
    obtain ⟨c, hc, p, hp, hfree⟩ := hnew
    exact ⟨c, hc, p, hp, hfree⟩
  have hheld : (s.attemptBy k folder run cs).run.registry.Holds p := by
    rw [attemptBy_of_load hload h.workers]
    exact (Pool.holds_finished ..).mpr (Or.inr ⟨c, hc, hp⟩)
  exact ⟨p, hfree, hheld, fun schedule =>
    ⟨Pool.exists_passing_finished schedule hfree ⟨c, Course.mem_of_mem_checked hc, hp⟩,
      fun i hi => Pool.diagnostics_finished_of_holds schedule hi hheld⟩⟩

/-- Whichever course the checks take, an analysis that fails without failing late has its run back as it
was, and repeated by any service gives what it would have given at first; without rules the service is as
it was, too. An analysis that fails late has not: it has taken a pair with which a candidate would have
passed at first, and repeated finds all that name this pair duplicates. -/
theorem failing_analysis_keeps_run_iff (hs : s.catalog.Loaded) (k : Course) (folder : Folder)
    (run : Run) (cs : List Candidate) :
    let a := s.attemptBy k folder run cs
    ((∀ fault, a.outcome = .error fault → a.run = run ∧
        ∀ (k' : Course) (s' : Service) (folder' : Folder),
          s'.attemptBy k' folder' a.run cs = s'.attemptBy k' folder' run cs) ↔
      ¬ s.FailsLate k folder run cs) ∧
    (∀ fault, s.catalog.load folder = .error fault →
      a.outcome = .error (.service (.catalog (.load fault))) ∧
        ∀ k' folder', a.service.attemptBy k' folder' a.run cs = s.attemptBy k' folder' run cs) ∧
    (s.FailsLate k folder run cs → (∃ fault, a.outcome = .error fault) ∧
      ∃ p, ¬ run.registry.Holds p ∧ a.run.registry.Holds p ∧ ∀ schedule,
        (∃ i : Fin cs.length, (cs.get i).Names p ∧
          ((Pool.finished cs run.registry schedule).stage i).diagnostics = []) ∧
        ∀ i : Fin cs.length, (cs.get i).Names p →
          ((Pool.finished cs a.run.registry schedule).stage i).diagnostics = [(cs.get i).duplicate]) := by
  intro a
  refine ⟨⟨fun h hlate => ?_, fun h fault hfault => ?_⟩, fun fault hload => ?_,
    fun hlate => ⟨hlate.exists_fault hs, hlate.exists_taken⟩⟩
  · obtain ⟨⟨fault, hfault⟩, hchanged⟩ := (failsLate_iff hs).mpr hlate
    exact hchanged (h fault hfault).1
  · have hkept : a.run = run := by
      by_contra hchanged
      exact h ((failsLate_iff hs).mp ⟨⟨fault, hfault⟩, hchanged⟩)
    exact ⟨hkept, fun k' s' folder' => by rw [hkept]⟩
  · have hattempt : a = ⟨.error (.service (.catalog (.load fault))), s, run⟩ := by
      show s.attemptBy k folder run cs = _
      rw [attemptBy, hload]
    rw [hattempt]
    exact ⟨rfl, fun k' folder' => rfl⟩

/-! ## An analysis that fails late -/

/-- Rules whose messages are all one opening brace. -/
def openBraceRules : Folder := .ofText
  ("rules:\n- &d \x7brule: missing_annotation, diagnostic_id: D, title: T, message_format: '\x7b', " ++
    "category: C\x7d\n- \x7b<<: *d, rule: missing_field\x7d\n- \x7b<<: *d, rule: invalid_field\x7d\n" ++
    "- \x7b<<: *d, rule: duplicate_version\x7d\n")

def openBraceRulebook : Rulebook :=
  ⟨Rule.all.map fun rule => ⟨rule, "D", "T", "\x7b", .error, "C", true⟩⟩

theorem load_openBraceRules : Rulebook.load openBraceRules = .ok openBraceRulebook := by
  decide +kernel

/-- The course of a single worker. -/
def singleCourse : Course := ⟨some Text.digitLimit, [], 0⟩

/-- An analysis that checks no candidate with a pair may fail at a message and be repeated. -/
theorem failing_analysis_keeps_run_of_unannotated :
    let s : Service := ⟨.ofDirectory "rules", 4⟩
    let run : Run := ⟨"r", .empty⟩
    let cs := [.ofName "B"]
    let a := s.attemptBy singleCourse openBraceRules run cs
    s.catalog.Loaded ∧ a.outcome = .error (.service (.catalog (.wording .malformed))) ∧ a.run = run ∧
      ∀ (k' : Course) (s' : Service) (folder' : Folder),
        s'.attemptBy k' folder' a.run cs = s'.attemptBy k' folder' run cs := by
  intro s run cs a
  have hs : s.catalog.Loaded := .ofDirectory "rules"
  have hload : s.catalog.load openBraceRules = .ok openBraceRulebook := load_openBraceRules
  have hfault : a.outcome = .error (.service (.catalog (.wording .malformed))) := by
    show (s.attemptBy singleCourse openBraceRules run cs).outcome = _
    rw [attemptBy, hload]
    decide +kernel
  have hcovers : run.registry.Covers (singleCourse.checked cs) := by
    intro c hc p hp
    obtain rfl := List.mem_singleton.mp (Course.mem_of_mem_checked hc)
    have hnone : (Candidate.ofName "B").pair? = none := by decide
    exact absurd ((Candidate.pair?_of_names hp).symm.trans hnone) (Option.some_ne_none p)
  exact ⟨hs, hfault, ((failing_analysis_keeps_run_iff hs singleCourse openBraceRules run cs).1.mpr
    fun hlate => hlate.registers hcovers) _ hfault⟩

/-- The rules load, so the first candidate is checked and registers its pair, and the message about the
second one is no template. -/
theorem failing_analysis_changes_run :
    let s : Service := ⟨.ofDirectory "rules", 4⟩
    let run : Run := ⟨"r", .empty⟩
    let a := s.attemptBy singleCourse openBraceRules run [.ofPair "A" "x" 1, .ofName "B"]
    a.outcome = .error (.service (.catalog (.wording .malformed))) ∧
      a.run.registry ≠ run.registry := by
  intro s run a
  have hload : s.catalog.load openBraceRules = .ok openBraceRulebook := load_openBraceRules
  have hattempt : a = s.attemptBy singleCourse openBraceRules run [.ofPair "A" "x" 1, .ofName "B"] := rfl
  rw [hattempt, attemptBy, hload]
  decide +kernel

end Service
end SerialAudit

import SerialAudit.Proofs.Service.Call

/-! Analyses that follow each other on one run: the analysis of a list is the analyses of its parts.

* `Report.join` : the report on two parts of a list, from the reports on each.

Checks, wordings and reports all fit together at the place where a list is cut
(`Run.checkAll_append`, `formatAll_append`, `outcome_analyze_append`). -/
namespace SerialAudit
set_option autoImplicit false

/-- The registry is reported as the second analysis leaves it. -/
def Report.join (first second : Report) : Report :=
  ⟨second.runId, first.checkedCount + second.checkedCount, first.diagnostics ++ second.diagnostics,
    second.registered⟩

theorem Rulebook.formatAll_append (b : Rulebook) (xs ys : List (Candidate × List Diagnostic)) :
    b.formatAll (xs ++ ys) = (do
      let first ← b.formatAll xs
      let second ← b.formatAll ys
      .ok (first ++ second)) := by
  induction xs with
  | nil =>
    rw [List.nil_append, formatAll]
    cases b.formatAll ys <;> rfl
  | cons x xs ih =>
    obtain ⟨c, ds⟩ := x
    rw [List.cons_append, formatAll, formatAll, ih]
    cases b.formatEach c.location ds with
    | error fault => rfl
    | ok here =>
      cases b.formatAll xs with
      | error fault => rfl
      | ok first =>
        cases b.formatAll ys with
        | error fault => rfl
        | ok second => exact congrArg Except.ok (List.append_assoc here first second).symm

namespace Service

theorem outcome_analyzeBy_append (b : Rulebook) (s : Service) (run : Run) (xs ys : List Candidate) :
    (s.analyzeBy b run (xs ++ ys)).outcome = (do
      let first ← (s.analyzeBy b run xs).outcome
      let second ← (s.analyzeBy b (run.checkAll xs).run ys).outcome
      .ok (first.join second)) := by
  simp only [outcome_analyzeBy, reportOn, Run.checkAll_append, Rulebook.formatAll_append]
  cases b.formatAll (run.checkAll xs).results with
  | error fault => rfl
  | ok first =>
    cases b.formatAll ((run.checkAll xs).run.checkAll ys).results with
    | error fault => rfl
    | ok second =>
      have hlength : ((xs ++ ys).length : Int) = xs.length + ys.length := by simp
      show Except.ok (report _ _ _) = Except.ok (Report.join (report _ _ _) (report _ _ _))
      simp only [report, Report.join, hlength]

/-- With loaded rules and one worker an analysis of two lists in one has a report exactly if the analyses
of the first and then of the second have, whatever happens to the rules file in between; it is the
report on both, and it leaves the run as they do. Else it fails as the first of them does that
fails. -/
theorem analyze_append {s : Service} {folder : Folder} {b : Rulebook}
    (hload : s.catalog.load folder = .ok b) (hw : s.workers = 1) (folder' : Folder) (run : Run)
    (xs ys : List Candidate) :
    let whole := s.analyze folder run (xs ++ ys)
    let first := s.analyze folder run xs
    let second := first.service.analyze folder' first.run ys
    ((∃ r, whole.outcome = .ok r) ↔
        (∃ r, first.outcome = .ok r) ∧ ∃ r, second.outcome = .ok r) ∧
      (∀ r r₁ r₂, whole.outcome = .ok r → first.outcome = .ok r₁ → second.outcome = .ok r₂ →
        r.diagnostics = r₁.diagnostics ++ r₂.diagnostics ∧
          r.checkedCount = r₁.checkedCount + r₂.checkedCount ∧ r.registered = r₂.registered) ∧
      (∀ fault, whole.outcome = .error fault ↔
        first.outcome = .error fault ∨
          (∃ r, first.outcome = .ok r) ∧ second.outcome = .error fault) ∧
      whole.run = second.run := by
  intro whole first second
  have hworkers : ¬ s.workers < 1 := by omega
  have hfirst : first = (s.keeping b).analyzeBy b run xs := analyze_of_load hload hworkers run xs
  have hsecond : second = (s.keeping b).analyzeBy b (run.checkAll xs).run ys := by
    have hkept : (s.keeping b).catalog.load folder' = .ok b := rfl
    show first.service.analyze folder' first.run ys = _
    rw [hfirst, service_analyzeBy, run_analyzeBy]
    exact analyze_of_load hkept hworkers _ ys
  have hwhole : whole = (s.keeping b).analyzeBy b run (xs ++ ys) :=
    analyze_of_load hload hworkers run (xs ++ ys)
  have hrun : whole.run = second.run := by
    rw [hwhole, hsecond, run_analyzeBy, run_analyzeBy, Run.checkAll_append]
  have houtcome : whole.outcome = (do
      let r₁ ← first.outcome
      let r₂ ← second.outcome
      .ok (r₁.join r₂)) := by
    rw [hwhole, hfirst, hsecond]
    exact outcome_analyzeBy_append b (s.keeping b) run xs ys
  rw [houtcome]
  cases first.outcome with
  | error fault => simp [bind, Except.bind, hrun]
  | ok r₁ =>
    cases second.outcome with
    | error fault => simp [bind, Except.bind, hrun]
    | ok r₂ => simp [bind, Except.bind, hrun, Report.join]

/-- The second list has a class with the pair of one in the first. -/
theorem analyze_append_of_duplicate :
    let b : Rulebook := ⟨Rule.all.map fun rule => ⟨rule, "D", "T", "M", .error, "C", true⟩⟩
    let s : Service := ⟨⟨"rules", some b⟩, 1⟩
    let run : Run := ⟨"r", .empty⟩
    let xs : List Candidate := [.ofPair "A" "x" 1, .ofName "B"]
    let ys : List Candidate := [.ofPair "E" "x" 1, .ofPair "F" "w" 0]
    let missing : Reported := ⟨"D", .missingAttribute, .error, "C", "M", "B", none, none⟩
    let duplicate : Reported := ⟨"D", .duplicateVersion, .error, "C", "M", "E", none, none⟩
    s.catalog.load .absent = .ok b ∧ s.workers = 1 ∧
      ∃ r, (s.analyze .absent run (xs ++ ys)).outcome = .ok r ∧
        r.diagnostics = [missing] ++ [duplicate] ∧ r.checkedCount = 2 + 2 ∧
          r.registered = [("x", [1]), ("w", [0])] := by
  intro b s run xs ys missing duplicate
  have hload : s.catalog.load .absent = .ok b := rfl
  have hfirst : (s.analyze .absent run xs).outcome = .ok ⟨"r", 2, [missing], [("x", [1])]⟩ := by
    decide +kernel
  have hsecond : ((s.analyze .absent run xs).service.analyze .directory
      (s.analyze .absent run xs).run ys).outcome =
        .ok ⟨"r", 2, [duplicate], [("x", [1]), ("w", [0])]⟩ := by
    decide +kernel
  obtain ⟨hsucceeds, hjoin, -, -⟩ := analyze_append hload rfl .directory run xs ys
  obtain ⟨r, hr⟩ := hsucceeds.mpr ⟨⟨_, hfirst⟩, ⟨_, hsecond⟩⟩
  exact ⟨hload, rfl, r, hr, hjoin r _ _ hr hfirst hsecond⟩

end Service
end SerialAudit

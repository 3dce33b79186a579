import SerialAudit.Proofs.Model.NormalForm
import SerialAudit.Proofs.Rulebook.Rendering
import SerialAudit.Proofs.Service.Schedule

/-! What is written is read back: the instances of the models, and the reports that a tool answers
with. -/
namespace SerialAudit
set_option autoImplicit false

namespace Tool

variable {schedule : Schedule} {items : List Datum} {s t : Service} {folder : Folder} {fresh : String}

theorem callBy_analyzeClasses : (analyzeClasses items).callBy schedule s folder fresh =
    answerBy schedule s folder fresh items Report.fields := rfl

theorem answerBy_of_outcome {cs : List Candidate} {r : Report} (write : Report → List (String × Datum))
    (hread : Candidate.readAll items = .ok cs)
    (houtcome : (s.concludeBy schedule folder (Run.start none fresh) cs).outcome = .ok r)
    (hwhole : (Datum.record (write r)).hasHalf = false) :
    (answerBy schedule s folder fresh items write).1 = .answer (write r) := by
  rw [answerBy, hread]
  dsimp only
  rw [houtcome, reply, hwhole]
  exact if_neg Bool.false_ne_true

/-- What is answered to the analysis of several classes is the report of that analysis, field by field. -/
theorem exists_report_of_answer {fields : List (String × Datum)}
    (h : (analyzeClasses items).callBy schedule s folder fresh = (.answer fields, t)) :
    ∃ cs r, Candidate.readAll items = .ok cs ∧
      (s.concludeBy schedule folder (Run.start none fresh) cs).outcome = .ok r ∧ fields = r.fields := by
  rw [callBy_analyzeClasses, answerBy] at h
  cases hread : Candidate.readAll items with
  | error e =>
    rw [hread] at h
    cases h
  | ok cs =>
    rw [hread] at h
    have hreply := congrArg Prod.fst h
    dsimp only at hreply
    cases houtcome : (s.concludeBy schedule folder (Run.start none fresh) cs).outcome with
    | error fault =>
      rw [houtcome, reply] at hreply
      split at hreply <;> cases hreply
    | ok r =>
      rw [houtcome, reply] at hreply
      split at hreply
      · cases hreply
      · exact ⟨cs, r, rfl, houtcome, (Reply.answer.inj hreply).symm⟩

end Tool

/-- Whatever is read as an instance of a model is read as the same instance from all its written forms.
Whatever the analysis of classes answers with, in whatever order its checks are made, is read as the report
of that analysis. -/
theorem written_instances_and_reports_are_read_back :
    (∀ (model : Model) (d : Datum) (i : Instance), Instance.read model d = .ok i →
      ∀ e, i.WrittenAs e → Instance.read model e = .ok i) ∧
    ∀ (schedule : Schedule) (items : List Datum) (s t : Service) (folder : Folder) (fresh : String)
      (fields : List (String × Datum)),
      (Tool.analyzeClasses items).callBy schedule s folder fresh = (.answer fields, t) →
      ∃ cs r, Candidate.readAll items = .ok cs ∧
        (s.concludeBy schedule folder (Run.start none fresh) cs).outcome = .ok r ∧
        Report.read (.record fields) = .ok r := by
  constructor
  · intro model d i h e he
    exact i.read_of_writtenAs h he
  · intro schedule items s t folder fresh fields h
    obtain ⟨cs, r, hread, houtcome, rfl⟩ := Tool.exists_report_of_answer h
    exact ⟨cs, r, hread, houtcome, Report.restores r⟩

/-- A candidate that is spelled loosely, and the report on two classes with one pair, of which the second is
checked first. -/
theorem written_instances_and_reports_are_read_back_of_loose_spelling :
    let d : Datum := .record [("is_generated", .text "oFF"), ("name", .text "A"),
      ("implemented_capabilities", .list [.text "IMigratable", .text "A", .text "IMigratable"])]
    let c : Candidate := ⟨"A", ["A", "IMigratable"], [], .class, false, none⟩
    let s : Service := ⟨⟨"rules", some ⟨Catalog.namedDescriptors⟩⟩, 2⟩
    let cs : List Candidate := [.ofPair "A" "x" 1, .ofPair "B" "x" 1]
    let r : Report := ⟨"r", 2, [⟨"D", .duplicateVersion, .error, "C", "A ", "A", none, none⟩], [("x", [1])]⟩
    Candidate.read d = .ok c ∧
      Instance.read .candidate { c with capabilities := ["IMigratable", "A"] }.toDatum = .ok (.candidate c) ∧
      ((Tool.analyzeClasses (cs.map Candidate.toDatum)).callBy [1, 1] s .absent "r").1 = .answer r.fields ∧
      Report.read (.record r.fields) = .ok r := by
  intro d c s cs r
  have hd : Candidate.read d = .ok c := by decide +kernel
  have hinstance : Instance.read .candidate d = .ok (.candidate c) :=
    Checked.map_eq_ok_iff.mpr ⟨c, hd, rfl⟩
  have hreport {items : List Datum} {s : Service} {cs : List Candidate} {r : Report}
      (hcs : Candidate.readAll items = .ok cs)
      (hr : (s.concludeBy [1, 1] .absent (Run.start none "r") cs).outcome = .ok r)
      (hwhole : (Datum.record r.fields).hasHalf = false) :
      ((Tool.analyzeClasses items).callBy [1, 1] s .absent "r").1 = .answer r.fields ∧
        Report.read (.record r.fields) = .ok r := by
    have hanswer : ((Tool.analyzeClasses items).callBy [1, 1] s .absent "r").1 = .answer r.fields :=
      Tool.answerBy_of_outcome Report.fields hcs hr hwhole
    obtain ⟨cs', r', hcs', hr', hread⟩ :=
      written_instances_and_reports_are_read_back.2 _ _ _ _ _ _ _ (Prod.ext hanswer rfl)
    cases hcs.symm.trans hcs'
    cases hr.symm.trans hr'
    exact ⟨hanswer, hread⟩
  have hcs : Candidate.readAll (cs.map Candidate.toDatum) = .ok cs := by decide +kernel
  have hr : (s.concludeBy [1, 1] .absent (Run.start none "r") cs).outcome = .ok r := by decide +kernel
  exact ⟨hd, written_instances_and_reports_are_read_back.1 .candidate d _ hinstance _
    (.listed c (List.Perm.swap "A" "IMigratable" [])), hreport hcs hr (by decide +kernel)⟩

end SerialAudit

import SerialAudit.Model.Instance
import SerialAudit.Proofs.Validation.Reading

/-! What the readers of the models accept, field by field, and the names that make up a set.

A record is read as a value exactly if each of its fields is read as that of the value; the fields of
all models are listed once, in `read_record_iff`. A set of names is the ascending list of them
(`mem_nameSet`, `pairwise_nameSet`), so it does not depend on how they were given (`nameSet_eq_iff`). -/
namespace SerialAudit
set_option autoImplicit false

open Reader (required optional)

/-! ## Sets of names -/

theorem mem_insertName (s t : String) (ts : List String) : s ∈ insertName t ts ↔ s = t ∨ s ∈ ts := by
  induction ts with
  | nil => simp [insertName]
  | cons u us ih => grind [insertName]

theorem pairwise_insertName {s : String} {ts : List String} (h : ts.Pairwise (· < ·)) :
    (insertName s ts).Pairwise (· < ·) := by
  induction ts with
  | nil => exact List.pairwise_singleton _ _
  | cons t ts ih =>
    obtain ⟨ht, hts⟩ := List.pairwise_cons.mp h
    by_cases heq : s = t
    · simp only [insertName, heq, if_true]
      exact h
    by_cases hlt : s < t
    · simp only [insertName, heq, hlt, if_false, if_true]
      refine List.pairwise_cons.mpr ⟨fun u hu => ?_, h⟩
      rcases List.mem_cons.mp hu with rfl | hu
      · exact hlt
      · exact String.lt_trans hlt (ht u hu)
    · simp only [insertName, heq, hlt, if_false]
      refine List.pairwise_cons.mpr ⟨fun u hu => ?_, ih hts⟩
      rcases (mem_insertName u s ts).mp hu with rfl | hu
      · exact Std.lt_of_le_of_ne (String.not_lt.mp hlt) (Ne.symm heq)
      · exact ht u hu

theorem mem_nameSet (s : String) (names : List String) : s ∈ nameSet names ↔ s ∈ names := by
  induction names with
  | nil => exact Iff.rfl
  | cons t ts ih =>
    change s ∈ insertName t (nameSet ts) ↔ _
    rw [mem_insertName, ih, List.mem_cons]

theorem pairwise_nameSet (names : List String) : (nameSet names).Pairwise (· < ·) := by
  induction names with
  | nil => exact List.Pairwise.nil
  | cons t ts ih => exact pairwise_insertName ih

theorem nameSet_eq_iff (names set : List String) :
    nameSet names = set ↔ set.Pairwise (· < ·) ∧ ∀ s, s ∈ set ↔ s ∈ names := by
  have hnames := pairwise_nameSet names
  constructor
  · rintro rfl
    exact ⟨hnames, fun s => mem_nameSet s names⟩
  · rintro ⟨hset, hmem⟩
    have hnodup {ts : List String} (h : ts.Pairwise (· < ·)) : ts.Nodup :=
      h.imp (S := (· ≠ ·)) fun hlt heq => String.lt_irrefl _ (heq ▸ hlt)
    refine List.Perm.eq_of_pairwise (fun s t _ _ hst hts => absurd hts (String.lt_asymm hst)) hnames hset ?_
    exact (List.perm_ext_iff_of_nodup (hnodup hnames) (hnodup hset)).mpr fun s =>
      (mem_nameSet s names).trans (hmem s).symm

/-! ## Fields -/

section

variable {fields : List (String × Datum)}

theorem Attribute.read_record_iff {a : Attribute} :
    Attribute.read (.record fields) = .ok a ↔
      required fields "type_name" Reader.text = .ok a.typeName ∧
      optional fields "named_arguments" [] (Reader.dictionary Argument.read) = .ok a.arguments := by
  obtain ⟨typeName, arguments⟩ := a
  change mk <$> _ <*> _ = _ ↔ _
  simp [Checked.seq_eq_ok_iff, Checked.map_eq_ok_iff]

theorem Candidate.read_record_iff {c : Candidate} :
    Candidate.read (.record fields) = .ok c ↔
      required fields "name" Reader.text = .ok c.name ∧
      optional fields "implemented_capabilities" [] (fun d => (Reader.set Reader.text d).map nameSet) =
        .ok c.capabilities ∧
      optional fields "annotations" [] (Reader.tuple Attribute.read) = .ok c.attributes ∧
      optional fields "kind" .class TypeKind.read = .ok c.kind ∧
      optional fields "is_generated" false Reader.boolean = .ok c.isGenerated ∧
      optional fields "location" none Reader.optionalText = .ok c.location := by
  obtain ⟨name, capabilities, attributes, kind, isGenerated, location⟩ := c
  change mk <$> _ <*> _ <*> _ <*> _ <*> _ <*> _ = _ ↔ _
  simp [-Bool.exists_bool, Checked.seq_eq_ok_iff, Checked.map_eq_ok_iff, and_assoc]

theorem Classification.read_record_iff {c : Classification} :
    Classification.read (.record fields) = .ok c ↔
      required fields "status" Status.read = .ok c.status ∧
      optional fields "annotation" none readAttribute? = .ok c.attr := by
  obtain ⟨status, attr⟩ := c
  change mk <$> _ <*> _ = _ ↔ _
  simp [Checked.seq_eq_ok_iff, Checked.map_eq_ok_iff]

theorem Diagnostic.read_record_iff {d : Diagnostic} :
    Diagnostic.read (.record fields) = .ok d ↔
      required fields "rule" Rule.read = .ok d.rule ∧
      required fields "class_name" Reader.text = .ok d.className ∧
      optional fields "field_name" none Reader.optionalText = .ok d.fieldName := by
  obtain ⟨rule, className, fieldName⟩ := d
  change mk <$> _ <*> _ <*> _ = _ ↔ _
  simp [Checked.seq_eq_ok_iff, Checked.map_eq_ok_iff]

theorem Descriptor.read_record_iff {d : Descriptor} :
    Descriptor.read (.record fields) = .ok d ↔
      required fields "rule" Rule.read = .ok d.rule ∧
      required fields "diagnostic_id" Reader.text = .ok d.diagnosticId ∧
      required fields "title" Reader.text = .ok d.title ∧
      required fields "message_format" Reader.text = .ok d.messageFormat ∧
      optional fields "severity" .error Severity.read = .ok d.severity ∧
      required fields "category" Reader.text = .ok d.category ∧
      optional fields "enabled_by_default" true Reader.boolean = .ok d.enabled := by
  obtain ⟨rule, diagnosticId, title, messageFormat, severity, category, enabled⟩ := d
  change mk <$> _ <*> _ <*> _ <*> _ <*> _ <*> _ <*> _ = _ ↔ _
  simp [-Bool.exists_bool, Checked.seq_eq_ok_iff, Checked.map_eq_ok_iff, and_assoc]

theorem Reported.read_record_iff {r : Reported} :
    Reported.read (.record fields) = .ok r ↔
      required fields "diagnostic_id" Reader.text = .ok r.diagnosticId ∧
      required fields "rule" Rule.read = .ok r.rule ∧
      required fields "severity" Severity.read = .ok r.severity ∧
      required fields "category" Reader.text = .ok r.category ∧
      required fields "message" Reader.text = .ok r.message ∧
      required fields "class_name" Reader.text = .ok r.className ∧
      optional fields "field_name" none Reader.optionalText = .ok r.fieldName ∧
      optional fields "location" none Reader.optionalText = .ok r.location := by
  obtain ⟨diagnosticId, rule, severity, category, message, className, fieldName, location⟩ := r
  change mk <$> _ <*> _ <*> _ <*> _ <*> _ <*> _ <*> _ <*> _ = _ ↔ _
  simp [-Bool.exists_bool, Checked.seq_eq_ok_iff, Checked.map_eq_ok_iff, and_assoc]

theorem Report.read_record_iff {r : Report} :
    Report.read (.record fields) = .ok r ↔
      required fields "run_id" Reader.text = .ok r.runId ∧
      required fields "checked_count" Reader.integer = .ok r.checkedCount ∧
      optional fields "diagnostics" [] (Reader.list Reported.read) = .ok r.diagnostics ∧
      optional fields "registered" [] (Reader.dictionary (Reader.list Reader.integer)) =
        .ok r.registered := by
  obtain ⟨runId, checkedCount, diagnostics, registered⟩ := r
  change mk <$> _ <*> _ <*> _ <*> _ = _ ↔ _
  simp [-Bool.exists_bool, Checked.seq_eq_ok_iff, Checked.map_eq_ok_iff, and_assoc]

end

end SerialAudit

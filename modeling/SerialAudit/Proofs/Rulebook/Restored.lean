import SerialAudit.Proofs.Document.Leaves
import SerialAudit.Proofs.Document.Pages
import SerialAudit.Proofs.Model.NormalForm
import SerialAudit.Proofs.Rulebook.Unreported
import SerialAudit.Proofs.Rulebook.Written

/-! What a written rulebook is read back as.

* `FieldValue.leaf` : the leaf of a field;
* `Descriptor.restored` : a definition as it is read back.

The text of complete rules always loads, with the definitions as they are read back (`load_toText`). -/
namespace SerialAudit
set_option autoImplicit false

open Document

/-! ## Leaves -/

/-- A text as it is read back. -/
def restoredText (s : String) : String := String.ofList (Written.restored s.toList)

namespace FieldValue

def leaf : FieldValue → Leaf
  | text s => ⟨Written.styleOf s.toList = .plain, restoredText s⟩
  | flag b => ⟨true, if b then "true" else "false"⟩

/-- The value of a field as it is read back. -/
def restoredValue : FieldValue → Value
  | text s => .text (restoredText s)
  | flag b => .bool b

theorem token_leaf (v : FieldValue) : v.leaf.token = v.token := by cases v <;> rfl

theorem node_leaf_text (s : String) : (leaf (.text s)).node = ⟨.text, .scalar (restoredText s)⟩ := by
  have htag : (if decide (Written.styleOf s.toList = .plain) then Tag.ofText (restoredText s).toList
      else .text) = .text := by
    split
    · rename_i hstyle
      have hplain := (Written.styleOf_eq_plain_iff _).mp (of_decide_eq_true hstyle)
      rw [restoredText, String.toList_ofList, Written.restored_of_isPlain hplain]
      rw [Written.isPlain_eq, Bool.and_eq_true] at hplain
      exact of_decide_eq_true hplain.2
    · rfl
  exact congrArg (fun tag => Node.mk tag (.scalar (restoredText s))) htag

theorem ofScalar_leaf (v : FieldValue) : v.leaf.node.tag.isScalar = true ∧
    Value.ofScalar v.leaf.node.tag v.leaf.text = .ok v.restoredValue := by
  cases v with
  | text s =>
    rw [node_leaf_text]
    exact ⟨rfl, rfl⟩
  | flag b =>
    have htag : (leaf (.flag b)).node.tag = .bool := by cases b <;> decide
    rw [htag]
    cases b <;> exact ⟨rfl, rfl⟩

theorem isRead_leaf (v : FieldValue) : v.leaf.IsRead := ⟨(ofScalar_leaf v).1, _, (ofScalar_leaf v).2⟩

theorem value_leaf (v : FieldValue) : v.leaf.value = v.restoredValue := by
  rw [Leaf.value, (ofScalar_leaf v).2]
  rfl

end FieldValue

theorem restoredText_eq_self_iff (s : String) :
    restoredText s = s ↔ ('\x85' ∈ s.toList → Written.needsEscapes s.toList = true) := by
  rw [← Written.restored_eq_self_iff, restoredText]
  constructor
  · intro h
    rw [← String.toList_ofList (l := Written.restored s.toList), h]
  · intro h
    rw [h, String.ofList_toList]

theorem restoredText_of_not_mem {s : String} (h : '\x85' ∉ s.toList) : restoredText s = s :=
  (restoredText_eq_self_iff s).mpr fun hmem => absurd hmem h

/-! ## Values -/

/-- Putting what has new keys into a list one by one is appending it. -/
theorem foldl_eq_append {α κ : Type} {put : List α → α → List α} (key : α → κ)
    (hput : ∀ known x, key x ∉ known.map key → put known x = known ++ [x]) (xs known : List α)
    (h : (known.map key ++ xs.map key).Nodup) : xs.foldl put known = known ++ xs := by
  induction xs generalizing known with
  | nil => exact (List.append_nil known).symm
  | cons x xs ih =>
    have hnew : key x ∉ known.map key := fun hmem =>
      (List.nodup_append.mp h).2.2 (key x) hmem (key x) List.mem_cons_self rfl
    rw [List.foldl_cons, hput known x hnew, ih (known ++ [x]) (by simpa using h), List.append_assoc]
    rfl

namespace Document.Value

theorem putField_of_not_mem {name : String} {fs : List (String × Datum)} (h : name ∉ fs.map Prod.fst)
    (d : Datum) : putField name d fs = fs ++ [(name, d)] := by
  induction fs with
  | nil => rfl
  | cons f fs ih =>
    obtain ⟨hne, hrest⟩ := not_or.mp (mt List.mem_cons.mpr h)
    rw [putField, if_neg (Ne.symm hne), ih hrest]
    rfl

/-- Entries with different names are fields in the same order. -/
theorem toDatum_map {fs : List (String × Value)} (h : (fs.map Prod.fst).Nodup) :
    (map (fs.map fun f => (text f.1, f.2))).toDatum = .record (fs.map fun f => (f.1, f.2.toDatum)) := by
  have hentries : entriesOf (fs.map fun f => (text f.1, f.2)) =
      (fs.map fun f => (f.1, f.2.toDatum)).map fun f => (text f.1, f.2) := by
    induction fs with
    | nil => rfl
    | cons f fs ih => rw [List.map_cons, entriesOf, ih (List.nodup_cons.mp h).2]; rfl
  have hkeys : (([] : List (String × Datum)).map Prod.fst ++
      (fs.map fun f => (f.1, f.2.toDatum)).map Prod.fst).Nodup := by
    rw [List.map_map]
    exact h
  have hput : ∀ (known : List (String × Datum)) (f : String × Datum), f.1 ∉ known.map Prod.fst →
      putField f.1 f.2 known = known ++ [f] := fun known f hf => putField_of_not_mem hf f.2
  rw [toDatum, hentries, fields, List.foldl_map]
  exact congrArg Datum.record (foldl_eq_append Prod.fst hput _ [] hkeys)

theorem dataOf_eq (vs : List Value) : dataOf vs = vs.map toDatum := by
  induction vs with
  | nil => rfl
  | cons v vs ih => rw [dataOf, ih, List.map_cons]

end Document.Value

namespace Rulebook

/-- A plain name as a leaf. -/
def nameLeaf (name : String) : Leaf := ⟨true, name⟩

/-- Names that are texts where they stand without marks. -/
def IsText (name : String) : Prop := Tag.ofText name.toList = .text

theorem isRead_nameLeaf {name : String} (h : IsText name) :
    (nameLeaf name).IsRead ∧ (nameLeaf name).value = .text name := by
  have hnode : (nameLeaf name).node = ⟨.text, .scalar name⟩ := congrArg (Node.mk · (.scalar name)) h
  constructor
  · rw [Leaf.IsRead, hnode]
    exact ⟨rfl, _, rfl⟩
  · rw [Leaf.value, hnode]
    rfl

def leavesOf (fs : List Field) : List (Leaf × Leaf) := fs.map fun f => (nameLeaf f.1, f.2.leaf)

theorem tokensOf_eq (entries : List (List Field)) :
    tokensOf entries = Leaf.documentTokens (nameLeaf rulesKey) (entries.map leavesOf) := by
  have hfields : ∀ fs : List Field, fs.flatMap fieldTokens = Leaf.entryTokens (leavesOf fs) := by
    intro fs
    rw [Leaf.entryTokens, leavesOf, List.flatMap_map]
    refine List.flatMap_congr fun f _ => ?_
    rw [fieldTokens, String.ofList_toList, FieldValue.token_leaf]
    rfl
  have hentries : entries.flatMap entryTokens = Leaf.itemTokens (entries.map leavesOf) := by
    rw [Leaf.itemTokens, List.flatMap_map]
    refine List.flatMap_congr fun fs _ => ?_
    rw [entryTokens, hfields]
    rfl
  rw [tokensOf, hentries, List.append_assoc]
  rfl

end Rulebook

namespace Descriptor

/-- A definition as it is read back. -/
def restored (d : Descriptor) : Descriptor :=
  { d with diagnosticId := restoredText d.diagnosticId, title := restoredText d.title,
           messageFormat := restoredText d.messageFormat, category := restoredText d.category }

theorem isText_of_mem_fields {d : Descriptor} {f : Rulebook.Field} (h : f ∈ d.fields) :
    Rulebook.IsText f.1 := by
  have hall : ∀ name ∈ fieldNames, Rulebook.IsText name := by
    simp only [fieldNames, List.forall_mem_cons, Rulebook.IsText]
    refine ⟨?_, ?_, ?_, ?_, ?_, ?_, ?_, fun _ h => absurd h List.not_mem_nil⟩ <;> decide +kernel
  exact hall f.1 (mem_fieldNames h)

theorem areRead_fields (d : Descriptor) : Leaf.AreRead (Rulebook.leavesOf d.fields) where
  leaves e he := by
    obtain ⟨f, hf, rfl⟩ := List.mem_map.mp he
    exact ⟨(Rulebook.isRead_nameLeaf (isText_of_mem_fields hf)).1, f.2.isRead_leaf⟩
  length := by
    rw [Rulebook.leavesOf, List.length_map]
    change 7 < Evaluation.mergeSteps
    decide

/-- The value of the fields of a definition, which is that of the definition as it is read back. -/
theorem toDatum_valueOf (d : Descriptor) :
    (Leaf.valueOf (Rulebook.leavesOf d.fields)).toDatum = d.restored.toDatum := by
  have hvalue : Leaf.valueOf (Rulebook.leavesOf d.fields) =
      .map (d.fields.map fun f => (.text f.1, f.2.restoredValue)) := by
    rw [Leaf.valueOf, Rulebook.leavesOf, List.map_map]
    refine congrArg Value.map (List.map_congr_left fun f hf => ?_)
    rw [Function.comp_apply, (Rulebook.isRead_nameLeaf (isText_of_mem_fields hf)).2, f.2.value_leaf]
  have hrule : restoredText d.rule.name = d.rule.name :=
    restoredText_of_not_mem (by cases d.rule <;> decide)
  have hseverity : restoredText d.severity.name = d.severity.name :=
    restoredText_of_not_mem (by cases d.severity <;> decide)
  have hnames : (d.fields.map fun f => (f.1, f.2.restoredValue)).map Prod.fst = fieldNames := rfl
  have hfields := Value.toDatum_map (hnames ▸ nodup_fieldNames)
  rw [List.map_map, List.map_map] at hfields
  refine (congrArg Value.toDatum hvalue).trans (hfields.trans ?_)
  simp only [fields, List.map_cons, List.map_nil, Function.comp_apply, FieldValue.restoredValue, hrule,
    hseverity]
  rfl

end Descriptor

namespace Rulebook

/-! ## Loading -/

/-- A rulebook as it is read back. -/
def restored (b : Rulebook) : Rulebook := ⟨b.descriptors.map Descriptor.restored⟩

theorem Complete.descriptors_ne_nil {b : Rulebook} (hb : b.Complete) : b.descriptors ≠ [] := by
  obtain ⟨e, he, -⟩ := hb .missingField
  exact List.ne_nil_of_mem he

/-- Reading a written rulebook gives a value with its definitions as they are read back. -/
theorem ofSource_toText {b : Rulebook} (hb : b.descriptors ≠ []) (extra : Nat) :
    ∃ v, Value.ofSource (extra + depth) ⟨b.toText.toList, none⟩ = .ok v ∧
      rulesEntries v = .ok (b.restored.descriptors.map Descriptor.toDatum) ∧
      v.toDatum = .record [(rulesKey, .list (b.restored.descriptors.map Descriptor.toDatum))] := by
  have hkey : IsText rulesKey := by
    rw [IsText]
    decide +kernel
  have hne : (b.descriptors.map Descriptor.fields).map leavesOf ≠ [] :=
    mt List.map_eq_nil_iff.mp (mt List.map_eq_nil_iff.mp hb)
  have hread : ∀ es ∈ (b.descriptors.map Descriptor.fields).map leavesOf, Leaf.AreRead es := by
    intro es hes
    obtain ⟨fs, hfs, rfl⟩ := List.mem_map.mp hes
    obtain ⟨d, -, rfl⟩ := List.mem_map.mp hfs
    exact d.areRead_fields
  have hvalues : (((b.descriptors.map Descriptor.fields).map leavesOf).map Leaf.valueOf).map Value.toDatum =
      b.restored.descriptors.map Descriptor.toDatum := by
    rw [restored, List.map_map, List.map_map, List.map_map, List.map_map]
    exact List.map_congr_left fun d _ => d.toDatum_valueOf
  refine ⟨.map [(.text rulesKey, .list (((b.descriptors.map Descriptor.fields).map leavesOf).map
    Leaf.valueOf))], ?_, ?_, ?_⟩
  · have hdocument := Leaf.value_documentNodes (isRead_nameLeaf hkey).1 hread extra
    rw [(isRead_nameLeaf hkey).2] at hdocument
    rw [Value.ofSource, scan_toText, tokensOf_eq, Leaf.ofTokens?_documentTokens _ hne]
    exact hdocument
  · rw [Value.rulesEntries_map]
    exact congrArg Except.ok hvalues
  · change Datum.record [(rulesKey, .list (Value.dataOf _))] = _
    rw [Value.dataOf_eq, hvalues]

theorem readEntries_toDatum (ds : List Descriptor) : readEntries (ds.map Descriptor.toDatum) = .ok ds := by
  induction ds with
  | nil => rfl
  | cons d ds ih =>
    rw [List.map_cons, readEntries, Descriptor.restores d, ih]
    rfl

theorem put_of_not_mem {d : Descriptor} {es : List Descriptor} (h : d.rule ∉ es.map Descriptor.rule) :
    put d es = es ++ [d] := by
  induction es with
  | nil => rfl
  | cons e es ih =>
    obtain ⟨hne, hrest⟩ := not_or.mp (mt List.mem_cons.mpr h)
    rw [put, if_neg (Ne.symm hne), ih hrest]
    rfl

theorem Distinct.lastOfEach_eq {b : Rulebook} (hb : b.Distinct) :
    lastOfEach b.descriptors = b.descriptors :=
  foldl_eq_append Descriptor.rule (fun _ _ hnew => put_of_not_mem hnew) b.descriptors [] hb

theorem Complete.absentRules_eq {b : Rulebook} (hb : b.Complete) : absentRules b.descriptors = [] :=
  (absentRules_eq_nil_iff b.descriptors).mpr hb

theorem map_rule_restored (b : Rulebook) :
    b.restored.descriptors.map Descriptor.rule = b.descriptors.map Descriptor.rule := by
  rw [restored, List.map_map]
  rfl

theorem Distinct.restored {b : Rulebook} (hb : b.Distinct) : b.restored.Distinct := by
  rw [Distinct, map_rule_restored]
  exact hb

theorem Complete.restored {b : Rulebook} (hb : b.Complete) : b.restored.Complete := by
  intro rule
  obtain ⟨e, he, hrule⟩ := hb rule
  exact ⟨e.restored, List.mem_map_of_mem he, hrule⟩

/-- The text of a rulebook, as a text and as the octets of a file. -/
theorem source_toText (b : Rulebook) : Source.ofText b.toText.toList = ⟨b.toText.toList, none⟩ ∧
    (Folder.ofText b.toText).source? = .ok ⟨b.toText.toList, none⟩ := by
  have hclean := clean_toText b
  have hadmitted : ∀ c ∈ b.toText.toList, isAdmitted c = true := fun c hc => (hclean c hc).1
  have hreturn : '\r' ∉ b.toText.toList := fun hmem => (hclean '\r' hmem).2 rfl
  exact ⟨Source.ofText_eq hadmitted, congrArg Except.ok (Source.ofOctets_encode hadmitted hreturn)⟩

/-- A file with the text of complete rules gives these rules as they are read back. -/
theorem load_toText {b : Rulebook} (hcomplete : b.Complete) (hdistinct : b.Distinct) :
    load (Folder.ofText b.toText) = .ok b.restored := by
  obtain ⟨v, hvalue, hentries, -⟩ := ofSource_toText hcomplete.descriptors_ne_nil 0
  rw [Nat.zero_add] at hvalue
  have hload : load (Folder.ofText b.toText) = (rulesEntries v).bind ofEntries := by
    rw [load, (source_toText b).2]
    change ofSource _ = _
    rw [ofSource, hvalue]
  rw [hload, hentries]
  change ofEntries _ = _
  rw [ofEntries, readEntries_toDatum]
  dsimp only
  rw [hcomplete.restored.absentRules_eq, hdistinct.restored.lastOfEach_eq]

end Rulebook

end SerialAudit

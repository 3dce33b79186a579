import SerialAudit.Proofs.Model.Reading
import SerialAudit.Proofs.Validation.Json

/-! Which JSON values are accepted as candidates, and what is kept of them.

* `Datum.Supplies` : what a field gives, or the default where it is absent;
* `Attribute.Admissible`, `Candidate.Admissible` : the grammar of annotations and candidates;
* `Attribute.TakenFrom`, `Candidate.TakenFrom` : what is read holds what stands in a value, as it stands.

A value is read as a candidate exactly if this is taken from it (`Candidate.read_eq_ok_iff`), and one can
be taken from what is admissible (`Candidate.exists_takenFrom_iff`). -/
namespace SerialAudit
set_option autoImplicit false

open Reader (required optional)

/-! ## The grammar -/

def Datum.Supplies {α : Type} (fields : List (String × Datum)) (name : String) (default : α)
    (taken : Datum → α → Prop) (a : α) : Prop :=
  (field? fields name = none ∧ a = default) ∨ ∃ d, field? fields name = some d ∧ taken d a

def Argument.Admissible (d : Datum) : Prop :=
  d.IsText ∨ (∃ n, d = .int n) ∨ (∃ b, d = .bool b) ∨ d = .null

def TypeKind.Admissible (d : Datum) : Prop :=
  d ∈ ["class", "interface", "struct", "enum", "delegate"].map Datum.text

namespace Attribute

def Admissible (d : Datum) : Prop :=
  ∃ fields, d = .record fields ∧
    (∃ v, Datum.field? fields "type_name" = some v ∧ v.IsText) ∧
    ∀ v, Datum.field? fields "named_arguments" = some v →
      ∃ arguments, v = .record arguments ∧ ∀ f ∈ arguments, Argument.Admissible f.2

/-- Each argument under its name, in order and with its own value. -/
def ArgumentsFrom (v : Datum) (arguments : List (String × Argument)) : Prop :=
  v = .record (arguments.map fun p => (p.1, p.2.toDatum))

def TakenFrom (d : Datum) (a : Attribute) : Prop :=
  ∃ fields, d = .record fields ∧
    Datum.field? fields "type_name" = some (.text a.typeName) ∧
    Datum.Supplies fields "named_arguments" [] ArgumentsFrom a.arguments

end Attribute

namespace Candidate

def Admissible (d : Datum) : Prop :=
  ∃ fields, d = .record fields ∧
    (∃ v, Datum.field? fields "name" = some v ∧ v.IsText) ∧
    (∀ v, Datum.field? fields "implemented_capabilities" = some v →
      ∃ items, v = .list items ∧ ∀ e ∈ items, e.IsText) ∧
    (∀ v, Datum.field? fields "annotations" = some v →
      ∃ items, v = .list items ∧ ∀ e ∈ items, Attribute.Admissible e) ∧
    (∀ v, Datum.field? fields "kind" = some v → TypeKind.Admissible v) ∧
    (∀ v, Datum.field? fields "is_generated" = some v → ∃ b, v.StandsFor b) ∧
    ∀ v, Datum.field? fields "location" = some v → v = .null ∨ v.IsText

/-- The capabilities are a set: what counts is which names are listed. -/
def CapabilitiesFrom (v : Datum) (names : List String) : Prop :=
  names.Pairwise (· < ·) ∧
    ∃ listed : List String, v = .list (listed.map .text) ∧ ∀ s, s ∈ names ↔ s ∈ listed

def AttributesFrom (v : Datum) (attributes : List Attribute) : Prop :=
  ∃ items, v = .list items ∧ List.Forall₂ Attribute.TakenFrom items attributes

def TakenFrom (d : Datum) (c : Candidate) : Prop :=
  ∃ fields, d = .record fields ∧
    Datum.field? fields "name" = some (.text c.name) ∧
    Datum.Supplies fields "implemented_capabilities" [] CapabilitiesFrom c.capabilities ∧
    Datum.Supplies fields "annotations" [] AttributesFrom c.attributes ∧
    Datum.Supplies fields "kind" .class (fun v k => v = .text k.name) c.kind ∧
    Datum.Supplies fields "is_generated" false Datum.StandsFor c.isGenerated ∧
    Datum.Supplies fields "location" none (fun v l => v = Datum.ofText? l) c.location

end Candidate

/-! ## Fields -/

namespace Datum

variable {α : Type} {fields : List (String × Datum)} {name : String} {read : Reader α} {default a : α}

theorem optional_eq_ok_iff_supplies (taken : Datum → α → Prop)
    (h : ∀ d, field? fields name = some d → (read d = .ok a ↔ taken d a)) :
    optional fields name default read = .ok a ↔ Supplies fields name default taken a := by
  rw [Reader.optional_eq_ok_iff, Supplies]
  exact or_congr_right (exists_congr fun d => and_congr_right (h d))

theorem exists_supplies_iff {taken : Datum → α → Prop} :
    (∃ a, Supplies fields name default taken a) ↔ ∀ d, field? fields name = some d → ∃ a, taken d a := by
  cases hd : field? fields name with
  | none => simp [Supplies, hd]
  | some d => simp [Supplies, hd]

theorem required_text_eq_ok_iff {s : String} (hd : IsJson (.record fields)) :
    required fields name Reader.text = .ok s ↔ field? fields name = some (.text s) := by
  rw [Reader.required_eq_ok_iff]
  constructor
  · rintro ⟨d, hfield, hread⟩
    rw [hfield, (Reader.text_eq_ok_iff (hd.of_field? hfield)).mp hread]
  · intro hfield
    exact ⟨_, hfield, rfl⟩

end Datum

theorem exists_forall₂_iff {α β : Type} {R : α → β → Prop} {xs : List α} :
    (∃ ys, List.Forall₂ R xs ys) ↔ ∀ x ∈ xs, ∃ y, R x y := by
  induction xs with
  | nil => simp
  | cons x xs ih => simp [List.forall₂_cons_left_iff, ← ih]

theorem forall₂_eq_map_iff {α β : Type} {f : β → α} {xs : List α} {ys : List β} :
    List.Forall₂ (fun x y => x = f y) xs ys ↔ xs = ys.map f := by
  rw [← List.forall₂_eq_eq_eq, List.forall₂_map_right_iff]

theorem forall₂_congr_of_mem {α β : Type} {R S : α → β → Prop} {xs : List α} {ys : List β}
    (h : ∀ x ∈ xs, ∀ y, R x y ↔ S x y) : List.Forall₂ R xs ys ↔ List.Forall₂ S xs ys := by
  induction xs generalizing ys with
  | nil => rw [List.forall₂_nil_left_iff, List.forall₂_nil_left_iff]
  | cons x xs ih =>
    obtain ⟨hx, hxs⟩ := List.forall_mem_cons.mp h
    simp only [List.forall₂_cons_left_iff, hx, ih hxs]

/-! ## Arguments and kinds -/

theorem Argument.read_eq_ok_iff {d : Datum} {a : Argument} : read d = .ok a ↔ d = a.toDatum := by
  cases d <;> cases a <;> simp [read, toDatum]

theorem Argument.admissible_iff {d : Datum} : Admissible d ↔ ∃ a : Argument, d = a.toDatum := by
  constructor
  · rintro (⟨s, rfl⟩ | ⟨n, rfl⟩ | ⟨b, rfl⟩ | rfl)
    · exact ⟨.text s, rfl⟩
    · exact ⟨.int n, rfl⟩
    · exact ⟨.bool b, rfl⟩
    · exact ⟨.missing, rfl⟩
  · rintro ⟨a, rfl⟩
    cases a with
    | text s => exact Or.inl ⟨s, rfl⟩
    | int n => exact Or.inr (Or.inl ⟨n, rfl⟩)
    | bool b => exact Or.inr (Or.inr (Or.inl ⟨b, rfl⟩))
    | missing => exact Or.inr (Or.inr (Or.inr rfl))

theorem TypeKind.read_eq_ok_iff {d : Datum} {k : TypeKind} : read d = .ok k ↔ d = .text k.name := by
  constructor
  · intro h
    obtain ⟨s, rfl, hs⟩ := Reader.choice_eq_ok_iff.mp h
    obtain ⟨k', -, hk'⟩ := List.mem_map.mp (Datum.mem_of_lookup hs)
    cases hk'
    rfl
  · rintro rfl
    cases k <;> rfl

theorem TypeKind.admissible_iff {d : Datum} : Admissible d ↔ ∃ k : TypeKind, d = .text k.name := by
  constructor
  · intro h
    have hnames : ∀ v ∈ ["class", "interface", "struct", "enum", "delegate"].map Datum.text,
        v ∈ all.map fun k => .text k.name := fun v hv => hv
    obtain ⟨k, -, rfl⟩ := List.mem_map.mp (hnames d h)
    exact ⟨k, rfl⟩
  · rintro ⟨k, rfl⟩
    cases k <;> simp [Admissible, name]

/-! ## Annotations -/

namespace Attribute

variable {d : Datum}

theorem dictionary_eq_ok_iff {v : Datum} {arguments : List (String × Argument)} :
    Reader.dictionary Argument.read v = .ok arguments ↔ ArgumentsFrom v arguments := by
  cases v with
  | record entries =>
    change Reader.members Argument.read entries = .ok arguments ↔ _
    rw [Reader.members_eq_ok_iff, ArgumentsFrom, Datum.record.injEq, ← forall₂_eq_map_iff]
    simp only [Argument.read_eq_ok_iff, Prod.ext_iff]
  | _ => exact ⟨nofun, nofun⟩

theorem read_eq_ok_iff (hd : d.IsJson) {a : Attribute} : read d = .ok a ↔ TakenFrom d a := by
  cases d with
  | record fields =>
    rw [read_record_iff, Datum.required_text_eq_ok_iff hd,
      Datum.optional_eq_ok_iff_supplies ArgumentsFrom fun _ _ => dictionary_eq_ok_iff]
    exact ⟨fun h => ⟨fields, rfl, h⟩, fun ⟨_, hfields, h⟩ => Datum.record.inj hfields ▸ h⟩
  | _ => exact ⟨nofun, fun ⟨_, hfields, _⟩ => nomatch hfields⟩

theorem exists_arguments_iff {v : Datum} :
    (∃ arguments, ArgumentsFrom v arguments) ↔
      ∃ entries, v = .record entries ∧ ∀ f ∈ entries, Argument.Admissible f.2 := by
  constructor
  · rintro ⟨arguments, rfl⟩
    refine ⟨_, rfl, fun f hf => ?_⟩
    obtain ⟨p, -, rfl⟩ := List.mem_map.mp hf
    exact Argument.admissible_iff.mpr ⟨p.2, rfl⟩
  · rintro ⟨entries, rfl, h⟩
    have hentries : ∀ f ∈ entries, ∃ p : String × Argument, f = (p.1, p.2.toDatum) := by
      intro f hf
      obtain ⟨a, ha⟩ := Argument.admissible_iff.mp (h f hf)
      exact ⟨(f.1, a), Prod.ext rfl ha⟩
    obtain ⟨arguments, harguments⟩ := exists_forall₂_iff.mpr hentries
    refine ⟨arguments, congrArg Datum.record ?_⟩
    exact forall₂_eq_map_iff.mp harguments

theorem exists_takenFrom_iff : (∃ a, TakenFrom d a) ↔ Admissible d := by
  constructor
  · rintro ⟨a, fields, rfl, hname, harguments⟩
    refine ⟨fields, rfl, ⟨_, hname, _, rfl⟩, fun v hv => ?_⟩
    exact exists_arguments_iff.mp (Datum.exists_supplies_iff.mp ⟨_, harguments⟩ v hv)
  · rintro ⟨fields, rfl, ⟨_, hname, s, rfl⟩, harguments⟩
    obtain ⟨arguments, h⟩ := Datum.exists_supplies_iff.mpr fun v hv => exists_arguments_iff.mpr (harguments v hv)
    exact ⟨⟨s, arguments⟩, fields, rfl, hname, h⟩

end Attribute

/-! ## Candidates -/

namespace Candidate

variable {d : Datum}

theorem set_text_eq_ok_iff {v : Datum} (hv : v.IsJson) {listed : List String} :
    Reader.set Reader.text v = .ok listed ↔ v = .list (listed.map .text) := by
  cases v with
  | list items =>
    change Reader.elements Reader.text 0 items = .ok listed ↔ _
    rw [Reader.elements_eq_ok_iff, Datum.list.injEq, ← forall₂_eq_map_iff]
    exact forall₂_congr_of_mem fun e he s => Reader.text_eq_ok_iff (hv.of_mem he)
  | _ => exact ⟨nofun, nofun⟩

theorem capabilities_eq_ok_iff {v : Datum} (hv : v.IsJson) {names : List String} :
    (Reader.set Reader.text v).map nameSet = .ok names ↔ CapabilitiesFrom v names := by
  change nameSet <$> Reader.set Reader.text v = .ok names ↔ _
  simp only [Checked.map_eq_ok_iff, set_text_eq_ok_iff hv, nameSet_eq_iff]
  constructor
  · rintro ⟨listed, rfl, hascending, hmem⟩
    exact ⟨hascending, listed, rfl, hmem⟩
  · rintro ⟨hascending, listed, rfl, hmem⟩
    exact ⟨listed, rfl, hascending, hmem⟩

theorem attributes_eq_ok_iff {v : Datum} (hv : v.IsJson) {attributes : List Attribute} :
    Reader.tuple Attribute.read v = .ok attributes ↔ AttributesFrom v attributes := by
  cases v with
  | list items =>
    change Reader.elements Attribute.read 0 items = .ok attributes ↔ _
    rw [Reader.elements_eq_ok_iff,
      forall₂_congr_of_mem fun e he a => Attribute.read_eq_ok_iff (hv.of_mem he)]
    exact ⟨fun h => ⟨items, rfl, h⟩, fun ⟨_, hitems, h⟩ => Datum.list.inj hitems ▸ h⟩
  | _ => exact ⟨nofun, fun ⟨_, hitems, _⟩ => nomatch hitems⟩

theorem read_eq_ok_iff (hd : d.IsJson) {c : Candidate} : read d = .ok c ↔ TakenFrom d c := by
  cases d with
  | record fields =>
    rw [read_record_iff, Datum.required_text_eq_ok_iff hd,
      Datum.optional_eq_ok_iff_supplies CapabilitiesFrom fun v hv => capabilities_eq_ok_iff (hd.of_field? hv),
      Datum.optional_eq_ok_iff_supplies AttributesFrom fun v hv => attributes_eq_ok_iff (hd.of_field? hv),
      Datum.optional_eq_ok_iff_supplies (fun v k => v = .text k.name) fun _ _ => TypeKind.read_eq_ok_iff,
      Datum.optional_eq_ok_iff_supplies Datum.StandsFor fun v hv =>
        Reader.boolean_eq_ok_iff (hd.of_field? hv),
      Datum.optional_eq_ok_iff_supplies (fun v l => v = Datum.ofText? l) fun v hv =>
        Reader.optionalText_eq_ok_iff (hd.of_field? hv)]
    exact ⟨fun h => ⟨fields, rfl, h⟩, fun ⟨_, hfields, h⟩ => Datum.record.inj hfields ▸ h⟩
  | _ => exact ⟨nofun, fun ⟨_, hfields, _⟩ => nomatch hfields⟩

theorem exists_capabilities_iff {v : Datum} :
    (∃ names, CapabilitiesFrom v names) ↔ ∃ items, v = .list items ∧ ∀ e ∈ items, e.IsText := by
  constructor
  · rintro ⟨-, -, listed, rfl, -⟩
    refine ⟨_, rfl, fun e he => ?_⟩
    obtain ⟨s, -, rfl⟩ := List.mem_map.mp he
    exact ⟨s, rfl⟩
  · rintro ⟨items, rfl, h⟩
    obtain ⟨listed, hlisted⟩ := exists_forall₂_iff.mpr h
    refine ⟨nameSet listed, pairwise_nameSet listed, listed, ?_, fun s => mem_nameSet s listed⟩
    exact congrArg Datum.list (forall₂_eq_map_iff.mp hlisted)

theorem exists_attributes_iff {v : Datum} :
    (∃ attributes, AttributesFrom v attributes) ↔
      ∃ items, v = .list items ∧ ∀ e ∈ items, Attribute.Admissible e := by
  simp only [← Attribute.exists_takenFrom_iff, ← exists_forall₂_iff]
  constructor
  · rintro ⟨attributes, items, rfl, h⟩
    exact ⟨items, rfl, attributes, h⟩
  · rintro ⟨items, rfl, attributes, h⟩
    exact ⟨attributes, items, rfl, h⟩

theorem exists_takenFrom_iff : (∃ c, TakenFrom d c) ↔ Admissible d := by
  constructor
  · rintro ⟨c, fields, rfl, hname, hcapabilities, hattributes, hkind, hgenerated, hlocation⟩
    refine ⟨fields, rfl, ⟨_, hname, _, rfl⟩, fun v hv => ?_, fun v hv => ?_, fun v hv => ?_, fun v hv => ?_,
      fun v hv => ?_⟩
    · exact exists_capabilities_iff.mp (Datum.exists_supplies_iff.mp ⟨_, hcapabilities⟩ v hv)
    · exact exists_attributes_iff.mp (Datum.exists_supplies_iff.mp ⟨_, hattributes⟩ v hv)
    · exact TypeKind.admissible_iff.mpr (Datum.exists_supplies_iff.mp ⟨_, hkind⟩ v hv)
    · exact Datum.exists_supplies_iff.mp ⟨_, hgenerated⟩ v hv
    · exact Datum.exists_ofText?_iff.mp (Datum.exists_supplies_iff.mp ⟨_, hlocation⟩ v hv)
  · rintro ⟨fields, rfl, ⟨_, hname, s, rfl⟩, hcapabilities, hattributes, hkind, hgenerated, hlocation⟩
    obtain ⟨names, hnames⟩ := Datum.exists_supplies_iff.mpr fun v hv =>
      exists_capabilities_iff.mpr (hcapabilities v hv)
    obtain ⟨attributes, hattributes⟩ := Datum.exists_supplies_iff.mpr fun v hv =>
      exists_attributes_iff.mpr (hattributes v hv)
    obtain ⟨kind, hkind⟩ := Datum.exists_supplies_iff.mpr fun v hv =>
      TypeKind.admissible_iff.mp (hkind v hv)
    obtain ⟨isGenerated, hgenerated⟩ := Datum.exists_supplies_iff.mpr hgenerated
    obtain ⟨location, hlocation⟩ := Datum.exists_supplies_iff.mpr fun v hv =>
      Datum.exists_ofText?_iff.mpr (hlocation v hv)
    exact ⟨⟨s, names, attributes, kind, isGenerated, location⟩, fields, rfl, hname, hnames, hattributes,
      hkind, hgenerated, hlocation⟩

end Candidate

end SerialAudit

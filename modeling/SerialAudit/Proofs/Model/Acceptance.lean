import SerialAudit.Proofs.Model.Grammar

/-! What is found in JSON values that are no candidates.

* `Candidate.Offends` : the places at which a value breaks the grammar;
* `Candidate.Before` : the order of fields, of the items of a list and of the names of a record.

The reader accepts what is admissible and takes it as it stands. Of anything else it reports each
offending place once, in order (`Candidate.reads_exactly`). -/
namespace SerialAudit
set_option autoImplicit false

open Issue (Place)
open Reader (required optional)

/-! ## Offending places -/

/-- The alternatives for an argument, in the order in which they are tried. -/
def Argument.alternatives : List String := ["str", "int", "bool"]

namespace Attribute

def fieldNames : List String := ["type_name", "named_arguments"]

inductive Offends : Datum → Place → Prop
  | shape {d : Datum} (h : ∀ fields, d ≠ .record fields) : Offends d []
  | unnamed {fields : List (String × Datum)} (h : Datum.field? fields "type_name" = none) :
    Offends (.record fields) [.key "type_name"]
  | typeName {fields : List (String × Datum)} {v : Datum}
    (hv : Datum.field? fields "type_name" = some v) (h : ¬ v.IsText) :
    Offends (.record fields) [.key "type_name"]
  | arguments {fields : List (String × Datum)} {v : Datum}
    (hv : Datum.field? fields "named_arguments" = some v) (h : ∀ entries, v ≠ .record entries) :
    Offends (.record fields) [.key "named_arguments"]
  | argument {fields entries : List (String × Datum)} {name : String} {v : Datum} {kind : String}
    (hv : Datum.field? fields "named_arguments" = some (.record entries)) (hmem : (name, v) ∈ entries)
    (h : ¬ Argument.Admissible v) (hkind : kind ∈ Argument.alternatives) :
    Offends (.record fields) [.key "named_arguments", .key name, .key kind]

inductive Before : Datum → Place → Place → Prop
  | field {d : Datum} {m n : String} {p q : Place} (h : fieldNames.idxOf m < fieldNames.idxOf n) :
    Before d (.key m :: p) (.key n :: q)
  | argument {fields entries : List (String × Datum)} {m n : String} {p q : Place}
    (hv : Datum.field? fields "named_arguments" = some (.record entries))
    (h : (entries.map Prod.fst).idxOf m < (entries.map Prod.fst).idxOf n) :
    Before (.record fields) (.key "named_arguments" :: .key m :: p) (.key "named_arguments" :: .key n :: q)
  | alternative {d : Datum} {name k l : String}
    (h : Argument.alternatives.idxOf k < Argument.alternatives.idxOf l) :
    Before d [.key "named_arguments", .key name, .key k] [.key "named_arguments", .key name, .key l]

theorem Before.asymm {d : Datum} {p q : Place} (hpq : Before d p q) : ¬ Before d q p := by
  intro hqp
  cases hpq with
  | field h =>
    cases hqp with
    | field h' => exact Nat.lt_asymm h h'
    | argument => exact Nat.lt_irrefl _ h
    | alternative => exact Nat.lt_irrefl _ h
  | argument hv h =>
    cases hqp with
    | field h' => exact Nat.lt_irrefl _ h'
    | argument hv' h' =>
      cases hv.symm.trans hv'
      exact Nat.lt_asymm h h'
    | alternative => exact Nat.lt_irrefl _ h
  | alternative h =>
    cases hqp with
    | field h' => exact Nat.lt_irrefl _ h'
    | argument _ h' => exact Nat.lt_irrefl _ h'
    | alternative h' => exact Nat.lt_asymm h h'

end Attribute

namespace Candidate

def fieldNames : List String :=
  ["name", "implemented_capabilities", "annotations", "kind", "is_generated", "location"]

inductive Offends : Datum → Place → Prop
  | shape {d : Datum} (h : ∀ fields, d ≠ .record fields) : Offends d []
  | unnamed {fields : List (String × Datum)} (h : Datum.field? fields "name" = none) :
    Offends (.record fields) [.key "name"]
  | name {fields : List (String × Datum)} {v : Datum}
    (hv : Datum.field? fields "name" = some v) (h : ¬ v.IsText) :
    Offends (.record fields) [.key "name"]
  | capabilities {fields : List (String × Datum)} {v : Datum}
    (hv : Datum.field? fields "implemented_capabilities" = some v) (h : ∀ items, v ≠ .list items) :
    Offends (.record fields) [.key "implemented_capabilities"]
  | capability {fields : List (String × Datum)} {items : List Datum} {i : Nat} {e : Datum}
    (hv : Datum.field? fields "implemented_capabilities" = some (.list items)) (he : items[i]? = some e)
    (h : ¬ e.IsText) :
    Offends (.record fields) [.key "implemented_capabilities", .index i]
  | attributes {fields : List (String × Datum)} {v : Datum}
    (hv : Datum.field? fields "annotations" = some v) (h : ∀ items, v ≠ .list items) :
    Offends (.record fields) [.key "annotations"]
  | within {fields : List (String × Datum)} {items : List Datum} {i : Nat} {e : Datum} {p : Place}
    (hv : Datum.field? fields "annotations" = some (.list items)) (he : items[i]? = some e)
    (h : Attribute.Offends e p) :
    Offends (.record fields) (.key "annotations" :: .index i :: p)
  | kind {fields : List (String × Datum)} {v : Datum}
    (hv : Datum.field? fields "kind" = some v) (h : ¬ TypeKind.Admissible v) :
    Offends (.record fields) [.key "kind"]
  | isGenerated {fields : List (String × Datum)} {v : Datum}
    (hv : Datum.field? fields "is_generated" = some v) (h : ¬ ∃ b, v.StandsFor b) :
    Offends (.record fields) [.key "is_generated"]
  | location {fields : List (String × Datum)} {v : Datum}
    (hv : Datum.field? fields "location" = some v) (h : ¬ (v = .null ∨ v.IsText)) :
    Offends (.record fields) [.key "location"]

inductive Before : Datum → Place → Place → Prop
  | field {d : Datum} {m n : String} {p q : Place} (h : fieldNames.idxOf m < fieldNames.idxOf n) :
    Before d (.key m :: p) (.key n :: q)
  | item {d : Datum} {name : String} {i j : Nat} {p q : Place} (h : i < j) :
    Before d (.key name :: .index i :: p) (.key name :: .index j :: q)
  | within {fields : List (String × Datum)} {items : List Datum} {i : Nat} {e : Datum} {p q : Place}
    (hv : Datum.field? fields "annotations" = some (.list items)) (he : items[i]? = some e)
    (h : Attribute.Before e p q) :
    Before (.record fields) (.key "annotations" :: .index i :: p) (.key "annotations" :: .index i :: q)

theorem Before.asymm {d : Datum} {p q : Place} (hpq : Before d p q) : ¬ Before d q p := by
  intro hqp
  cases hpq with
  | field h =>
    cases hqp with
    | field h' => exact Nat.lt_asymm h h'
    | item => exact Nat.lt_irrefl _ h
    | within => exact Nat.lt_irrefl _ h
  | item h =>
    cases hqp with
    | field h' => exact Nat.lt_irrefl _ h'
    | item h' => exact Nat.lt_asymm h h'
    | within => exact Nat.lt_irrefl _ h
  | within hv he h =>
    cases hqp with
    | field h' => exact Nat.lt_irrefl _ h'
    | item h' => exact Nat.lt_irrefl _ h'
    | within hv' he' h' =>
      cases hv.symm.trans hv'
      cases he.symm.trans he'
      exact h.asymm h'

end Candidate

/-! ## Arguments and kinds -/

theorem Argument.places_read (d : Datum) :
    (Admissible d ∧ (read d).places = []) ∨
      (¬ Admissible d ∧ (read d).places = alternatives.map fun kind => [.key kind]) := by
  rw [admissible_iff]
  by_cases h : ∃ a : Argument, d = a.toDatum
  · obtain ⟨a, rfl⟩ := h
    refine Or.inl ⟨⟨a, rfl⟩, ?_⟩
    rw [read_eq_ok_iff.mpr rfl]
    rfl
  · refine Or.inr ⟨h, ?_⟩
    cases d with
    | text s => exact absurd ⟨.text s, rfl⟩ h
    | int n => exact absurd ⟨.int n, rfl⟩ h
    | bool b => exact absurd ⟨.bool b, rfl⟩ h
    | null => exact absurd ⟨.missing, rfl⟩ h
    | _ => rfl

theorem Argument.mem_places_read {d : Datum} {p : Place} :
    p ∈ (read d).places ↔ ¬ Admissible d ∧ ∃ kind ∈ alternatives, p = [.key kind] := by
  rcases places_read d with ⟨hd, hplaces⟩ | ⟨hd, hplaces⟩
  · simp [hd, hplaces]
  · simp [hd, hplaces, eq_comm]

theorem Argument.pairwise_places_read {R : Place → Place → Prop} (d : Datum)
    (h : ∀ k l, alternatives.idxOf k < alternatives.idxOf l → R [.key k] [.key l]) :
    (read d).places.Pairwise R := by
  rcases places_read d with ⟨-, hplaces⟩ | ⟨-, hplaces⟩
  · rw [hplaces]
    exact List.Pairwise.nil
  · rw [hplaces]
    exact List.pairwise_map.mpr ((Reader.pairwise_idxOf (by decide)).imp fun hkl => h _ _ hkl)

theorem Argument.explained_read (d : Datum) : (read d).Explained := by
  cases d <;> exact nofun

theorem TypeKind.single_read (d : Datum) : (read d).Single :=
  Reader.single_choice _ d

theorem TypeKind.mem_places_read {d : Datum} {p : Place} :
    p ∈ (read d).places ↔ p = [] ∧ ¬ Admissible d := by
  rw [(single_read d).mem_places_iff, exists_congr fun k => read_eq_ok_iff, admissible_iff]

/-! ## Annotations -/

namespace Attribute

variable {d : Datum}

theorem explained_read (d : Datum) : (read d).Explained :=
  Reader.explained_recordOf (fun _ =>
    ((Reader.explained_required fun v => (Reader.single_text v).explained).map _).seq
      (Reader.explained_optional (Reader.explained_dictionary Argument.explained_read) _)) d

theorem mem_places_read (hd : d.IsJson) {p : Place} : p ∈ (read d).places ↔ Offends d p := by
  rw [read, Reader.mem_places_recordOf]
  simp only [Checked.places_seq, Checked.places_map, List.mem_append,
    Reader.mem_places_optional_dictionary, Argument.mem_places_read]
  constructor
  · rintro (⟨rfl, hshape⟩ | ⟨fields, rfl, hname | ⟨v, hv, h, rfl⟩ |
      ⟨entries, f, q, hv, hf, ⟨h, kind, hkind, rfl⟩, rfl⟩⟩)
    · exact .shape hshape
    · obtain ⟨hnone | ⟨v, hv, h⟩, rfl⟩ := (Reader.mem_places_required_text hd).mp hname
      · exact .unnamed hnone
      · exact .typeName hv h
    · exact .arguments hv h
    · exact .argument hv hf h hkind
  · intro h
    cases h with
    | shape hshape => exact Or.inl ⟨rfl, hshape⟩
    | unnamed hnone =>
      exact Or.inr ⟨_, rfl, Or.inl ((Reader.mem_places_required_text hd).mpr ⟨Or.inl hnone, rfl⟩)⟩
    | typeName hv h =>
      exact Or.inr ⟨_, rfl, Or.inl ((Reader.mem_places_required_text hd).mpr ⟨Or.inr ⟨_, hv, h⟩, rfl⟩)⟩
    | arguments hv h => exact Or.inr ⟨_, rfl, Or.inr (Or.inl ⟨_, hv, h, rfl⟩)⟩
    | argument hv hmem h hkind =>
      exact Or.inr ⟨_, rfl, Or.inr (Or.inr ⟨_, _, _, hv, hmem, ⟨h, _, hkind, rfl⟩, rfl⟩)⟩

theorem pairwise_places_read (hd : d.IsJson) : (read d).places.Pairwise (Before d) := by
  apply Reader.pairwise_recordOf
  rintro fields rfl
  have hacross : ∀ m ∈ ["type_name"], ∀ n ∈ ["named_arguments"],
      fieldNames.idxOf m < fieldNames.idxOf n := by decide
  refine (((Reader.ordered_required fun v _ => (Reader.single_text v).pairwise _).map mk).seq
    (Reader.ordered_optional fun v hv => ?_) fun m hm n hn p q => .field (hacross m hm n hn)).1
  refine Reader.pairwise_dictionary ?_ ?_ ?_
  · rintro entries rfl f hf
    exact Argument.pairwise_places_read f.2 fun k l hkl => .alternative hkl
  · rintro entries rfl
    exact (hd.of_field? hv).nodup
  · rintro entries rfl m n p q hmn
    exact .argument hv hmn

end Attribute

/-! ## Candidates -/

namespace Candidate

variable {d : Datum}

theorem explained_read (d : Datum) : (read d).Explained := by
  refine Reader.explained_recordOf (fun fields => ?_) d
  refine ((((((Reader.explained_required ?_).map mk).seq (Reader.explained_optional ?_ [])).seq
    (Reader.explained_optional ?_ [])).seq (Reader.explained_optional ?_ .class)).seq
    (Reader.explained_optional ?_ false)).seq (Reader.explained_optional ?_ none)
  · exact fun v => (Reader.single_text v).explained
  · exact fun v => (Reader.explained_set (fun e => (Reader.single_text e).explained) v).map nameSet
  · exact Reader.explained_tuple Attribute.explained_read
  · exact fun v => (TypeKind.single_read v).explained
  · exact fun v => (Reader.single_boolean v).explained
  · exact fun v => (Reader.single_optionalText v).explained

theorem places_capabilities (v : Datum) :
    ((Reader.set Reader.text v).map nameSet).places = (Reader.tuple Reader.text v).places :=
  (Checked.places_map nameSet _).trans (Reader.places_set v)

theorem mem_places_capabilities {fields : List (String × Datum)} (hd : Datum.IsJson (.record fields))
    {p : Place} :
    p ∈ (optional fields "implemented_capabilities" []
        fun v => (Reader.set Reader.text v).map nameSet).places ↔
      (∃ v, Datum.field? fields "implemented_capabilities" = some v ∧ (∀ items, v ≠ .list items) ∧
        p = [.key "implemented_capabilities"]) ∨
        ∃ items i e, Datum.field? fields "implemented_capabilities" = some (.list items) ∧
          items[i]? = some e ∧ ¬ e.IsText ∧ p = [.key "implemented_capabilities", .index i] := by
  have hplaces : (optional fields "implemented_capabilities" []
      fun v => (Reader.set Reader.text v).map nameSet).places =
      (optional fields "implemented_capabilities" [] (Reader.tuple Reader.text)).places := by
    simp only [Reader.places_optional, places_capabilities]
  rw [hplaces, Reader.mem_places_optional_tuple]
  refine or_congr_right ⟨?_, ?_⟩
  · rintro ⟨items, i, e, q, hv, he, hq, rfl⟩
    have hjson := (hd.of_field? hv).of_mem (List.mem_of_getElem? he)
    obtain ⟨rfl, h⟩ := (Reader.mem_places_text hjson).mp hq
    exact ⟨items, i, e, hv, he, h, rfl⟩
  · rintro ⟨items, i, e, hv, he, h, rfl⟩
    have hjson := (hd.of_field? hv).of_mem (List.mem_of_getElem? he)
    exact ⟨items, i, e, [], hv, he, (Reader.mem_places_text hjson).mpr ⟨rfl, h⟩, rfl⟩

theorem mem_places_attributes {fields : List (String × Datum)} (hd : Datum.IsJson (.record fields))
    {p : Place} :
    p ∈ (optional fields "annotations" [] (Reader.tuple Attribute.read)).places ↔
      (∃ v, Datum.field? fields "annotations" = some v ∧ (∀ items, v ≠ .list items) ∧
        p = [.key "annotations"]) ∨
        ∃ items i e q, Datum.field? fields "annotations" = some (.list items) ∧ items[i]? = some e ∧
          Attribute.Offends e q ∧ p = .key "annotations" :: .index i :: q := by
  rw [Reader.mem_places_optional_tuple]
  refine or_congr_right ⟨?_, ?_⟩
  · rintro ⟨items, i, e, q, hv, he, hq, rfl⟩
    have hjson := (hd.of_field? hv).of_mem (List.mem_of_getElem? he)
    exact ⟨items, i, e, q, hv, he, (Attribute.mem_places_read hjson).mp hq, rfl⟩
  · rintro ⟨items, i, e, q, hv, he, hq, rfl⟩
    have hjson := (hd.of_field? hv).of_mem (List.mem_of_getElem? he)
    exact ⟨items, i, e, q, hv, he, (Attribute.mem_places_read hjson).mpr hq, rfl⟩

theorem mem_places_record {fields : List (String × Datum)} (hd : Datum.IsJson (.record fields)) {p : Place} :
    p ∈ (read (.record fields)).places ↔
      p ∈ (required fields "name" Reader.text).places ∨
      p ∈ (optional fields "implemented_capabilities" []
        fun v => (Reader.set Reader.text v).map nameSet).places ∨
      p ∈ (optional fields "annotations" [] (Reader.tuple Attribute.read)).places ∨
      (∃ v, Datum.field? fields "kind" = some v ∧ ¬ TypeKind.Admissible v ∧ p = [.key "kind"]) ∨
      (∃ v, Datum.field? fields "is_generated" = some v ∧ ¬ (∃ b, v.StandsFor b) ∧
        p = [.key "is_generated"]) ∨
      ∃ v, Datum.field? fields "location" = some v ∧ ¬ (v = .null ∨ v.IsText) ∧ p = [.key "location"] := by
  rw [read, Reader.recordOf]
  simp only [Checked.places_seq, Checked.places_map, List.mem_append, or_assoc]
  rw [Reader.mem_places_optional_of_single fun v _ q => TypeKind.mem_places_read,
    Reader.mem_places_optional_of_single fun v hv q => Reader.mem_places_boolean (hd.of_field? hv),
    Reader.mem_places_optional_of_single fun v hv q => Reader.mem_places_optionalText (hd.of_field? hv)]

theorem mem_places_read (hd : d.IsJson) {p : Place} : p ∈ (read d).places ↔ Offends d p := by
  by_cases hshape : ∃ fields, d = .record fields
  · obtain ⟨fields, rfl⟩ := hshape
    rw [mem_places_record hd, Reader.mem_places_required_text hd, mem_places_capabilities hd,
      mem_places_attributes hd]
    constructor
    · rintro (⟨hnone | ⟨v, hv, h⟩, rfl⟩ | (⟨v, hv, h, rfl⟩ | ⟨items, i, e, hv, he, h, rfl⟩) |
        (⟨v, hv, h, rfl⟩ | ⟨items, i, e, q, hv, he, h, rfl⟩) | ⟨v, hv, h, rfl⟩ | ⟨v, hv, h, rfl⟩ |
        ⟨v, hv, h, rfl⟩)
      · exact .unnamed hnone
      · exact .name hv h
      · exact .capabilities hv h
      · exact .capability hv he h
      · exact .attributes hv h
      · exact .within hv he h
      · exact .kind hv h
      · exact .isGenerated hv h
      · exact .location hv h
    · intro h
      cases h with
      | shape h => exact absurd rfl (h fields)
      | unnamed hnone => exact Or.inl ⟨Or.inl hnone, rfl⟩
      | name hv h => exact Or.inl ⟨Or.inr ⟨_, hv, h⟩, rfl⟩
      | capabilities hv h => exact Or.inr (Or.inl (Or.inl ⟨_, hv, h, rfl⟩))
      | capability hv he h => exact Or.inr (Or.inl (Or.inr ⟨_, _, _, hv, he, h, rfl⟩))
      | attributes hv h => exact Or.inr (Or.inr (Or.inl (Or.inl ⟨_, hv, h, rfl⟩)))
      | within hv he h => exact Or.inr (Or.inr (Or.inl (Or.inr ⟨_, _, _, _, hv, he, h, rfl⟩)))
      | kind hv h => exact Or.inr (Or.inr (Or.inr (Or.inl ⟨_, hv, h, rfl⟩)))
      | isGenerated hv h => exact Or.inr (Or.inr (Or.inr (Or.inr (Or.inl ⟨_, hv, h, rfl⟩))))
      | location hv h => exact Or.inr (Or.inr (Or.inr (Or.inr (Or.inr ⟨_, hv, h, rfl⟩))))
  · have hnone : ∀ fields, d ≠ .record fields := fun fields h => hshape ⟨fields, h⟩
    rw [read, Reader.mem_places_recordOf]
    constructor
    · rintro (⟨rfl, -⟩ | ⟨fields, hfields, -⟩)
      · exact .shape hnone
      · exact absurd hfields (hnone fields)
    · intro h
      cases h with
      | shape h => exact Or.inl ⟨rfl, h⟩
      | _ => exact absurd rfl (hnone _)

theorem pairwise_places_read (hd : d.IsJson) : (read d).places.Pairwise (Before d) := by
  apply Reader.pairwise_recordOf
  rintro fields rfl
  have hacross {ms ns : List String} (h : ∀ m ∈ ms, ∀ n ∈ ns, fieldNames.idxOf m < fieldNames.idxOf n) :
      ∀ m ∈ ms, ∀ n ∈ ns, ∀ p q : Place, Before (.record fields) (.key m :: p) (.key n :: q) :=
    fun m hm n hn p q => .field (h m hm n hn)
  refine (((((((Reader.ordered_required ?_).map mk).seq (Reader.ordered_optional ?_)
    (hacross (by decide))).seq (Reader.ordered_optional ?_) (hacross (by decide))).seq
    (Reader.ordered_optional ?_) (hacross (by decide))).seq (Reader.ordered_optional ?_)
    (hacross (by decide))).seq (Reader.ordered_optional ?_) (hacross (by decide))).1
  · exact fun v _ => (Reader.single_text v).pairwise _
  · intro v hv
    rw [places_capabilities]
    refine Reader.pairwise_tuple (fun _ _ e _ _ => (Reader.single_text e).pairwise _) ?_
    exact fun i j p q hij => .item hij
  · intro v hv
    refine Reader.pairwise_tuple ?_ fun i j p q hij => .item hij
    rintro items i e rfl he
    have hjson := (hd.of_field? hv).of_mem (List.mem_of_getElem? he)
    exact (Attribute.pairwise_places_read hjson).imp fun h => .within hv he h
  · exact fun v _ => (TypeKind.single_read v).pairwise _
  · exact fun v _ => (Reader.single_boolean v).pairwise _
  · exact fun v _ => (Reader.single_optionalText v).pairwise _

/-- What is admissible is accepted, and taken as it stands. In anything else each offending place is found
exactly once, and what is found comes in the order of the places. -/
theorem reads_exactly (hd : d.IsJson) :
    ((∃ c, read d = .ok c) ↔ Admissible d) ∧
    (∀ c, read d = .ok c ↔ TakenFrom d c) ∧
    ∀ issues, read d = .bad issues →
      issues ≠ [] ∧ (issues.map Issue.place).Nodup ∧
        (∀ p, p ∈ issues.map Issue.place ↔ Offends d p) ∧
        (issues.map Issue.place).Pairwise (Before d) := by
  refine ⟨?_, fun c => read_eq_ok_iff hd, fun issues hbad => ?_⟩
  · rw [exists_congr fun c => read_eq_ok_iff hd]
    exact exists_takenFrom_iff
  · have hplaces : (read d).places = issues.map Issue.place := congrArg Checked.places hbad
    have horder : (issues.map Issue.place).Pairwise (Before d) := hplaces ▸ pairwise_places_read hd
    refine ⟨?_, ?_, fun p => ?_, horder⟩
    · rintro rfl
      exact explained_read d hbad
    · refine horder.imp ?_
      rintro p _ h rfl
      exact h.asymm h
    · rw [← hplaces]
      exact mem_places_read hd

/-- No name, a version that is a floating-point number, an annotation that is null, a kind in upper case. -/
def misspelt : Datum :=
  .record [("kind", .text "Class"),
    ("annotations", .list [
      .record [("named_arguments", .record [("version", .float (.finite 1 0)), ("id", .int 1)])],
      .null]),
    ("is_generated", .int 2)]

theorem reads_exactly_of_misspelt :
    misspelt.IsJson ∧ (∀ c, read misspelt ≠ .ok c) ∧ ¬ Admissible misspelt ∧
    ∀ p, Offends misspelt p ↔ p ∈ [
      [.key "name"],
      [.key "annotations", .index 0, .key "type_name"],
      [.key "annotations", .index 0, .key "named_arguments", .key "version", .key "str"],
      [.key "annotations", .index 0, .key "named_arguments", .key "version", .key "int"],
      [.key "annotations", .index 0, .key "named_arguments", .key "version", .key "bool"],
      [.key "annotations", .index 1], [.key "kind"], [.key "is_generated"]] := by
  have hjson : misspelt.IsJson := by
    have harguments : Datum.IsJson
        (.record [("version", .float (.finite 1 0)), ("id", .int 1)]) :=
      .record (by decide)
        (List.forall_mem_cons.mpr ⟨.float _, List.forall_mem_singleton.mpr (.int 1)⟩)
    refine .record (by decide) (List.forall_mem_cons.mpr ⟨.text _, List.forall_mem_cons.mpr
      ⟨.list ?_, List.forall_mem_singleton.mpr (.int 2)⟩⟩)
    exact List.forall_mem_cons.mpr ⟨.record (by decide) (List.forall_mem_singleton.mpr harguments),
      List.forall_mem_singleton.mpr .null⟩
  have hplaces : (read misspelt).places = [
      [.key "name"],
      [.key "annotations", .index 0, .key "type_name"],
      [.key "annotations", .index 0, .key "named_arguments", .key "version", .key "str"],
      [.key "annotations", .index 0, .key "named_arguments", .key "version", .key "int"],
      [.key "annotations", .index 0, .key "named_arguments", .key "version", .key "bool"],
      [.key "annotations", .index 1], [.key "kind"], [.key "is_generated"]] := by
    decide +kernel
  obtain ⟨haccepted, -, hfound⟩ := reads_exactly hjson
  cases hread : read misspelt with
  | ok c =>
    rw [hread] at hplaces
    cases hplaces
  | bad issues =>
    obtain ⟨-, -, hoffends, -⟩ := hfound issues hread
    refine ⟨hjson, nofun, ?_, fun p => ?_⟩
    · intro h
      obtain ⟨c, hc⟩ := haccepted.mpr h
      cases hread.symm.trans hc
    · rw [← hoffends p, ← hplaces, hread]
      rfl

end Candidate

end SerialAudit

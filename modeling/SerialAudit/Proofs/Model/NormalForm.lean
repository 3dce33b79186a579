import SerialAudit.Proofs.Model.Reading

/-! Values that are written and read again.

* `Reader.Restores` : a reader gives back whatever a writer has written;
* `Instance.WrittenAs` : the written forms of an instance; a set may be listed in any order.

However freely a value was spelled, what comes of reading it is written in the one spelling that is taken
as it stands. So an instance that was read is read again from whatever form it is written in
(`read_of_writtenAs`). -/
namespace SerialAudit
set_option autoImplicit false

namespace Reader

variable {α : Type} {fields : List (String × Datum)} {name : String} {read : Reader α} {d : Datum} {a : α}

theorem required_of_field? (hd : Datum.field? fields name = some d) (ha : read d = .ok a) :
    required fields name read = .ok a :=
  required_eq_ok_iff.mpr ⟨d, hd, ha⟩

theorem optional_of_field? {default : α} (hd : Datum.field? fields name = some d) (ha : read d = .ok a) :
    optional fields name default read = .ok a :=
  optional_eq_ok_iff.mpr (Or.inr ⟨d, hd, ha⟩)

def Restores (read : Reader α) (write : α → Datum) : Prop := ∀ a, read (write a) = .ok a

variable {write : α → Datum}

theorem Restores.elements (h : read.Restores write) (as : List α) :
    Reader.elements read 0 (as.map write) = .ok as :=
  elements_eq_ok_iff.mpr (List.forall₂_map_left_iff.mpr (List.forall₂_same.mpr fun a _ => h a))

theorem Restores.members (h : read.Restores write) (as : List (String × α)) :
    Reader.members read (as.map fun p => (p.1, write p.2)) = .ok as :=
  members_eq_ok_iff.mpr
    (List.forall₂_map_left_iff.mpr (List.forall₂_same.mpr fun p _ => ⟨rfl, h p.2⟩))

theorem Restores.list (h : read.Restores write) : (Reader.list read).Restores fun as => .list (as.map write) :=
  h.elements

theorem Restores.dictionary (h : read.Restores write) :
    (Reader.dictionary read).Restores fun as => .record (as.map fun p => (p.1, write p.2)) :=
  h.members

theorem restores_text : text.Restores .text := fun _ => rfl

theorem restores_integer : integer.Restores .int := fun _ => rfl

theorem restores_optionalText : optionalText.Restores Datum.ofText? := by
  intro o
  cases o <;> rfl

end Reader

open Reader (required_of_field? optional_of_field? restores_text restores_integer restores_optionalText)

/-! ## Models -/

theorem Argument.restores : read.Restores toDatum := by
  intro x
  cases x <;> rfl

theorem Rule.restores : read.Restores fun r => .text r.name := by
  intro r
  cases r <;> rfl

theorem Severity.restores : read.Restores fun s => .text s.name := by
  intro s
  cases s <;> rfl

theorem TypeKind.restores : read.Restores fun k => .text k.name := by
  intro k
  cases k <;> rfl

theorem Classification.Status.restores : read.Restores fun s => .text s.name := by
  intro s
  cases s <;> rfl

theorem Attribute.restores : read.Restores toDatum := fun a =>
  read_record_iff.mpr ⟨rfl, optional_of_field? rfl (Argument.restores.members a.arguments)⟩

theorem Classification.restores : read.Restores toDatum := by
  intro c
  refine read_record_iff.mpr ⟨required_of_field? rfl (Status.restores c.status),
    optional_of_field? rfl ?_⟩
  cases hattr : c.attr with
  | none => rfl
  | some a =>
    change Checked.map some (Attribute.read a.toDatum) = _
    rw [Attribute.restores a]
    rfl

theorem Diagnostic.restores : read.Restores toDatum := fun d =>
  read_record_iff.mpr ⟨required_of_field? rfl (Rule.restores d.rule), rfl,
    optional_of_field? rfl (restores_optionalText d.fieldName)⟩

theorem Descriptor.restores : read.Restores toDatum := fun d =>
  read_record_iff.mpr ⟨required_of_field? rfl (Rule.restores d.rule), rfl, rfl, rfl,
    optional_of_field? rfl (Severity.restores d.severity), rfl, rfl⟩

theorem Reported.restores : read.Restores toDatum := fun r =>
  read_record_iff.mpr ⟨rfl, required_of_field? rfl (Rule.restores r.rule),
    required_of_field? rfl (Severity.restores r.severity), rfl, rfl, rfl,
    optional_of_field? rfl (restores_optionalText r.fieldName),
    optional_of_field? rfl (restores_optionalText r.location)⟩

theorem Report.restores : read.Restores toDatum := fun r =>
  read_record_iff.mpr ⟨rfl, rfl, optional_of_field? rfl (Reported.restores.list r.diagnostics),
    optional_of_field? rfl (restores_integer.list.dictionary r.registered)⟩

/-! ## Candidates -/

/-- The capabilities of a candidate are a set, which is read back from any listing of it. -/
theorem Candidate.read_listed {c : Candidate} {names : List String} (h : nameSet names = c.capabilities) :
    read { c with capabilities := names }.toDatum = .ok c := by
  refine read_record_iff.mpr ⟨rfl, optional_of_field? rfl ?_,
    optional_of_field? rfl (Attribute.restores.elements c.attributes),
    optional_of_field? rfl (TypeKind.restores c.kind), rfl,
    optional_of_field? rfl (restores_optionalText c.location)⟩
  change Checked.map nameSet (Reader.elements Reader.text 0 (names.map .text)) = _
  rw [restores_text.elements names, ← h]
  rfl

theorem Candidate.capabilities_of_read {d : Datum} {c : Candidate} (h : read d = .ok c) :
    c.capabilities.Pairwise (· < ·) := by
  cases d with
  | record fields =>
    obtain ⟨-, hcapabilities, -⟩ := read_record_iff.mp h
    rcases Reader.optional_eq_ok_iff.mp hcapabilities with ⟨-, hnone⟩ | ⟨v, -, hread⟩
    · rw [hnone]
      exact List.Pairwise.nil
    · obtain ⟨names, -, hset⟩ := Checked.map_eq_ok_iff.mp hread
      exact hset ▸ pairwise_nameSet names
  | _ => cases h

/-! ## Instances -/

inductive Instance.WrittenAs : Instance → Datum → Prop
  | whole (i : Instance) : WrittenAs i i.toDatum
  | listed (c : Candidate) {names : List String} (h : names.Perm c.capabilities) :
    WrittenAs (.candidate c) { c with capabilities := names }.toDatum

theorem Instance.read_of_writtenAs {model : Model} {d e : Datum} {i : Instance}
    (h : read model d = .ok i) (he : i.WrittenAs e) : read model e = .ok i := by
  cases model with
  | attr =>
    obtain ⟨a, -, rfl⟩ := Checked.map_eq_ok_iff.mp h
    cases he
    exact Checked.map_eq_ok_iff.mpr ⟨a, Attribute.restores a, rfl⟩
  | candidate =>
    obtain ⟨c, hc, rfl⟩ := Checked.map_eq_ok_iff.mp h
    have hascending := Candidate.capabilities_of_read hc
    obtain ⟨names, hnames, rfl⟩ :
        ∃ names, names.Perm c.capabilities ∧ e = { c with capabilities := names }.toDatum := by
      cases he with
      | whole => exact ⟨c.capabilities, .refl _, rfl⟩
      | listed _ hnames => exact ⟨_, hnames, rfl⟩
    have hset : nameSet names = c.capabilities :=
      (nameSet_eq_iff names _).mpr ⟨hascending, fun s => hnames.mem_iff.symm⟩
    exact Checked.map_eq_ok_iff.mpr ⟨c, Candidate.read_listed hset, rfl⟩
  | classification =>
    obtain ⟨c, -, rfl⟩ := Checked.map_eq_ok_iff.mp h
    cases he
    exact Checked.map_eq_ok_iff.mpr ⟨c, Classification.restores c, rfl⟩
  | diagnostic =>
    obtain ⟨d, -, rfl⟩ := Checked.map_eq_ok_iff.mp h
    cases he
    exact Checked.map_eq_ok_iff.mpr ⟨d, Diagnostic.restores d, rfl⟩
  | descriptor =>
    obtain ⟨d, -, rfl⟩ := Checked.map_eq_ok_iff.mp h
    cases he
    exact Checked.map_eq_ok_iff.mpr ⟨d, Descriptor.restores d, rfl⟩
  | reported =>
    obtain ⟨r, -, rfl⟩ := Checked.map_eq_ok_iff.mp h
    cases he
    exact Checked.map_eq_ok_iff.mpr ⟨r, Reported.restores r, rfl⟩
  | report =>
    obtain ⟨r, -, rfl⟩ := Checked.map_eq_ok_iff.mp h
    cases he
    exact Checked.map_eq_ok_iff.mpr ⟨r, Report.restores r, rfl⟩

end SerialAudit

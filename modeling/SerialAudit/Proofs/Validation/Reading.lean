import Mathlib.Data.List.Forall2
import SerialAudit.Validation.Scalar

/-! What readers of several parts accept: a list item by item, a record field by field. -/
namespace SerialAudit
set_option autoImplicit false

namespace Checked

variable {α β : Type}

theorem map_eq_ok_iff {f : α → β} {x : Checked α} {b : β} :
    f <$> x = ok b ↔ ∃ a, x = ok a ∧ f a = b := by
  cases x <;> simp

theorem under_eq_ok_iff {step : Issue.Step} {x : Checked α} {a : α} :
    x.under step = ok a ↔ x = ok a := by
  cases x <;> simp [under]

end Checked

namespace Reader

variable {α β : Type} {read : Reader α} {fields : List (String × Datum)} {name : String}

theorem elements_eq_ok_iff {start : Nat} {items : List Datum} {as : List α} :
    elements read start items = .ok as ↔ List.Forall₂ (fun d a => read d = .ok a) items as := by
  induction items generalizing start as with
  | nil =>
    rw [List.forall₂_nil_left_iff]
    exact ⟨fun h => (Checked.ok.inj h).symm, fun h => congrArg Checked.ok h.symm⟩
  | cons d ds ih =>
    rw [elements, Checked.seq_eq_ok_iff, List.forall₂_cons_left_iff]
    constructor
    · rintro ⟨put, rest, hput, hrest, rfl⟩
      obtain ⟨a, ha, rfl⟩ := Checked.map_eq_ok_iff.mp hput
      exact ⟨a, rest, Checked.under_eq_ok_iff.mp ha, ih.mp hrest, rfl⟩
    · rintro ⟨a, rest, ha, hrest, rfl⟩
      exact ⟨_, rest, Checked.map_eq_ok_iff.mpr ⟨a, Checked.under_eq_ok_iff.mpr ha, rfl⟩, ih.mpr hrest, rfl⟩

theorem members_eq_ok_iff {as : List (String × α)} :
    members read fields = .ok as ↔
      List.Forall₂ (fun f a => f.1 = a.1 ∧ read f.2 = .ok a.2) fields as := by
  induction fields generalizing as with
  | nil =>
    rw [List.forall₂_nil_left_iff]
    exact ⟨fun h => (Checked.ok.inj h).symm, fun h => congrArg Checked.ok h.symm⟩
  | cons f fs ih =>
    obtain ⟨name, d⟩ := f
    rw [members, Checked.seq_eq_ok_iff, List.forall₂_cons_left_iff]
    constructor
    · rintro ⟨put, rest, hput, hrest, rfl⟩
      obtain ⟨p, hp, rfl⟩ := Checked.map_eq_ok_iff.mp hput
      obtain ⟨a, ha, rfl⟩ := Checked.map_eq_ok_iff.mp hp
      exact ⟨(name, a), rest, ⟨rfl, Checked.under_eq_ok_iff.mp ha⟩, ih.mp hrest, rfl⟩
    · rintro ⟨⟨name', a⟩, rest, ⟨rfl, ha⟩, hrest, rfl⟩
      exact ⟨_, rest, Checked.map_eq_ok_iff.mpr ⟨(name, a),
        Checked.map_eq_ok_iff.mpr ⟨a, Checked.under_eq_ok_iff.mpr ha, rfl⟩, rfl⟩, ih.mpr hrest, rfl⟩

theorem required_eq_ok_iff {a : α} :
    required fields name read = .ok a ↔ ∃ d, Datum.field? fields name = some d ∧ read d = .ok a := by
  rw [required]
  cases Datum.field? fields name with
  | none => simp [Checked.fail, Checked.under]
  | some d => simp [Checked.under_eq_ok_iff]

theorem optional_eq_ok_iff {default a : α} :
    optional fields name default read = .ok a ↔
      (Datum.field? fields name = none ∧ a = default) ∨
        ∃ d, Datum.field? fields name = some d ∧ read d = .ok a := by
  rw [optional]
  cases Datum.field? fields name with
  | none => simp [eq_comm]
  | some d => simp [Checked.under_eq_ok_iff]

theorem choice_eq_ok_iff {options : List (String × α)} {d : Datum} {a : α} :
    choice options d = .ok a ↔ ∃ s, d = .text s ∧ options.lookup s = some a := by
  cases d with
  | text s =>
    rw [choice]
    cases hs : options.lookup s with
    | some a' => simp [hs]
    | none =>
      dsimp only
      split_ifs <;> simp [Checked.fail, hs]
  | _ => simp [choice, Checked.fail]

end Reader
end SerialAudit

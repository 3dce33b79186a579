import Mathlib.Data.List.Nodup
import SerialAudit.Validation.Scalar

/-! Where readers find something wrong.

* `Checked.places` : the places of the findings, in their order;
* `Checked.Single` : at most one finding, and that about the whole input;
* `Checked.Explained` : no value is refused without a finding;
* `Checked.Ordered` : the findings lie in some fields, and follow one another as an order says.

The findings of a reader of several parts are those of its parts, one part after the other. So it is
said here once where they are (`mem_places_recordOf` and the lemmas after it) and which of two comes first
(`Ordered.seq`, `pairwise_tuple`, `pairwise_dictionary`). -/
namespace SerialAudit
set_option autoImplicit false

/-- The way to a part of the input. -/
abbrev Issue.Place := List Issue.Step

open Issue (Place Step)

namespace Checked

variable {α β : Type} {x : Checked α}

def places : Checked α → List Place
  | ok _ => []
  | bad issues => issues.map Issue.place

theorem places_map (f : α → β) (x : Checked α) : (f <$> x).places = x.places := by
  cases x <;> rfl

theorem places_seq (f : Checked (α → β)) (x : Checked α) : (f <*> x).places = f.places ++ x.places := by
  cases f with
  | ok f => cases x <;> rfl
  | bad issues =>
    cases x with
    | ok a => exact (List.append_nil _).symm
    | bad more => exact List.map_append

theorem places_under (step : Step) (x : Checked α) :
    (x.under step).places = x.places.map (step :: ·) := by
  cases x with
  | ok a => rfl
  | bad issues =>
    change (issues.map _).map _ = (issues.map _).map _
    rw [List.map_map, List.map_map]
    rfl

/-! ## Single findings -/

inductive Single : Checked α → Prop
  | ok (a : α) : Single (ok a)
  | fail (cause : Issue.Cause) : Single (fail cause)

theorem Single.map (f : α → β) (hx : x.Single) : (x.map f).Single := by
  cases hx with
  | ok a => exact .ok _
  | fail cause => exact .fail cause

theorem Single.mem_places_iff (hx : x.Single) {p : Place} :
    p ∈ x.places ↔ p = [] ∧ ¬ ∃ a, x = Checked.ok a := by
  cases hx with
  | ok a => exact ⟨fun h => (List.not_mem_nil h).elim, fun h => absurd ⟨a, rfl⟩ h.2⟩
  | fail cause =>
    rw [and_iff_left (by rintro ⟨a, ⟨⟩⟩)]
    exact List.mem_singleton

theorem Single.pairwise (hx : x.Single) (R : Place → Place → Prop) : x.places.Pairwise R := by
  cases hx with
  | ok a => exact List.Pairwise.nil
  | fail cause => exact List.pairwise_singleton R []

/-! ## Refusals -/

def Explained (x : Checked α) : Prop := x ≠ bad []

theorem Single.explained (hx : x.Single) : x.Explained := by
  cases hx <;> intro h <;> cases h

theorem Explained.map (f : α → β) (hx : x.Explained) : (f <$> x).Explained := by
  cases x with
  | ok a => exact (Single.ok (f a)).explained
  | bad issues => exact fun h => hx (congrArg bad (bad.inj h))

theorem Explained.seq {f : Checked (α → β)} (hf : f.Explained) (hx : x.Explained) :
    (f <*> x).Explained := by
  cases f with
  | ok f =>
    cases x with
    | ok a => exact (Single.ok (f a)).explained
    | bad more => exact fun h => hx (congrArg bad (bad.inj h))
  | bad issues =>
    cases x with
    | ok a => exact fun h => hf (congrArg bad (bad.inj h))
    | bad more => exact fun h => hf (congrArg bad (List.append_eq_nil_iff.mp (bad.inj h)).1)

theorem Explained.under (step : Step) (hx : x.Explained) : (x.under step).Explained := by
  cases x with
  | ok a => exact (Single.ok a).explained
  | bad issues => exact fun h => hx (congrArg bad (List.map_eq_nil_iff.mp (bad.inj h)))

/-! ## Findings in order -/

def Ordered (R : Place → Place → Prop) (names : List String) (x : Checked α) : Prop :=
  x.places.Pairwise R ∧ ∀ p ∈ x.places, ∃ name ∈ names, ∃ q, p = .key name :: q

variable {R : Place → Place → Prop} {ms ns : List String}

theorem Ordered.map (f : α → β) (hx : x.Ordered R ns) : (f <$> x).Ordered R ns := by
  rw [Ordered, places_map]
  exact hx

theorem Ordered.seq {f : Checked (α → β)} (hf : f.Ordered R ms) (hx : x.Ordered R ns)
    (hacross : ∀ m ∈ ms, ∀ n ∈ ns, ∀ p q, R (.key m :: p) (.key n :: q)) :
    (f <*> x).Ordered R (ms ++ ns) := by
  rw [Ordered, places_seq]
  constructor
  · refine List.pairwise_append.mpr ⟨hf.1, hx.1, fun p hp q hq => ?_⟩
    obtain ⟨m, hm, p', rfl⟩ := hf.2 p hp
    obtain ⟨n, hn, q', rfl⟩ := hx.2 q hq
    exact hacross m hm n hn p' q'
  · intro p hp
    rcases List.mem_append.mp hp with hp | hp
    · obtain ⟨m, hm, h⟩ := hf.2 p hp
      exact ⟨m, List.mem_append_left ns hm, h⟩
    · obtain ⟨n, hn, h⟩ := hx.2 p hp
      exact ⟨n, List.mem_append_right ms hn, h⟩

end Checked

namespace Reader

open Checked (Explained Ordered Single)

variable {α : Type} {read : Reader α} {fields : List (String × Datum)} {name : String}

theorem explained_required (h : ∀ d, (read d).Explained) : (required fields name read).Explained := by
  rw [required]
  cases Datum.field? fields name with
  | none => exact (Single.fail .missing).explained.under _
  | some d => exact (h d).under _

theorem explained_optional (h : ∀ d, (read d).Explained) (default : α) :
    (optional fields name default read).Explained := by
  rw [optional]
  cases Datum.field? fields name with
  | none => exact (Single.ok default).explained
  | some d => exact (h d).under _

theorem explained_elements (h : ∀ d, (read d).Explained) (start : Nat) (items : List Datum) :
    (elements read start items).Explained := by
  induction items generalizing start with
  | nil => exact (Single.ok []).explained
  | cons d ds ih => exact (((h d).under _).map _).seq (ih _)

theorem explained_members (h : ∀ d, (read d).Explained) : (members read fields).Explained := by
  induction fields with
  | nil => exact (Single.ok []).explained
  | cons f fs ih => exact ((((h f.2).under _).map _).map _).seq ih

theorem explained_tuple (h : ∀ d, (read d).Explained) (d : Datum) : (tuple read d).Explained := by
  cases d with
  | list items => exact explained_elements h 0 items
  | _ => exact (Single.fail .notTuple).explained

theorem explained_set (h : ∀ d, (read d).Explained) (d : Datum) : (set read d).Explained := by
  cases d with
  | list items => exact explained_elements h 0 items
  | _ => exact (Single.fail .notSet).explained

theorem explained_dictionary (h : ∀ d, (read d).Explained) (d : Datum) :
    (dictionary read d).Explained := by
  cases d with
  | record fields => exact explained_members h
  | _ => exact (Single.fail .notDictionary).explained

theorem explained_recordOf {model : String} {part : List (String × Datum) → Checked α}
    (h : ∀ fields, (part fields).Explained) (d : Datum) : (recordOf model part d).Explained := by
  cases d with
  | record fields => exact h fields
  | _ => exact (Single.fail (.notRecord model)).explained

theorem single_choice (options : List (String × α)) (d : Datum) : (choice options d).Single := by
  cases d with
  | text s =>
    rw [choice]
    cases options.lookup s with
    | some a => exact .ok a
    | none =>
      dsimp only
      split_ifs
      · exact .fail _
      · exact .fail _
  | _ => exact .fail _

/-! ## Places in fields -/

theorem mem_places_recordOf {model : String} {part : List (String × Datum) → Checked α} {d : Datum}
    {p : Place} :
    p ∈ (recordOf model part d).places ↔
      (p = [] ∧ ∀ fields, d ≠ .record fields) ∨ ∃ fields, d = .record fields ∧ p ∈ (part fields).places := by
  cases d <;> simp [recordOf, Checked.places, Checked.fail, Issue.here]

theorem places_required :
    (required fields name read).places =
      (((Datum.field? fields name).map fun d => (read d).places).getD [[]]).map (Step.key name :: ·) := by
  rw [required]
  cases Datum.field? fields name with
  | none => rfl
  | some d => exact Checked.places_under _ _

theorem places_optional (default : α) :
    (optional fields name default read).places =
      (((Datum.field? fields name).map fun d => (read d).places).getD []).map (Step.key name :: ·) := by
  rw [optional]
  cases Datum.field? fields name with
  | none => rfl
  | some d => exact Checked.places_under _ _

theorem mem_places_required {p : Place} :
    p ∈ (required fields name read).places ↔
      (Datum.field? fields name = none ∧ p = [.key name]) ∨
        ∃ d q, Datum.field? fields name = some d ∧ q ∈ (read d).places ∧ p = .key name :: q := by
  rw [places_required, List.mem_map]
  cases Datum.field? fields name with
  | none => simp [eq_comm]
  | some d => simp [eq_comm]

theorem mem_places_optional {default : α} {p : Place} :
    p ∈ (optional fields name default read).places ↔
      ∃ d q, Datum.field? fields name = some d ∧ q ∈ (read d).places ∧ p = .key name :: q := by
  rw [places_optional, List.mem_map]
  cases Datum.field? fields name with
  | none => simp
  | some d => simp [eq_comm]

/-! ## Places in collections -/

theorem places_elements (start : Nat) (items : List Datum) :
    (elements read start items).places =
      (items.zipIdx start).flatMap fun x => (read x.1).places.map (Step.index x.2 :: ·) := by
  induction items generalizing start with
  | nil => rfl
  | cons d ds ih =>
    rw [elements, Checked.places_seq, Checked.places_map, Checked.places_under, ih, List.zipIdx_cons,
      List.flatMap_cons]

theorem places_members :
    (members read fields).places =
      fields.flatMap fun f => (read f.2).places.map (Step.key f.1 :: ·) := by
  induction fields with
  | nil => rfl
  | cons f fs ih =>
    obtain ⟨name, d⟩ := f
    rw [members, Checked.places_seq, Checked.places_map, ih, List.flatMap_cons]
    congr 1
    exact (Checked.places_map _ _).trans (Checked.places_under _ _)

theorem places_set (d : Datum) : (set read d).places = (tuple read d).places := by
  cases d <;> rfl

theorem mem_places_tuple {d : Datum} {p : Place} :
    p ∈ (tuple read d).places ↔
      (p = [] ∧ ∀ items, d ≠ .list items) ∨
        ∃ items i e q, d = .list items ∧ items[i]? = some e ∧ q ∈ (read e).places ∧ p = .index i :: q := by
  cases d with
  | list items =>
    change p ∈ (elements read 0 items).places ↔ _
    rw [places_elements, List.mem_flatMap]
    constructor
    · rintro ⟨⟨e, i⟩, hi, hp⟩
      obtain ⟨q, hq, rfl⟩ := List.mem_map.mp hp
      exact Or.inr ⟨items, i, e, q, rfl, List.mk_mem_zipIdx_iff_getElem?.mp hi, hq, rfl⟩
    · rintro (⟨-, h⟩ | ⟨items, i, e, q, ⟨⟩, hi, hq, rfl⟩)
      · exact absurd rfl (h items)
      · exact ⟨(e, i), List.mk_mem_zipIdx_iff_getElem?.mpr hi, List.mem_map_of_mem hq⟩
  | _ => simp [tuple, Checked.places, Checked.fail, Issue.here]

theorem mem_places_dictionary {d : Datum} {p : Place} :
    p ∈ (dictionary read d).places ↔
      (p = [] ∧ ∀ fields, d ≠ .record fields) ∨
        ∃ fields f q, d = .record fields ∧ f ∈ fields ∧ q ∈ (read f.2).places ∧ p = .key f.1 :: q := by
  cases d with
  | record fields =>
    change p ∈ (members read fields).places ↔ _
    rw [places_members, List.mem_flatMap]
    constructor
    · rintro ⟨f, hf, hp⟩
      obtain ⟨q, hq, rfl⟩ := List.mem_map.mp hp
      exact Or.inr ⟨fields, f, q, rfl, hf, hq, rfl⟩
    · rintro (⟨-, h⟩ | ⟨fields, f, q, ⟨⟩, hf, hq, rfl⟩)
      · exact absurd rfl (h fields)
      · exact ⟨f, hf, List.mem_map_of_mem hq⟩
  | _ => simp [dictionary, Checked.places, Checked.fail, Issue.here]

/-! ## Places below a field -/

theorem mem_places_optional_of_single {default : α} {Fine : Datum → Prop} {p : Place}
    (h : ∀ d, Datum.field? fields name = some d → ∀ q, q ∈ (read d).places ↔ q = [] ∧ ¬ Fine d) :
    p ∈ (optional fields name default read).places ↔
      ∃ d, Datum.field? fields name = some d ∧ ¬ Fine d ∧ p = [.key name] := by
  rw [mem_places_optional]
  constructor
  · rintro ⟨d, q, hd, hq, rfl⟩
    obtain ⟨rfl, hfine⟩ := (h d hd q).mp hq
    exact ⟨d, hd, hfine, rfl⟩
  · rintro ⟨d, hd, hfine, rfl⟩
    exact ⟨d, [], hd, (h d hd []).mpr ⟨rfl, hfine⟩, rfl⟩

theorem mem_places_optional_tuple {default : List α} {p : Place} :
    p ∈ (optional fields name default (tuple read)).places ↔
      (∃ d, Datum.field? fields name = some d ∧ (∀ items, d ≠ .list items) ∧ p = [.key name]) ∨
        ∃ items i e q, Datum.field? fields name = some (.list items) ∧ items[i]? = some e ∧
          q ∈ (read e).places ∧ p = .key name :: .index i :: q := by
  simp only [mem_places_optional, mem_places_tuple]
  constructor
  · rintro ⟨d, q, hd, ⟨rfl, h⟩ | ⟨items, i, e, q', rfl, he, hq', rfl⟩, rfl⟩
    · exact Or.inl ⟨d, hd, h, rfl⟩
    · exact Or.inr ⟨items, i, e, q', hd, he, hq', rfl⟩
  · rintro (⟨d, hd, h, rfl⟩ | ⟨items, i, e, q', hd, he, hq', rfl⟩)
    · exact ⟨d, [], hd, Or.inl ⟨rfl, h⟩, rfl⟩
    · exact ⟨_, _, hd, Or.inr ⟨items, i, e, q', rfl, he, hq', rfl⟩, rfl⟩

theorem mem_places_optional_dictionary {default : List (String × α)} {p : Place} :
    p ∈ (optional fields name default (dictionary read)).places ↔
      (∃ d, Datum.field? fields name = some d ∧ (∀ entries, d ≠ .record entries) ∧ p = [.key name]) ∨
        ∃ entries f q, Datum.field? fields name = some (.record entries) ∧ f ∈ entries ∧
          q ∈ (read f.2).places ∧ p = .key name :: .key f.1 :: q := by
  simp only [mem_places_optional, mem_places_dictionary]
  constructor
  · rintro ⟨d, q, hd, ⟨rfl, h⟩ | ⟨entries, f, q', rfl, hf, hq', rfl⟩, rfl⟩
    · exact Or.inl ⟨d, hd, h, rfl⟩
    · exact Or.inr ⟨entries, f, q', hd, hf, hq', rfl⟩
  · rintro (⟨d, hd, h, rfl⟩ | ⟨entries, f, q', hd, hf, hq', rfl⟩)
    · exact ⟨d, [], hd, Or.inl ⟨rfl, h⟩, rfl⟩
    · exact ⟨_, _, hd, Or.inr ⟨entries, f, q', rfl, hf, hq', rfl⟩, rfl⟩

/-! ## The order of places -/

variable {R : Place → Place → Prop}

theorem pairwise_recordOf {model : String} {part : List (String × Datum) → Checked α} {d : Datum}
    (h : ∀ fields, d = .record fields → (part fields).places.Pairwise R) :
    (recordOf model part d).places.Pairwise R := by
  cases d with
  | record fields => exact h fields rfl
  | _ => exact (Single.fail (.notRecord model) : Single (_ : Checked α)).pairwise R

theorem ordered_required
    (h : ∀ d, Datum.field? fields name = some d →
      (read d).places.Pairwise fun p q => R (.key name :: p) (.key name :: q)) :
    (required fields name read).Ordered R [name] := by
  constructor
  · rw [places_required]
    refine List.pairwise_map.mpr ?_
    cases hd : Datum.field? fields name with
    | none => exact List.pairwise_singleton _ _
    | some d => exact h d hd
  · intro p hp
    rcases mem_places_required.mp hp with ⟨-, rfl⟩ | ⟨_, q, -, -, rfl⟩
    · exact ⟨name, List.mem_singleton_self name, [], rfl⟩
    · exact ⟨name, List.mem_singleton_self name, q, rfl⟩

theorem ordered_optional {default : α}
    (h : ∀ d, Datum.field? fields name = some d →
      (read d).places.Pairwise fun p q => R (.key name :: p) (.key name :: q)) :
    (optional fields name default read).Ordered R [name] := by
  constructor
  · rw [places_optional]
    refine List.pairwise_map.mpr ?_
    cases hd : Datum.field? fields name with
    | none => exact List.Pairwise.nil
    | some d => exact h d hd
  · intro p hp
    obtain ⟨_, q, -, -, rfl⟩ := mem_places_optional.mp hp
    exact ⟨name, List.mem_singleton_self name, q, rfl⟩

/-- Branches that leave by different steps: within each the order is its own, between two of them that
of the steps. -/
theorem pairwise_branches {β : Type} {xs : List β} {step : β → Step} {branch : β → List Place}
    (hwithin : ∀ x ∈ xs, (branch x).Pairwise fun p q => R (step x :: p) (step x :: q))
    (hacross : xs.Pairwise fun x y => ∀ p q, R (step x :: p) (step y :: q)) :
    (xs.flatMap fun x => (branch x).map (step x :: ·)).Pairwise R := by
  refine List.pairwise_flatMap.mpr ⟨fun x hx => List.pairwise_map.mpr (hwithin x hx), ?_⟩
  refine hacross.imp fun h p hp q hq => ?_
  obtain ⟨p', -, rfl⟩ := List.mem_map.mp hp
  obtain ⟨q', -, rfl⟩ := List.mem_map.mp hq
  exact h p' q'

theorem pairwise_idxOf {names : List String} (h : names.Nodup) :
    names.Pairwise fun m n => names.idxOf m < names.idxOf n := by
  refine List.pairwise_iff_getElem.mpr fun i j hi hj hij => ?_
  rw [h.idxOf_getElem, h.idxOf_getElem]
  exact hij

theorem pairwise_tuple {d : Datum}
    (hwithin : ∀ items i e, d = .list items → items[i]? = some e →
      (read e).places.Pairwise fun p q => R (.index i :: p) (.index i :: q))
    (hacross : ∀ i j p q, i < j → R (.index i :: p) (.index j :: q)) :
    (tuple read d).places.Pairwise R := by
  cases d with
  | list items =>
    change (elements read 0 items).places.Pairwise R
    rw [places_elements]
    refine pairwise_branches (fun x hx => ?_) ?_
    · exact hwithin items x.2 x.1 rfl (List.mk_mem_zipIdx_iff_getElem?.mp hx)
    · have hpositions : (items.zipIdx.map Prod.snd).Pairwise (· < ·) := by
        rw [List.zipIdx_map_snd]
        exact List.pairwise_lt_range'
      exact (List.pairwise_map.mp hpositions).imp fun hij p q => hacross _ _ p q hij
  | _ => exact (Single.fail .notTuple : Single (_ : Checked (List α))).pairwise R

theorem pairwise_dictionary {d : Datum}
    (hwithin : ∀ fields, d = .record fields → ∀ f ∈ fields,
      (read f.2).places.Pairwise fun p q => R (.key f.1 :: p) (.key f.1 :: q))
    (hnames : ∀ fields, d = .record fields → (fields.map Prod.fst).Nodup)
    (hacross : ∀ fields, d = .record fields → ∀ m n p q,
      (fields.map Prod.fst).idxOf m < (fields.map Prod.fst).idxOf n → R (.key m :: p) (.key n :: q)) :
    (dictionary read d).places.Pairwise R := by
  cases d with
  | record fields =>
    change (members read fields).places.Pairwise R
    rw [places_members]
    refine pairwise_branches (hwithin fields rfl) ?_
    refine (List.pairwise_map.mp (pairwise_idxOf (hnames fields rfl))).imp fun h p q => ?_
    exact hacross fields rfl _ _ p q h
  | _ => exact (Single.fail .notDictionary : Single (_ : Checked (List (String × α)))).pairwise R

end Reader
end SerialAudit

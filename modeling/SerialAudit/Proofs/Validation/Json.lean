import SerialAudit.Proofs.Validation.Findings
import SerialAudit.Proofs.Validation.Reading

/-! JSON values, and what the readers of single values make of them.

* `Datum.IsJson` : no octets or foreign values, and no name twice in a record;
* `Datum.StandsFor` : the values that are taken for a boolean.

On these a text is read from a text only (`text_eq_ok_iff`), an optional one from a text or null, and a
boolean exactly from what stands for it (`boolean_eq_ok_iff`). -/
namespace SerialAudit
set_option autoImplicit false

open Issue (Place)

namespace Datum

inductive IsJson : Datum → Prop
  | null : IsJson .null
  | bool (b : Bool) : IsJson (.bool b)
  | int (n : Int) : IsJson (.int n)
  | float (x : Binary) : IsJson (.float x)
  | text (s : String) : IsJson (.text s)
  | list {items : List Datum} (h : ∀ d ∈ items, IsJson d) : IsJson (.list items)
  | record {fields : List (String × Datum)} (names : (fields.map Prod.fst).Nodup)
      (h : ∀ f ∈ fields, IsJson f.2) : IsJson (.record fields)

def IsText (d : Datum) : Prop := ∃ s, d = .text s

theorem exists_ofText?_iff {d : Datum} : (∃ o, d = ofText? o) ↔ d = .null ∨ d.IsText :=
  Option.exists

theorem mem_of_lookup {α : Type} {entries : List (String × α)} {name : String} {a : α}
    (h : entries.lookup name = some a) : (name, a) ∈ entries := by
  obtain ⟨before, after, rfl, -⟩ := List.lookup_eq_some_iff.mp h
  exact List.mem_append_right before List.mem_cons_self

namespace IsJson

variable {items : List Datum} {fields : List (String × Datum)} {d : Datum}

theorem of_mem (h : IsJson (.list items)) (hd : d ∈ items) : d.IsJson := by
  cases h with
  | list h => exact h d hd

theorem of_field? (h : IsJson (.record fields)) {name : String} (hd : field? fields name = some d) :
    d.IsJson := by
  cases h with
  | record _ h => exact h _ (mem_of_lookup hd)

theorem nodup (h : IsJson (.record fields)) : (fields.map Prod.fst).Nodup := by
  cases h with
  | record names _ => exact names

end IsJson

/-- The words for true and false, in lower case. -/
def booleanWords : List (String × Bool) :=
  [("1", true), ("t", true), ("true", true), ("y", true), ("yes", true), ("on", true),
    ("0", false), ("f", false), ("false", false), ("n", false), ("no", false), ("off", false)]

inductive StandsFor : Datum → Bool → Prop
  | bool (b : Bool) : StandsFor (.bool b) b
  | int (b : Bool) : StandsFor (.int b.toInt) b
  | float {x : Binary} {b : Bool} (h : x.toInt? = some b.toInt) : StandsFor (.float x) b
  | word {s word : String} {b : Bool} (hword : (word, b) ∈ booleanWords)
      (h : s.toList.map Char.toLower = word.toList) : StandsFor (.text s) b

end Datum

namespace Reader

open Checked (Single)

/-! ## Texts -/

theorem single_text (d : Datum) : (text d).Single := by
  cases d with
  | text s => exact .ok s
  | bytes octets =>
    rw [text]
    cases Text.Utf8.decode? octets with
    | some cs => exact .ok _
    | none => exact .fail _
  | _ => exact .fail _

theorem single_optionalText (d : Datum) : (optionalText d).Single := by
  unfold optionalText
  split
  · exact .ok none
  · exact (single_text _).map some

theorem text_eq_ok_iff {d : Datum} (hd : d.IsJson) {s : String} : text d = .ok s ↔ d = .text s := by
  cases hd <;> simp [text, Checked.fail]

theorem mem_places_text {d : Datum} (hd : d.IsJson) {p : Place} :
    p ∈ (text d).places ↔ p = [] ∧ ¬ d.IsText := by
  rw [(single_text d).mem_places_iff, exists_congr fun s => text_eq_ok_iff hd]
  rfl

theorem mem_places_required_text {fields : List (String × Datum)} {name : String} {p : Place}
    (hd : Datum.IsJson (.record fields)) :
    p ∈ (required fields name text).places ↔
      (Datum.field? fields name = none ∨ ∃ v, Datum.field? fields name = some v ∧ ¬ v.IsText) ∧
        p = [.key name] := by
  rw [mem_places_required]
  constructor
  · rintro (⟨hnone, rfl⟩ | ⟨v, q, hv, hq, rfl⟩)
    · exact ⟨Or.inl hnone, rfl⟩
    · obtain ⟨rfl, h⟩ := (mem_places_text (hd.of_field? hv)).mp hq
      exact ⟨Or.inr ⟨v, hv, h⟩, rfl⟩
  · rintro ⟨hnone | ⟨v, hv, h⟩, rfl⟩
    · exact Or.inl ⟨hnone, rfl⟩
    · exact Or.inr ⟨v, [], hv, (mem_places_text (hd.of_field? hv)).mpr ⟨rfl, h⟩, rfl⟩

theorem optionalText_eq_ok_iff {d : Datum} (hd : d.IsJson) {o : Option String} :
    optionalText d = .ok o ↔ d = Datum.ofText? o := by
  cases hd <;> cases o <;> simp [optionalText, text, Checked.map, Checked.fail, Datum.ofText?]

theorem mem_places_optionalText {d : Datum} (hd : d.IsJson) {p : Place} :
    p ∈ (optionalText d).places ↔ p = [] ∧ ¬ (d = .null ∨ d.IsText) := by
  rw [(single_optionalText d).mem_places_iff, exists_congr fun o => optionalText_eq_ok_iff hd,
    Datum.exists_ofText?_iff]

/-! ## Booleans -/

theorem single_booleanOfInt (n : Int) : (booleanOfInt n).Single := by
  rw [booleanOfInt]
  split_ifs
  · exact .ok true
  · exact .ok false
  · exact .fail _

theorem single_booleanOfWord (s : String) : (booleanOfWord s).Single := by
  rw [booleanOfWord]
  split_ifs
  · exact .ok true
  · exact .ok false
  · exact .fail _

theorem single_boolean (d : Datum) : (boolean d).Single := by
  cases d with
  | bool b => exact .ok b
  | int n =>
    rw [boolean]
    split_ifs
    · exact single_booleanOfInt n
    · exact .fail _
  | float x =>
    rw [boolean]
    cases x.toInt? with
    | none => exact .fail _
    | some n =>
      dsimp only
      split_ifs
      · exact single_booleanOfInt n
      · exact .fail _
  | text s =>
    rw [boolean]
    split_ifs
    · exact .fail _
    · exact single_booleanOfWord s
  | bytes octets =>
    rw [boolean]
    cases Text.Utf8.decode? octets with
    | some cs => exact single_booleanOfWord _
    | none => exact .fail _
  | _ => exact .fail _

theorem booleanOfInt_eq_ok_iff {n : Int} {b : Bool} : booleanOfInt n = .ok b ↔ n = b.toInt := by
  rw [booleanOfInt]
  by_cases h1 : n = 1
  · subst h1
    cases b <;> decide
  by_cases h0 : n = 0
  · subst h0
    cases b <;> decide
  rw [if_neg h1, if_neg h0]
  cases b with
  | true => exact ⟨nofun, fun h => absurd h h1⟩
  | false => exact ⟨nofun, fun h => absurd h h0⟩

theorem mem_booleanWords_iff {word : String} {b : Bool} :
    (word, b) ∈ Datum.booleanWords ↔ (b = true ∧ word ∈ trueWords) ∨ (b = false ∧ word ∈ falseWords) := by
  have hwords : Datum.booleanWords = trueWords.map (·, true) ++ falseWords.map (·, false) := rfl
  rw [hwords, List.mem_append, List.mem_map, List.mem_map]
  cases b <;> simp

theorem booleanOfWord_eq_ok_iff {s : String} {b : Bool} :
    booleanOfWord s = .ok b ↔ (lowerAscii s, b) ∈ Datum.booleanWords := by
  have hdisjoint : ∀ word ∈ trueWords, word ∉ falseWords := by decide
  rw [booleanOfWord, mem_booleanWords_iff]
  by_cases htrue : lowerAscii s ∈ trueWords
  · have hfalse := hdisjoint _ htrue
    cases b <;> simp [htrue, hfalse]
  · by_cases hfalse : lowerAscii s ∈ falseWords
    · cases b <;> simp [htrue, hfalse]
    · simp [htrue, hfalse, Checked.fail]

/-- What stands for half a character has no lower case, and lies beyond all letters of the words. -/
theorem hasHalf_eq_false_of_word {s : String} {b : Bool} (h : (lowerAscii s, b) ∈ Datum.booleanWords) :
    Text.hasHalf s = false := by
  have hwords : ∀ word ∈ Datum.booleanWords, ∀ c ∈ word.1.toList, c.toNat < 128 := by
    simp [Datum.booleanWords]
  refine Bool.eq_false_iff.mpr fun hhalf => ?_
  obtain ⟨c, hc, hcode⟩ := List.any_eq_true.mp hhalf
  have hfar : Text.halfShift ≤ c.toNat := by
    by_contra hnear
    rw [Text.halfCode?, Nat.sub_eq_zero_of_le (by omega)] at hcode
    exact absurd hcode (by decide)
  have hshift : Text.halfShift = 0xCA800 := rfl
  have hlower : c.toLower = c := by
    refine dif_neg fun hupper => ?_
    have hnear : c.toNat ≤ 90 := UInt32.le_iff_toNat_le.mp hupper.2
    omega
  have hmem : c ∈ (lowerAscii s).toList := by
    rw [lowerAscii, String.toList_ofList]
    exact List.mem_map.mpr ⟨c, hc, hlower⟩
  have hnear := hwords _ h c hmem
  omega

theorem standsFor_text_iff {s : String} {b : Bool} :
    Datum.StandsFor (.text s) b ↔ (lowerAscii s, b) ∈ Datum.booleanWords := by
  constructor
  · intro h
    cases h with
    | word hword h =>
      rw [lowerAscii, h, String.ofList_toList]
      exact hword
  · exact fun h => .word h String.toList_ofList.symm

/-- The bounds on integers and on floating-point numbers do not matter, since zero and one are within them. -/
theorem ite_booleanOfInt_eq_ok_iff {p : Prop} [Decidable p] {n : Int} {b : Bool}
    (hp : ∀ b : Bool, n = b.toInt → p) :
    (if p then booleanOfInt n else .fail .notBoolean) = .ok b ↔ n = b.toInt := by
  by_cases h : p
  · rw [if_pos h]
    exact booleanOfInt_eq_ok_iff
  · rw [if_neg h]
    exact ⟨nofun, fun hn => absurd (hp b hn) h⟩

theorem boolean_eq_ok_iff {d : Datum} (hd : d.IsJson) {b : Bool} : boolean d = .ok b ↔ d.StandsFor b := by
  cases hd with
  | bool b' =>
    constructor
    · rintro ⟨⟩
      exact .bool b
    · rintro ⟨⟩
      rfl
  | int n =>
    rw [boolean, ite_booleanOfInt_eq_ok_iff]
    · constructor
      · rintro rfl
        exact .int b
      · rintro ⟨⟩
        rfl
    · rintro b rfl
      cases b <;> decide
  | float x =>
    rw [boolean]
    cases hx : x.toInt? with
    | none =>
      refine ⟨nofun, fun h => ?_⟩
      cases h with
      | float h => cases hx.symm.trans h
    | some n =>
      dsimp only
      rw [ite_booleanOfInt_eq_ok_iff]
      · constructor
        · rintro rfl
          exact .float hx
        · intro h
          cases h with
          | float h => exact Option.some.inj (hx.symm.trans h)
      · rintro b rfl
        cases b <;> decide
  | text s =>
    rw [boolean, standsFor_text_iff]
    cases hhalf : Text.hasHalf s with
    | false => exact booleanOfWord_eq_ok_iff
    | true =>
      constructor
      · rintro ⟨⟩
      · intro h
        rw [hasHalf_eq_false_of_word h] at hhalf
        cases hhalf
  | _ =>
    constructor
    · rintro ⟨⟩
    · rintro ⟨⟩

theorem mem_places_boolean {d : Datum} (hd : d.IsJson) {p : Place} :
    p ∈ (boolean d).places ↔ p = [] ∧ ¬ ∃ b, d.StandsFor b := by
  rw [(single_boolean d).mem_places_iff, exists_congr fun b => boolean_eq_ok_iff hd]

end Reader
end SerialAudit

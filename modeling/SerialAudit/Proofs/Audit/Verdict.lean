import SerialAudit.Audit.Check
import SerialAudit.Proofs.Registry.Pairs

/-! The rules for a candidate, said without a registry and without an order of reading.

* `Argument.Written` : the text that a value is written as, if it is not missing;
* `Attribute.Names`, `Attribute.Fails` : an annotation names a pair, or fails a rule in a field;
* `Candidate.Scoped`, `Candidate.Carries`, `Candidate.Names` : the same for a candidate, by its first
  annotation with the serialized id;
* `Candidate.Settled` : the diagnostics of a candidate that names no pair;
* `Candidate.pair?` : the pair that a candidate names, computed;
* `Verdict` : the diagnostics of any candidate, given which pairs are taken.

A candidate either is settled or names exactly one pair, and `check` does what that says:
`check_of_settled`, `check_of_names`, and both together `verdict_iff_check`. -/
namespace SerialAudit
set_option autoImplicit false

open Registry (Pair)

/-! ## The rules -/

inductive Argument.Written : Argument → String → Prop
  | text (s : String) : Written (.text s) s
  | int (n : Int) : Written (.int n) (Text.signed n)
  | yes : Written (.bool true) "True"
  | no : Written (.bool false) "False"

structure Attribute.Names (a : Attribute) (p : Pair) : Prop where
  id : ∃ x, a.argument? "id" = some x ∧ x.Written p.1
  id_ne_empty : p.1 ≠ ""
  version : a.argument? "version" = some (.int p.2)
  version_nonneg : 0 ≤ p.2

/-- The rule that an annotation fails and the field in which it does so: the first in the order id
given, id not empty, version given, version a natural number. -/
inductive Attribute.Fails (a : Attribute) : Rule → String → Prop
  | idAbsent (h : a.argument? "id" = none) : Fails a .missingField "id"
  | idInvalid {x : Argument} (h : a.argument? "id" = some x) (hx : ∀ s, x.Written s → s = "") :
    Fails a .invalidField "id"
  | versionAbsent {x : Argument} {s : String} (h : a.argument? "id" = some x) (hx : x.Written s)
    (hs : s ≠ "") (hv : a.argument? "version" = none) : Fails a .missingField "version"
  | versionInvalid {x y : Argument} {s : String} (h : a.argument? "id" = some x)
    (hx : x.Written s) (hs : s ≠ "") (hv : a.argument? "version" = some y)
    (hy : ∀ n : Int, y = .int n → n < 0) : Fails a .invalidField "version"

namespace Candidate

def Scoped (c : Candidate) : Prop :=
  c.kind = .class ∧ c.isGenerated = false ∧ "IMigratable" ∈ c.capabilities

/-- The candidate's first annotation of the type with the serialized id. -/
def Carries (c : Candidate) (a : Attribute) : Prop :=
  a.typeName = "SerializedIdAttribute" ∧ ∃ before after, c.attributes = before ++ a :: after ∧
    ∀ b ∈ before, b.typeName ≠ "SerializedIdAttribute"

def Names (c : Candidate) (p : Pair) : Prop := c.Scoped ∧ ∃ a, c.Carries a ∧ a.Names p

inductive Settled (c : Candidate) : List Diagnostic → Prop
  | outOfScope (h : ¬ c.Scoped) : Settled c []
  | unannotated (h : c.Scoped) (ha : ∀ a ∈ c.attributes, a.typeName ≠ "SerializedIdAttribute") :
    Settled c [⟨.missingAttribute, c.name, none⟩]
  | failed {a : Attribute} {rule : Rule} {field : String} (h : c.Scoped) (ha : c.Carries a)
    (hf : a.Fails rule field) : Settled c [⟨rule, c.name, some field⟩]

/-- A class in scope with one annotation. -/
def ofArguments (name : String) (arguments : List (String × Argument)) : Candidate :=
  ⟨name, ["IMigratable"], [⟨"SerializedIdAttribute", arguments⟩], .class, false, none⟩

/-- A class in scope whose one annotation names a pair. -/
def ofPair (name id : String) (version : Int) : Candidate :=
  ⟨name, ["IMigratable"],
    [⟨"SerializedIdAttribute", [("id", .text id), ("version", .int version)]⟩], .class, false, none⟩

/-- A class in scope without annotations. -/
def ofName (name : String) : Candidate := ⟨name, ["IMigratable"], [], .class, false, none⟩

def duplicate (c : Candidate) : Diagnostic := ⟨.duplicateVersion, c.name, none⟩

end Candidate

inductive Verdict (taken : Pair → Prop) (c : Candidate) : List Diagnostic → Prop
  | settled {ds : List Diagnostic} (h : c.Settled ds) : Verdict taken c ds
  | taken {p : Pair} (h : c.Names p) (hp : taken p) : Verdict taken c [c.duplicate]
  | free {p : Pair} (h : c.Names p) (hp : ¬ taken p) : Verdict taken c []

/-! ## Annotations -/

theorem Argument.Written.idText_eq {x : Argument} {s : String} (h : x.Written s) : x.idText = s := by
  cases h <;> rfl

theorem Argument.written_idText {x : Argument} (h : x.idText ≠ "") : x.Written x.idText := by
  cases x with
  | text s => exact .text s
  | int n => exact .int n
  | bool b =>
    cases b with
    | true => exact .yes
    | false => exact .no
  | missing => exact absurd rfl h

theorem Argument.version?_eq_some {x : Argument} {n : Int} (h : x.version? = some n) :
    x = .int n ∧ 0 ≤ n := by
  cases x with
  | int m =>
    rw [version?, Option.ite_none_right_eq_some] at h
    obtain ⟨hm, he⟩ := h
    obtain rfl := Option.some.inj he
    exact ⟨rfl, hm⟩
  | _ => cases h

theorem Argument.version?_eq_none {x : Argument} (h : x.version? = none) (n : Int) (hx : x = .int n) :
    n < 0 := by
  subst hx
  rw [version?, ite_eq_right_iff] at h
  exact Int.not_le.mp fun hn => Option.some_ne_none n (h hn)

theorem Attribute.pair?_eq_ok {a : Attribute} {p : Pair} (h : a.Names p) : a.pair? = .ok p := by
  obtain ⟨x, hx, hw⟩ := h.id
  have hi : a.argument? idField = some x := hx
  have hv : a.argument? versionField = some (.int p.2) := h.version
  simp only [pair?, hi, hv, hw.idText_eq, h.id_ne_empty, Argument.version?, h.version_nonneg, if_true,
    if_false]

theorem Attribute.pair?_eq_error {a : Attribute} {rule : Rule} {field : String}
    (h : a.Fails rule field) : a.pair? = .error ⟨rule, field⟩ := by
  cases h with
  | idAbsent h =>
    have hi : a.argument? idField = none := h
    simp only [pair?, hi]
    rfl
  | @idInvalid x h hx =>
    have hi : a.argument? idField = some x := h
    have he : x.idText = "" := by
      by_contra hne
      exact hne (hx _ (Argument.written_idText hne))
    simp only [pair?, hi, he, if_true]
    rfl
  | @versionAbsent x s h hx hs hv =>
    have hi : a.argument? idField = some x := h
    have hv : a.argument? versionField = none := hv
    have hne : x.idText ≠ "" := hx.idText_eq ▸ hs
    simp only [pair?, hi, hne, hv, if_false]
    rfl
  | @versionInvalid x y s h hx hs hv hy =>
    have hi : a.argument? idField = some x := h
    have hv : a.argument? versionField = some y := hv
    have hne : x.idText ≠ "" := hx.idText_eq ▸ hs
    have hn : y.version? = none := by
      cases hn : y.version? with
      | none => rfl
      | some n =>
        obtain ⟨rfl, hpos⟩ := Argument.version?_eq_some hn
        exact absurd (hy n rfl) (Int.not_lt.mpr hpos)
    simp only [pair?, hi, hne, hv, hn, if_false]
    rfl

theorem Attribute.names_or_fails (a : Attribute) :
    (∃ p, a.Names p) ∨ ∃ rule field, a.Fails rule field := by
  cases hi : a.argument? "id" with
  | none => exact Or.inr ⟨_, _, .idAbsent hi⟩
  | some x =>
    by_cases he : x.idText = ""
    · refine Or.inr ⟨_, _, .idInvalid hi fun s hs => ?_⟩
      rw [← hs.idText_eq, he]
    · have hx := Argument.written_idText he
      cases hv : a.argument? "version" with
      | none => exact Or.inr ⟨_, _, .versionAbsent hi hx he hv⟩
      | some y =>
        cases hn : y.version? with
        | none => exact Or.inr ⟨_, _, .versionInvalid hi hx he hv (Argument.version?_eq_none hn)⟩
        | some n =>
          obtain ⟨rfl, hpos⟩ := Argument.version?_eq_some hn
          exact Or.inl ⟨(x.idText, n), ⟨⟨x, hi, hx⟩, he, hv, hpos⟩⟩

/-! ## Candidates -/

namespace Candidate

theorem inScope_iff (c : Candidate) : c.inScope = true ↔ c.Scoped := by
  simp [inScope, Scoped, migratableCapability, and_assoc]

theorem serializedId?_eq_some_iff (c : Candidate) (a : Attribute) :
    c.serializedId? = some a ↔ c.Carries a := by
  have h : c.serializedId? = some a ↔ a.typeName = serializedIdAttribute ∧
      ∃ before after, c.attributes = before ++ a :: after ∧
        ∀ b ∈ before, b.typeName ≠ serializedIdAttribute := by
    simp [serializedId?, List.find?_eq_some_iff_append]
  exact h

theorem Carries.unique {c : Candidate} {a b : Attribute} (ha : c.Carries a) (hb : c.Carries b) : a = b :=
  Option.some.inj
    (((c.serializedId?_eq_some_iff a).mpr ha).symm.trans ((c.serializedId?_eq_some_iff b).mpr hb))

theorem serializedId?_eq_none_iff (c : Candidate) :
    c.serializedId? = none ↔ ∀ a ∈ c.attributes, a.typeName ≠ "SerializedIdAttribute" := by
  have h : c.serializedId? = none ↔ ∀ a ∈ c.attributes, a.typeName ≠ serializedIdAttribute := by
    simp [serializedId?]
  exact h

theorem scoped_ofArguments (name : String) (arguments : List (String × Argument)) :
    (ofArguments name arguments).Scoped := ⟨rfl, rfl, List.mem_singleton_self _⟩

theorem carries_ofArguments (name : String) (arguments : List (String × Argument)) :
    (ofArguments name arguments).Carries ⟨"SerializedIdAttribute", arguments⟩ :=
  ⟨rfl, [], [], rfl, fun _ h => absurd h List.not_mem_nil⟩

theorem settled_or_names (c : Candidate) : (∃ ds, c.Settled ds) ∨ ∃ p, c.Names p := by
  by_cases hs : c.Scoped
  · cases ha : c.serializedId? with
    | none => exact Or.inl ⟨_, .unannotated hs (c.serializedId?_eq_none_iff.mp ha)⟩
    | some a =>
      have hc : c.Carries a := (c.serializedId?_eq_some_iff a).mp ha
      rcases a.names_or_fails with ⟨p, hp⟩ | ⟨rule, field, hf⟩
      · exact Or.inr ⟨p, hs, a, hc, hp⟩
      · exact Or.inl ⟨_, .failed hs hc hf⟩
  · exact Or.inl ⟨_, .outOfScope hs⟩

def pair? (c : Candidate) : Option Pair :=
  if c.inScope then c.serializedId?.bind fun a => a.pair?.toOption else none

theorem pair?_of_names {c : Candidate} {p : Pair} (h : c.Names p) : c.pair? = some p := by
  obtain ⟨hs, a, ha, hp⟩ := h
  rw [pair?, if_pos (c.inScope_iff.mpr hs), (c.serializedId?_eq_some_iff a).mpr ha, Option.bind_some,
    Attribute.pair?_eq_ok hp]
  rfl

theorem pair?_of_settled {c : Candidate} {ds : List Diagnostic} (h : c.Settled ds) :
    c.pair? = none := by
  cases h with
  | outOfScope h => rw [pair?, if_neg fun hi => h (c.inScope_iff.mp hi)]
  | unannotated h ha =>
    rw [pair?, if_pos (c.inScope_iff.mpr h), c.serializedId?_eq_none_iff.mpr ha, Option.bind_none]
  | @failed a rule field h ha hf =>
    rw [pair?, if_pos (c.inScope_iff.mpr h), (c.serializedId?_eq_some_iff a).mpr ha,
      Option.bind_some, Attribute.pair?_eq_error hf]
    rfl

theorem Settled.not_names {c : Candidate} {ds : List Diagnostic} (h : c.Settled ds) (p : Pair) :
    ¬ c.Names p := by
  intro hp
  exact Option.some_ne_none p ((pair?_of_names hp).symm.trans (pair?_of_settled h))

theorem pair?_eq_some_iff (c : Candidate) (p : Pair) : c.pair? = some p ↔ c.Names p := by
  refine ⟨fun h => ?_, pair?_of_names⟩
  rcases c.settled_or_names with ⟨ds, hs⟩ | ⟨q, hq⟩
  · exact absurd (h.symm.trans (pair?_of_settled hs)) (Option.some_ne_none p)
  · obtain rfl : p = q := Option.some.inj (h.symm.trans (pair?_of_names hq))
    exact hq

theorem Names.unique {c : Candidate} {p q : Pair} (hp : c.Names p) (hq : c.Names q) : p = q :=
  Option.some.inj ((pair?_of_names hp).symm.trans (pair?_of_names hq))

instance (c : Candidate) : Decidable c.Scoped :=
  inferInstanceAs (Decidable (_ ∧ _ ∧ _))

instance (c : Candidate) (p : Pair) : Decidable (c.Names p) :=
  decidable_of_iff (c.pair? = some p) (c.pair?_eq_some_iff p)

end Candidate

theorem check_of_carries {c : Candidate} {a : Attribute} (hs : c.Scoped) (ha : c.Carries a)
    (r : Registry) : check c r = evaluate c a r := by
  have hi : c.inScope = true := c.inScope_iff.mpr hs
  have hf : c.serializedId? = some a := (c.serializedId?_eq_some_iff a).mpr ha
  simp only [check, classify, hi, hf, if_true]

theorem check_of_settled {c : Candidate} {ds : List Diagnostic} (h : c.Settled ds) (r : Registry) :
    check c r = ⟨ds, r, []⟩ := by
  cases h with
  | outOfScope h =>
    have hi : c.inScope = false := Bool.eq_false_iff.mpr fun hi => h (c.inScope_iff.mp hi)
    simp only [check, classify, hi, Bool.false_eq_true, if_false]
  | unannotated h ha =>
    have hi : c.inScope = true := c.inScope_iff.mpr h
    have hf : c.serializedId? = none := c.serializedId?_eq_none_iff.mpr ha
    simp only [check, classify, hi, hf, if_true]
  | failed h ha hf => rw [check_of_carries h ha, evaluate, Attribute.pair?_eq_error hf]

/-- A candidate that names a pair passes where the pair is free, and then has registered it. -/
theorem check_of_names {c : Candidate} {p : Pair} (h : c.Names p) (r : Registry) :
    check c r =
      if r.Holds p then ⟨[c.duplicate], r, [duplicateLine c.name p.1 p.2]⟩
      else ⟨[], (r.register p.1 p.2).2, []⟩ := by
  obtain ⟨hs, a, ha, hp⟩ := h
  rw [check_of_carries hs ha, evaluate, Attribute.pair?_eq_ok hp]
  by_cases held : r.Holds p
  · simp only [Registry.register_of_holds held, held, if_true]
    rfl
  · simp only [Registry.register_of_not_holds held, held, if_false]

theorem verdict_iff_check (c : Candidate) (r : Registry) (ds : List Diagnostic) :
    Verdict r.Holds c ds ↔ (check c r).diagnostics = ds := by
  constructor
  · intro h
    cases h with
    | settled h => rw [check_of_settled h]
    | taken h hp => rw [check_of_names h, if_pos hp]
    | free h hp => rw [check_of_names h, if_neg hp]
  · rintro rfl
    rcases c.settled_or_names with ⟨ds, h⟩ | ⟨p, h⟩
    · rw [check_of_settled h]
      exact .settled h
    · rw [check_of_names h]
      by_cases hp : r.Holds p
      · rw [if_pos hp]
        exact .taken h hp
      · rw [if_neg hp]
        exact .free h hp

/-! ## What a verdict says -/

namespace Verdict

variable {taken : Pair → Prop} {c : Candidate} {ds : List Diagnostic}

theorem eq_duplicate (h : Verdict taken c ds) {p : Pair} (hp : c.Names p) (ht : taken p) :
    ds = [c.duplicate] := by
  cases h with
  | settled h => exact absurd hp (h.not_names p)
  | taken => rfl
  | free hq hfree => exact absurd (hp.unique hq ▸ ht) hfree

theorem eq_nil (h : Verdict taken c ds) {p : Pair} (hp : c.Names p) (ht : ¬ taken p) : ds = [] := by
  cases h with
  | settled h => exact absurd hp (h.not_names p)
  | taken hq hheld => exact absurd (hq.unique hp ▸ hheld) ht
  | free => rfl

theorem eq_check_empty (h : Verdict taken c ds) (hn : ∀ p, ¬ c.Names p) :
    ds = (check c .empty).diagnostics := by
  cases h with
  | settled h => rw [check_of_settled h]
  | taken hp => exact absurd hp (hn _)
  | free hp => exact absurd hp (hn _)

theorem className_eq (h : Verdict taken c ds) : ∀ d ∈ ds, d.className = c.name := by
  intro d hd
  cases h with
  | settled h =>
    cases h with
    | outOfScope => exact absurd hd List.not_mem_nil
    | unannotated => exact (List.mem_singleton.mp hd) ▸ rfl
    | failed => exact (List.mem_singleton.mp hd) ▸ rfl
  | taken => exact (List.mem_singleton.mp hd) ▸ rfl
  | free => exact absurd hd List.not_mem_nil

end Verdict

end SerialAudit

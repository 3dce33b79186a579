import SerialAudit.Proofs.Audit.Collision
import SerialAudit.Proofs.Audit.Relevance

/-! Candidates that compare equal.

* `Argument.Mixed` : of two values one is a boolean and the other an integer;
* `Attribute.Parts`, `Candidate.Diverges` : two annotations, or two candidates by their first ones, differ in
  a value of this kind that decides about the pair;
* `CheckedAlike` : two candidates get the same diagnostics and leave the same pairs.

Equality takes true for one and false for zero, and a check does not. Everything else that equality
leaves open, such as the order of the arguments, no check looks at. So equal candidates are checked
alike on every registry exactly if they do not diverge (`equal_candidates_check_alike_iff`). -/
namespace SerialAudit
set_option autoImplicit false

open Registry (Pair)

/-! ## Values -/

namespace Argument

inductive Mixed : Argument → Argument → Prop
  | boolInt (b : Bool) (n : Int) : Mixed (.bool b) (.int n)
  | intBool (n : Int) (b : Bool) : Mixed (.int n) (.bool b)

variable {v w : Argument}

theorem eq_or_mixed_of_same (h : v.same w = true) : v = w ∨ v.Mixed w := by
  cases v with
  | int m =>
    cases w with
    | int n => exact Or.inl (congrArg int (of_decide_eq_true h))
    | bool b => exact Or.inr (.intBool m b)
    | _ => exact Or.inl (of_decide_eq_true h)
  | bool b =>
    cases w with
    | int n => exact Or.inr (.boolInt b n)
    | bool c => cases b <;> cases c <;> first | exact Or.inl rfl | exact absurd h (by decide)
    | _ => exact Or.inl (of_decide_eq_true h)
  | _ => exact Or.inl (of_decide_eq_true h)

/-- An integer that equals a boolean is zero or one. -/
theorem nonneg_of_number? {b : Bool} {n : Int} (h : (bool b).number? = some n) : 0 ≤ n := by
  obtain rfl : (if b then 1 else 0) = n := Option.some.inj h
  cases b <;> decide

theorem Mixed.written (h : v.Mixed w) : ∃ s t, v.Written s ∧ w.Written t ∧ s ≠ "" ∧ t ≠ "" ∧ s ≠ t := by
  have hword (b : Bool) : (bool b).Written (if b then "True" else "False") ∧
      (if b then "True" else "False") ≠ "" := by
    cases b with
    | true => exact ⟨.yes, by decide⟩
    | false => exact ⟨.no, by decide⟩
  cases h with
  | boolInt b n =>
    exact ⟨_, _, (hword b).1, .int n, (hword b).2, Text.signed_ne_empty n, (signed_ne_word n b).symm⟩
  | intBool n b =>
    exact ⟨_, _, .int n, (hword b).1, Text.signed_ne_empty n, (hword b).2, signed_ne_word n b⟩

end Argument

/-! ## Annotations -/

namespace Attribute

inductive Parts (x y : Attribute) : Prop
  | version {i v w : Argument} {s : String} (hi : x.argument? "id" = some i) (hs : i.Written s)
    (hne : s ≠ "") (hv : x.argument? "version" = some v) (hw : y.argument? "version" = some w)
    (h : v.Mixed w) : Parts x y
  | id {i j : Argument} {n : Int} (hi : x.argument? "id" = some i) (hj : y.argument? "id" = some j)
    (h : i.Mixed j) (hv : x.argument? "version" = some (.int n)) (hn : 0 ≤ n) : Parts x y

variable {x y : Attribute}

theorem exists_lookup_of_covered {xs ys : List (String × Argument)} (h : covered xs ys = true)
    {name : String} {v : Argument} (hv : xs.lookup name = some v) :
    ∃ w, ys.lookup name = some w ∧ v.same w = true := by
  obtain ⟨before, after, rfl, -⟩ := List.lookup_eq_some_iff.mp hv
  have hany := List.all_eq_true.mp h (name, v) (by simp)
  exact (Option.any_eq_true _ _).mp hany

theorem argument_cases (h : x.same y = true) (name : String) :
    (x.argument? name = none ∧ y.argument? name = none) ∨
      ∃ v w, x.argument? name = some v ∧ y.argument? name = some w ∧ v.same w = true := by
  simp only [same, Bool.and_eq_true] at h
  obtain ⟨⟨-, hxy⟩, hyx⟩ := h
  cases hv : x.argument? name with
  | some v =>
    obtain ⟨w, hw, hvw⟩ := exists_lookup_of_covered hxy hv
    exact Or.inr ⟨v, w, rfl, hw, hvw⟩
  | none =>
    refine Or.inl ⟨rfl, Option.eq_none_iff_forall_ne_some.mpr fun w hw => ?_⟩
    obtain ⟨v, hv', -⟩ := exists_lookup_of_covered hyx hw
    exact Option.some_ne_none v (hv'.symm.trans hv)

theorem pair?_eq_or_parts (h : x.same y = true) : x.pair? = y.pair? ∨ x.Parts y := by
  rcases argument_cases h "id" with ⟨hi, hj⟩ | ⟨i, j, hi, hj, hij⟩
  · exact Or.inl (by rw [pair?_eq_error (.idAbsent hi), pair?_eq_error (.idAbsent hj)])
  rcases Argument.eq_or_mixed_of_same hij with rfl | hmixed
  · rcases argument_cases h "version" with ⟨hv, hw⟩ | ⟨v, w, hv, hw, hvw⟩
    · exact Or.inl (Agrees.pair?_eq ⟨hi.trans hj.symm, hv.trans hw.symm⟩)
    rcases Argument.eq_or_mixed_of_same hvw with rfl | hmixed
    · exact Or.inl (Agrees.pair?_eq ⟨hi.trans hj.symm, hv.trans hw.symm⟩)
    -- the version counts only where the id is not empty
    by_cases hempty : i.idText = ""
    · have hinvalid (s : String) (hs : i.Written s) : s = "" := hs.idText_eq.symm.trans hempty
      exact Or.inl
        (by rw [pair?_eq_error (.idInvalid hi hinvalid), pair?_eq_error (.idInvalid hj hinvalid)])
    · exact Or.inr (.version hi (Argument.written_idText hempty) hempty hv hw hmixed)
  · obtain ⟨s, t, hs, ht, hsne, htne, -⟩ := hmixed.written
    rcases argument_cases h "version" with ⟨hv, hw⟩ | ⟨v, w, hv, hw, hvw⟩
    · exact Or.inl (by rw [pair?_eq_error (.versionAbsent hi hs hsne hv),
        pair?_eq_error (.versionAbsent hj ht htne hw)])
    rcases Argument.eq_or_mixed_of_same hvw with rfl | hmixed'
    · -- the id counts only where the version is a natural number
      by_cases hnatural : ∃ n : Int, v = .int n ∧ 0 ≤ n
      · obtain ⟨n, rfl, hn⟩ := hnatural
        exact Or.inr (.id hi hj hmixed hv hn)
      · have hinvalid (n : Int) (hn : v = .int n) : n < 0 :=
          Int.not_le.mp fun hpos => hnatural ⟨n, hn, hpos⟩
        exact Or.inl (by rw [pair?_eq_error (.versionInvalid hi hs hsne hv hinvalid),
          pair?_eq_error (.versionInvalid hj ht htne hw hinvalid)])
    · exact Or.inr (.version hi hs hsne hv hw hmixed')

/-- Annotations that part name different pairs, or only one of them names any. -/
theorem Parts.exists_names (h : x.same y = true) (hparts : x.Parts y) :
    ∃ p, ¬ (x.Names p ↔ y.Names p) := by
  cases hparts with
  | @version i v w s hi hs hne hv hw hmixed =>
    obtain ⟨j, t, hj, ht, htne⟩ : ∃ j t, y.argument? "id" = some j ∧ j.Written t ∧ t ≠ "" := by
      rcases argument_cases h "id" with ⟨hnone, -⟩ | ⟨i', j, hi', hj, hij⟩
      · cases hnone.symm.trans hi
      cases hi'.symm.trans hi
      rcases Argument.eq_or_mixed_of_same hij with rfl | hmixed
      · exact ⟨_, s, hj, hs, hne⟩
      · obtain ⟨-, t, -, ht, -, htne, -⟩ := hmixed.written
        exact ⟨j, t, hj, ht, htne⟩
    have hsame : v.same w = true := by
      rcases argument_cases h "version" with ⟨hnone, -⟩ | ⟨v', w', hv', hw', hvw⟩
      · cases hnone.symm.trans hv
      · cases hv'.symm.trans hv
        cases hw'.symm.trans hw
        exact hvw
    cases hmixed with
    | boolInt b n =>
      have hn : 0 ≤ n := Argument.nonneg_of_number? (congrArg some (of_decide_eq_true hsame))
      refine ⟨(t, n), fun hiff => ?_⟩
      cases (hiff.mpr ⟨⟨j, hj, ht⟩, htne, hw, hn⟩).version.symm.trans hv
    | intBool n b =>
      have hn : 0 ≤ n := Argument.nonneg_of_number? (congrArg some (of_decide_eq_true hsame).symm)
      refine ⟨(s, n), fun hiff => ?_⟩
      cases (hiff.mp ⟨⟨i, hi, hs⟩, hne, hv, hn⟩).version.symm.trans hw
  | @id i j n hi hj hmixed hv hn =>
    obtain ⟨s, t, hs, ht, hsne, -, hst⟩ := hmixed.written
    refine ⟨(s, n), fun hiff => ?_⟩
    obtain ⟨j', hj', hs'⟩ := (hiff.mp ⟨⟨i, hi, hs⟩, hsne, hv, hn⟩).id
    cases hj'.symm.trans hj
    exact hst (hs'.idText_eq.symm.trans ht.idText_eq)

end Attribute

/-! ## Candidates -/

def Candidate.Diverges (a b : Candidate) : Prop :=
  a.Scoped ∧ ∃ x y, a.Carries x ∧ b.Carries y ∧ x.Parts y

structure CheckedAlike (a b : Candidate) (r : Registry) : Prop where
  diagnostics : (check a r).diagnostics = (check b r).diagnostics
  pairs : ∀ p, (check a r).registry.Holds p ↔ (check b r).registry.Holds p

theorem find?_cases_of_forall₂ {α : Type} {R : α → α → Prop} {test : α → Bool} {xs ys : List α}
    (htest : ∀ x y, R x y → test x = test y) (h : List.Forall₂ R xs ys) :
    (xs.find? test = none ∧ ys.find? test = none) ∨
      ∃ x y, xs.find? test = some x ∧ ys.find? test = some y ∧ R x y := by
  induction h with
  | nil => exact Or.inl ⟨rfl, rfl⟩
  | @cons x y xs ys hxy _ ih =>
    rw [List.find?_cons, List.find?_cons, htest x y hxy]
    cases test y with
    | true => exact Or.inr ⟨x, y, rfl, rfl, hxy⟩
    | false => exact ih

namespace Candidate

variable {a b : Candidate}

theorem name_eq_of_same (h : a.same b = true) : a.name = b.name := by
  simp only [same, Bool.and_eq_true, decide_eq_true_eq] at h
  exact h.1.1.1.1.1

theorem scoped_iff_of_same (h : a.same b = true) : a.Scoped ↔ b.Scoped := by
  simp only [same, Bool.and_eq_true, decide_eq_true_eq] at h
  obtain ⟨⟨⟨⟨⟨-, hcapabilities⟩, -⟩, hkind⟩, hgenerated⟩, -⟩ := h
  rw [Scoped, Scoped, hcapabilities, hkind, hgenerated]

theorem first_cases_of_same (h : a.same b = true) :
    (a.serializedId? = none ∧ b.serializedId? = none) ∨
      ∃ x y, a.Carries x ∧ b.Carries y ∧ x.same y = true := by
  simp only [same, Bool.and_eq_true, decide_eq_true_eq] at h
  have hlist : sameList a.attributes b.attributes = true := h.1.1.1.2
  simp only [sameList, Bool.and_eq_true, decide_eq_true_eq] at hlist
  have hall : List.Forall₂ (fun x y => x.same y = true) a.attributes b.attributes :=
    List.forall₂_iff_zip.mpr ⟨hlist.1, fun hmem => List.all_eq_true.mp hlist.2 _ hmem⟩
  have htest : ∀ x y : Attribute, x.same y = true →
      decide (x.typeName = serializedIdAttribute) = decide (y.typeName = serializedIdAttribute) := by
    intro x y hxy
    simp only [Attribute.same, Bool.and_eq_true, decide_eq_true_eq] at hxy
    rw [hxy.1.1]
  rcases find?_cases_of_forall₂ htest hall with hnone | ⟨x, y, hx, hy, hxy⟩
  · exact Or.inl hnone
  · exact Or.inr ⟨x, y, (a.serializedId?_eq_some_iff x).mp hx, (b.serializedId?_eq_some_iff y).mp hy, hxy⟩

theorem check_eq_of_same (h : a.same b = true) (hdiverges : ¬ a.Diverges b) (r : Registry) :
    check a r = check b r := by
  have hname := name_eq_of_same h
  by_cases hscope : a.Scoped
  · have hscope' := (scoped_iff_of_same h).mp hscope
    rcases first_cases_of_same h with ⟨hx, hy⟩ | ⟨x, y, hx, hy, hxy⟩
    · rw [check_of_settled (.unannotated hscope (a.serializedId?_eq_none_iff.mp hx)),
        check_of_settled (.unannotated hscope' (b.serializedId?_eq_none_iff.mp hy)), hname]
    · have hpair : x.pair? = y.pair? := (Attribute.pair?_eq_or_parts hxy).resolve_right fun hparts =>
        hdiverges ⟨hscope, x, y, hx, hy, hparts⟩
      rw [check_of_carries hscope hx, check_of_carries hscope' hy, evaluate, evaluate, hpair, hname]
  · have hscope' := mt (scoped_iff_of_same h).mpr hscope
    rw [check_of_settled (.outOfScope hscope), check_of_settled (.outOfScope hscope')]

theorem names_iff_of_carries {c : Candidate} {x : Attribute} (hscope : c.Scoped) (hx : c.Carries x)
    (p : Pair) : c.Names p ↔ x.Names p := by
  constructor
  · rintro ⟨-, x', hx', hp⟩
    rwa [hx.unique hx']
  · exact fun hp => ⟨hscope, x, hx, hp⟩

/-- On the empty registry candidates that are checked alike name the same pairs. -/
theorem names_iff_of_checkedAlike (h : CheckedAlike a b .empty) (p : Pair) : a.Names p ↔ b.Names p := by
  have hpairs := h.pairs p
  rwa [holds_check, holds_check, or_iff_left (Registry.not_holds_empty p),
    or_iff_left (Registry.not_holds_empty p)] at hpairs

theorem Diverges.not_checkedAlike (h : a.same b = true) (hdiverges : a.Diverges b) :
    ¬ CheckedAlike a b .empty := by
  intro halike
  obtain ⟨hscope, x, y, hx, hy, hparts⟩ := hdiverges
  have hscope' := (scoped_iff_of_same h).mp hscope
  have hxy : x.same y = true := by
    rcases first_cases_of_same h with ⟨hnone, -⟩ | ⟨x', y', hx', hy', hxy⟩
    · cases hnone.symm.trans ((a.serializedId?_eq_some_iff x).mpr hx)
    · rwa [hx.unique hx', hy.unique hy']
  obtain ⟨p, hp⟩ := hparts.exists_names hxy
  exact hp (by rw [← names_iff_of_carries hscope hx, ← names_iff_of_carries hscope' hy,
    names_iff_of_checkedAlike halike])

/-- Equal candidates get the same diagnostics and leave the same pairs on every registry exactly if they
do not diverge, that is, unless they are in scope and a value that decides about their pair is a boolean in
one of them and an integer in the other. -/
theorem equal_candidates_check_alike_iff (h : a.same b = true) :
    (∀ r, CheckedAlike a b r) ↔ ¬ a.Diverges b := by
  constructor
  · intro halike hdiverges
    exact hdiverges.not_checkedAlike h (halike .empty)
  · intro hdiverges r
    have hcheck := check_eq_of_same h hdiverges r
    exact ⟨by rw [hcheck], fun p => by rw [hcheck]⟩

/-- Where the version is no natural number, the id may be true in one and one in the other, and the arguments
may stand in any order. -/
theorem equal_candidates_check_alike_iff_of_negative_version :
    let a := ofArguments "A" [("id", .bool true), ("version", .int (-1)), ("since", .bool false)]
    let b := ofArguments "A" [("since", .int 0), ("version", .int (-1)), ("id", .int 1)]
    a.same b = true ∧ a ≠ b ∧ (∀ r, CheckedAlike a b r) ∧
      (check a .empty).diagnostics = [⟨.invalidField, "A", some "version"⟩] := by
  intro a b
  have hsame : a.same b = true := by decide
  refine ⟨hsame, by decide, (equal_candidates_check_alike_iff hsame).mpr ?_, by decide⟩
  rintro ⟨-, x, y, hx, hy, hparts⟩
  obtain rfl := hx.unique (carries_ofArguments _ _)
  obtain rfl := hy.unique (carries_ofArguments _ _)
  cases hparts with
  | version hi hs hne hv hw hmixed =>
    cases hv
    cases hw
    cases hmixed
  | id hi hj hmixed hv hn =>
    cases hv
    exact absurd hn (by decide)

/-- The version one is admitted, and the version true, which equals it, is not. -/
theorem equal_versions_are_not_checked_alike :
    let a := ofArguments "A" [("id", .text "x"), ("version", .bool true)]
    let b := ofArguments "A" [("id", .text "x"), ("version", .int 1)]
    read a.toDatum = .ok a ∧ read b.toDatum = .ok b ∧ a.same b = true ∧
      (check a .empty).diagnostics = [⟨.invalidField, "A", some "version"⟩] ∧
      (check b .empty).diagnostics = [] ∧ ¬ CheckedAlike a b .empty := by
  intro a b
  refine ⟨by decide +kernel, by decide +kernel, by decide, by decide, by decide, fun halike => ?_⟩
  exact absurd halike.diagnostics (by decide)

end Candidate
end SerialAudit

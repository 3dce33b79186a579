import Mathlib.Data.List.Forall2
import SerialAudit.Proofs.Audit.Pass

/-! The parts of a candidate that a check looks at.

* `Attribute.Agrees` : two annotations give the id and the version the same values, if any;
* `Candidate.Agrees` : two candidates are alike in name, in being in scope and in what their first
  annotation with the serialized id says;
* `Registry.outcomes` : everything that the checks of a pass give back.

A check cannot tell candidates apart that agree (`Candidate.Agrees.check_eq`), and so neither can a pass
nor a run (`agreeing_candidates_check_alike`). -/
namespace SerialAudit
set_option autoImplicit false

/-! ## Agreement -/

structure Attribute.Agrees (a b : Attribute) : Prop where
  id : a.argument? "id" = b.argument? "id"
  version : a.argument? "version" = b.argument? "version"

namespace Candidate

structure Agrees (a b : Candidate) : Prop where
  name : a.name = b.name
  scope : a.Scoped ↔ b.Scoped
  annotated : (∃ x ∈ a.attributes, x.typeName = "SerializedIdAttribute") ↔
    ∃ y ∈ b.attributes, y.typeName = "SerializedIdAttribute"
  first : ∀ x y, a.Carries x → b.Carries y → x.Agrees y

theorem exists_typeName_iff (c : Candidate) :
    (∃ x ∈ c.attributes, x.typeName = "SerializedIdAttribute") ↔ ∃ a, c.Carries a := by
  cases ha : c.serializedId? with
  | none =>
    have hnone := c.serializedId?_eq_none_iff.mp ha
    refine iff_of_false ?_ ?_
    · rintro ⟨x, hx, hname⟩
      exact hnone x hx hname
    · rintro ⟨a, hname, before, after, hsplit, -⟩
      exact hnone a (by simp [hsplit]) hname
  | some a =>
    have hcarries := (c.serializedId?_eq_some_iff a).mp ha
    exact iff_of_true ⟨a, List.mem_of_find?_eq_some ha, hcarries.1⟩ ⟨a, hcarries⟩

/-- The first annotations of candidates that agree, side by side. -/
theorem Agrees.first_cases {a b : Candidate} (h : a.Agrees b) :
    ((∀ x ∈ a.attributes, x.typeName ≠ "SerializedIdAttribute") ∧
        ∀ y ∈ b.attributes, y.typeName ≠ "SerializedIdAttribute") ∨
      ∃ x y, a.Carries x ∧ b.Carries y ∧ x.Agrees y := by
  by_cases ha : ∃ x ∈ a.attributes, x.typeName = "SerializedIdAttribute"
  · obtain ⟨x, hx⟩ := a.exists_typeName_iff.mp ha
    obtain ⟨y, hy⟩ := b.exists_typeName_iff.mp (h.annotated.mp ha)
    exact Or.inr ⟨x, y, hx, hy, h.first x y hx hy⟩
  · have hb := mt h.annotated.mpr ha
    exact Or.inl ⟨fun x hx hname => ha ⟨x, hx, hname⟩, fun y hy hname => hb ⟨y, hy, hname⟩⟩

theorem Agrees.of_carries {a b : Candidate} {x y : Attribute} (hname : a.name = b.name)
    (hscope : a.Scoped ↔ b.Scoped) (hx : a.Carries x) (hy : b.Carries y) (hxy : x.Agrees y) :
    a.Agrees b where
  name := hname
  scope := hscope
  annotated := iff_of_true (a.exists_typeName_iff.mpr ⟨x, hx⟩) (b.exists_typeName_iff.mpr ⟨y, hy⟩)
  first x' y' hx' hy' := by
    obtain rfl := hx.unique hx'
    obtain rfl := hy.unique hy'
    exact hxy

end Candidate

/-! ## One check -/

theorem Attribute.Agrees.pair?_eq {a b : Attribute} (h : a.Agrees b) : a.pair? = b.pair? := by
  have hid : a.argument? idField = b.argument? idField := h.id
  have hversion : a.argument? versionField = b.argument? versionField := h.version
  rw [pair?, pair?, hid, hversion]

theorem Candidate.Agrees.evaluate_eq {a b : Candidate} (h : a.Agrees b) {x y : Attribute}
    (hxy : x.Agrees y) (r : Registry) : evaluate a x r = evaluate b y r := by
  rw [evaluate, evaluate, hxy.pair?_eq, h.name]

theorem Candidate.Agrees.check_eq {a b : Candidate} (h : a.Agrees b) (r : Registry) :
    check a r = check b r := by
  by_cases hscope : a.Scoped
  · have hscope' := h.scope.mp hscope
    rcases h.first_cases with ⟨ha, hb⟩ | ⟨x, y, hx, hy, hxy⟩
    · rw [check_of_settled (.unannotated hscope ha), check_of_settled (.unannotated hscope' hb), h.name]
    · rw [check_of_carries hscope hx, check_of_carries hscope' hy, h.evaluate_eq hxy]
  · have hscope' := mt h.scope.mpr hscope
    rw [check_of_settled (.outOfScope hscope), check_of_settled (.outOfScope hscope')]

/-- The line about a check in a run names the candidate, and nothing else of it. -/
theorem Candidate.Agrees.check_run_eq {a b : Candidate} (h : a.Agrees b) (run : Run) :
    run.check a = run.check b := by
  rw [Run.check, Run.check, h.check_eq, h.name]

/-! ## Passes and runs -/

/-- What each check of a pass gives back: its diagnostics, the registry after it and its log. -/
def Registry.outcomes (r : Registry) : List Candidate → List Outcome
  | [] => []
  | c :: cs => check c r :: (check c r).registry.outcomes cs

theorem Registry.map_diagnostics_outcomes (r : Registry) (cs : List Candidate) :
    (r.outcomes cs).map Outcome.diagnostics = r.findings cs := by
  induction cs generalizing r with
  | nil => rfl
  | cons c cs ih => exact congrArg _ (ih _)

variable {as bs : List Candidate}

theorem Registry.outcomes_eq_of_agrees (h : List.Forall₂ Candidate.Agrees as bs) (r : Registry) :
    r.outcomes as = r.outcomes bs ∧ r.after as = r.after bs := by
  induction h generalizing r with
  | nil => exact ⟨rfl, rfl⟩
  | @cons a b as bs hab _ ih =>
    obtain ⟨houtcomes, hafter⟩ := ih (check b r).registry
    rw [outcomes, outcomes, after, after, hab.check_eq, houtcomes, hafter]
    exact ⟨rfl, rfl⟩

theorem Run.checkAll_eq_of_agrees (h : List.Forall₂ Candidate.Agrees as bs) (run : Run) :
    (run.checkAll as).results.map Prod.snd = (run.checkAll bs).results.map Prod.snd ∧
      (run.checkAll as).run = (run.checkAll bs).run ∧
      (run.checkAll as).log = (run.checkAll bs).log := by
  induction h generalizing run with
  | nil => exact ⟨rfl, rfl, rfl⟩
  | @cons a b as bs hab _ ih =>
    obtain ⟨hresults, hrun, hlog⟩ := ih (run.check b).run
    simp only [checkAll, List.map_cons, hab.check_run_eq, hresults, hrun, hlog, and_self]

/-- Candidates that agree position by position cannot be told apart: on the same registry each check gives
the same diagnostics, the same log and the same registry, and in the same run the lines about the checks
are the same too. -/
theorem agreeing_candidates_check_alike (h : List.Forall₂ Candidate.Agrees as bs) (r : Registry) :
    r.findings as = r.findings bs ∧ r.outcomes as = r.outcomes bs ∧ r.after as = r.after bs ∧
    ∀ id, let run : Run := ⟨id, r⟩
      (run.checkAll as).results.map Prod.snd = (run.checkAll bs).results.map Prod.snd ∧
      (run.checkAll as).run = (run.checkAll bs).run ∧ (run.checkAll as).log = (run.checkAll bs).log := by
  obtain ⟨houtcomes, hafter⟩ := r.outcomes_eq_of_agrees h
  refine ⟨?_, houtcomes, hafter, fun id => Run.checkAll_eq_of_agrees h ⟨id, r⟩⟩
  rw [← r.map_diagnostics_outcomes, houtcomes, r.map_diagnostics_outcomes]

/-- Two classes with one pair, and the same two with other capabilities, annotations, arguments and
locations besides. -/
theorem agreeing_candidates_check_alike_of_additions :
    let plain (name : String) : Candidate := .ofPair name "x" 1
    let laden (name : String) : Candidate :=
      ⟨name, ["IDisposable", "IMigratable"],
        [⟨"SerializedId", [("id", .text "y")]⟩,
          ⟨"SerializedIdAttribute", [("version", .int 1), ("since", .bool true), ("id", .text "x")]⟩,
          ⟨"SerializedIdAttribute", [("id", .missing)]⟩], .class, false, some "a"⟩
    let as := [plain "A", plain "B"]
    let bs := [laden "A", laden "B"]
    List.Forall₂ Candidate.Agrees as bs ∧ Registry.empty.outcomes as = Registry.empty.outcomes bs ∧
      Registry.empty.findings bs = [[], [⟨.duplicateVersion, "B", none⟩]] := by
  intro plain laden as bs
  have hagrees (name : String) : (plain name).Agrees (laden name) :=
    .of_carries rfl (iff_of_true ⟨rfl, rfl, List.mem_singleton_self _⟩
      ⟨rfl, rfl, List.mem_cons_of_mem _ (List.mem_singleton_self _)⟩)
      ((Candidate.serializedId?_eq_some_iff _ _).mp rfl)
      ((Candidate.serializedId?_eq_some_iff _ _).mp rfl) ⟨rfl, rfl⟩
  have h : List.Forall₂ Candidate.Agrees as bs := .cons (hagrees "A") (.cons (hagrees "B") .nil)
  have halike := agreeing_candidates_check_alike h .empty
  exact ⟨h, halike.2.1, halike.1.symm.trans (by decide +kernel)⟩

end SerialAudit

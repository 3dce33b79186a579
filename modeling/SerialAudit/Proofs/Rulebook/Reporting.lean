import SerialAudit.Proofs.Audit.Pass
import SerialAudit.Proofs.Rulebook.Wording

/-! What is reported of the findings of a pass.

* `Rulebook.tell?` : the wording of a diagnostic at a location, where it has one;
* `Rulebook.reportAt` : what is reported of the candidate at a position of a pass;
* `Rulebook.Enables` : the rule has a definition that is enabled;
* `Registry.Tells` : a reported diagnostic is the wording of what was found at a position;
* `Rulebook.Places` : the positions to which the reported diagnostics belong, in order.

The wording of all findings is what is reported of each position, one after the other, if no wording
fails (`formatAll_findings_eq_ok_iff`). At a position there is at most one finding, so each reported
diagnostic belongs to a position of its own (`exists_places`). -/
namespace SerialAudit
set_option autoImplicit false

/-! ## Diagnostics one by one -/

/-- The diagnostic that was worded. -/
def Reported.diagnostic (x : Reported) : Diagnostic := ⟨x.rule, x.className, x.fieldName⟩

namespace Rulebook

def tell? (b : Rulebook) (location : Option String) (d : Diagnostic) : Option Reported :=
  (b.format d location).toOption.join

def Enables (b : Rulebook) (rule : Rule) : Prop :=
  ∃ e, b.describe? rule.name = some e ∧ e.enabled = true

theorem tell?_of_format {b : Rulebook} {d : Diagnostic} {location : Option String}
    {o : Option Reported} (h : b.format d location = .ok o) : b.tell? location d = o := by
  rw [tell?, h]
  rfl

theorem format_of_describe?_eq_none {b : Rulebook} {d : Diagnostic}
    (h : b.describe? d.rule.name = none) (location : Option String) :
    b.format d location = .error (.unknownRule d.rule.name) := by
  rw [format, describe, h]
  rfl

/-- A wording keeps the diagnostic and its location as they are. -/
theorem diagnostic_of_tell? {b : Rulebook} {d : Diagnostic} {location : Option String}
    {x : Reported} (h : b.tell? location d = some x) : x.diagnostic = d ∧ x.location = location := by
  rw [tell?] at h
  cases he : b.describe? d.rule.name with
  | none =>
    rw [format_of_describe?_eq_none he] at h
    cases h
  | some e =>
    rw [format_of_describe? he] at h
    by_cases henabled : e.enabled = true
    · rw [if_pos henabled] at h
      cases hrender : Template.render (names d) e.messageFormat with
      | error fault => rw [hrender] at h; cases h
      | ok message => rw [hrender] at h; cases h; exact ⟨rfl, rfl⟩
    · rw [if_neg henabled] at h
      cases h

theorem exists_tell?_iff {b : Rulebook} {d : Diagnostic} {location : Option String}
    {o : Option Reported} (h : b.format d location = .ok o) :
    (∃ x, b.tell? location d = some x) ↔ b.Enables d.rule := by
  rw [tell?_of_format h]
  cases he : b.describe? d.rule.name with
  | none =>
    rw [format_of_describe?_eq_none he] at h
    cases h
  | some e =>
    rw [format_of_describe? he] at h
    by_cases henabled : e.enabled = true
    · refine iff_of_true ?_ ⟨e, he, henabled⟩
      rw [if_pos henabled] at h
      cases hrender : Template.render (names d) e.messageFormat with
      | error fault => rw [hrender] at h; cases h
      | ok message => rw [hrender] at h; cases h; exact ⟨_, rfl⟩
    · rw [if_neg henabled] at h
      cases h
      refine iff_of_false (fun ⟨x, hx⟩ => Option.some_ne_none x hx.symm) ?_
      rintro ⟨e', he', henabled'⟩
      obtain rfl : e = e' := Option.some.inj (he.symm.trans he')
      exact henabled henabled'

/-! ## All diagnostics -/

theorem formatEach_of_ok {b : Rulebook} {location : Option String} {ds : List Diagnostic}
    (h : ∀ d ∈ ds, ∃ o, b.format d location = .ok o) :
    b.formatEach location ds = .ok (ds.filterMap (b.tell? location)) := by
  induction ds with
  | nil => rfl
  | cons d ds ih =>
    obtain ⟨⟨o, ho⟩, hrest⟩ := List.forall_mem_cons.mp h
    rw [formatEach, ho, ih hrest, List.filterMap_cons, tell?_of_format ho]
    cases o <;> rfl

theorem formatAll_of_ok {b : Rulebook} {results : List (Candidate × List Diagnostic)}
    (h : ∀ x ∈ results, ∀ d ∈ x.2, ∃ o, b.format d x.1.location = .ok o) :
    b.formatAll results =
      .ok (results.flatMap fun x => x.2.filterMap (b.tell? x.1.location)) := by
  induction results with
  | nil => rfl
  | cons x results ih =>
    obtain ⟨hfirst, hrest⟩ := List.forall_mem_cons.mp h
    rw [formatAll, formatEach_of_ok hfirst, ih hrest]
    rfl

theorem formatAll_eq_ok_iff (b : Rulebook) (results : List (Candidate × List Diagnostic))
    (xs : List Reported) :
    b.formatAll results = .ok xs ↔
      (∀ x ∈ results, ∀ d ∈ x.2, ∃ o, b.format d x.1.location = .ok o) ∧
        results.flatMap (fun x => x.2.filterMap (b.tell? x.1.location)) = xs := by
  constructor
  · intro h
    have hall : ∀ x ∈ results, ∀ d ∈ x.2, ∃ o, b.format d x.1.location = .ok o := by
      intro x hx d hd
      cases hformat : b.format d x.1.location with
      | ok o => exact ⟨o, rfl⟩
      | error fault =>
        obtain ⟨fault', hfault⟩ := (b.formatAll_eq_error_iff results).mpr ⟨x, hx, d, hd, fault, hformat⟩
        cases h.symm.trans hfault
    exact ⟨hall, Except.ok.inj ((formatAll_of_ok hall).symm.trans h)⟩
  · rintro ⟨hall, rfl⟩
    exact formatAll_of_ok hall

/-! ## Position by position -/

variable (b : Rulebook) (r : Registry) (cs : List Candidate)

def reportAt (i : Fin cs.length) : List Reported :=
  (check (cs.get i) (r.after (cs.take i))).diagnostics.filterMap (b.tell? (cs.get i).location)

end Rulebook

theorem Registry.zip_findings (r : Registry) (cs : List Candidate) :
    cs.zip (r.findings cs) = (List.finRange cs.length).map fun i =>
      (cs.get i, (SerialAudit.check (cs.get i) (r.after (cs.take i))).diagnostics) := by
  induction cs generalizing r with
  | nil => rfl
  | cons c cs ih =>
    have hrest := ih (SerialAudit.check c r).registry
    simp only [List.length_cons]
    rw [List.finRange_succ, List.map_cons, List.map_map, findings, List.zip_cons_cons, hrest]
    rfl

namespace Rulebook

variable {b : Rulebook} {r : Registry} {cs : List Candidate}

theorem formatAll_findings_eq_ok_iff (xs : List Reported) :
    b.formatAll (cs.zip (r.findings cs)) = .ok xs ↔
      (∀ i : Fin cs.length, ∀ d ∈ (check (cs.get i) (r.after (cs.take i))).diagnostics,
        ∃ o, b.format d (cs.get i).location = .ok o) ∧
        (List.finRange cs.length).flatMap (b.reportAt r cs) = xs := by
  rw [formatAll_eq_ok_iff, Registry.zip_findings, List.flatMap_map]
  simp only [List.forall_mem_map, List.mem_finRange, true_imp_iff]
  rfl

end Rulebook

/-! ## The positions of what is reported -/

/-- The one finding at a position, worded under the name and at the location of the candidate there. -/
structure Registry.Tells (r : Registry) (cs : List Candidate) (i : Fin cs.length) (x : Reported) :
    Prop where
  finding : (r.findings cs)[i.val]? = some [x.diagnostic]
  name : x.className = (cs.get i).name
  location : x.location = (cs.get i).location

namespace Rulebook

/-- Each position with a finding of an enabled rule has its place among what is reported. -/
structure Places (b : Rulebook) (r : Registry) (cs : List Candidate) (xs : List Reported)
    (positions : List (Fin cs.length)) : Prop where
  ascending : positions.Pairwise (· < ·)
  tells : List.Forall₂ (r.Tells cs) positions xs
  complete : ∀ i, i ∈ positions ↔
    ∃ d, (r.findings cs)[i.val]? = some [d] ∧ b.Enables d.rule

theorem forall₂_flatMap {α β : Type} {f : α → List β} (hf : ∀ a, (f a).length ≤ 1) (l : List α) :
    List.Forall₂ (fun a x => f a = [x]) (l.filter fun a => !(f a).isEmpty) (l.flatMap f) := by
  induction l with
  | nil => exact .nil
  | cons a l ih =>
    rw [List.flatMap_cons, List.filter_cons]
    cases hfa : f a with
    | nil => exact ih
    | cons x rest =>
      have hrest : rest = [] := by
        have hlen := hf a
        rw [hfa, List.length_cons] at hlen
        exact List.eq_nil_of_length_eq_zero (by omega)
      subst hrest
      exact .cons hfa ih

variable {b : Rulebook} {r : Registry} {cs : List Candidate}

theorem length_reportAt_le (b : Rulebook) (r : Registry) (cs : List Candidate) (i : Fin cs.length) :
    (b.reportAt r cs i).length ≤ 1 :=
  Nat.le_trans (List.length_filterMap_le _ _) (length_check_le _ _)

/-- A position at which something is found has that one finding. -/
theorem findings_of_mem {i : Fin cs.length} {d : Diagnostic}
    (h : d ∈ (check (cs.get i) (r.after (cs.take i))).diagnostics) :
    (r.findings cs)[i.val]? = some [d] := by
  rw [Registry.getElem?_findings]
  refine congrArg some ?_
  obtain ⟨before, after, hsplit⟩ := List.append_of_mem h
  have hlen := length_check_le (cs.get i) (r.after (cs.take i))
  rw [hsplit, List.length_append, List.length_cons] at hlen
  have hbefore : before = [] := List.eq_nil_of_length_eq_zero (by omega)
  have hafter : after = [] := List.eq_nil_of_length_eq_zero (by omega)
  rw [hsplit, hbefore, hafter, List.nil_append]

theorem tells_of_mem_reportAt {i : Fin cs.length} {x : Reported} (h : x ∈ b.reportAt r cs i) :
    r.Tells cs i x := by
  obtain ⟨d, hd, htell⟩ := List.mem_filterMap.mp h
  obtain ⟨rfl, hlocation⟩ := diagnostic_of_tell? htell
  exact ⟨findings_of_mem hd, ((verdict_iff_check _ _ _).mpr rfl).className_eq _ hd, hlocation⟩

theorem exists_places {xs : List Reported} (h : b.formatAll (cs.zip (r.findings cs)) = .ok xs) :
    ∃ positions, b.Places r cs xs positions := by
  obtain ⟨hok, rfl⟩ := (formatAll_findings_eq_ok_iff xs).mp h
  refine ⟨(List.finRange cs.length).filter fun i => !(b.reportAt r cs i).isEmpty,
    (List.pairwise_lt_finRange _).filter _, ?_, fun i => ?_⟩
  · refine (forall₂_flatMap (b.length_reportAt_le r cs) _).imp fun i x hx => ?_
    exact tells_of_mem_reportAt (hx ▸ List.mem_singleton_self x)
  · have hexists : i ∈ (List.finRange cs.length).filter (fun i => !(b.reportAt r cs i).isEmpty) ↔
        ∃ x, x ∈ b.reportAt r cs i := by
      simp [← List.isEmpty_eq_false_iff_exists_mem]
    rw [hexists]
    constructor
    · rintro ⟨x, hx⟩
      obtain ⟨d, hd, htell⟩ := List.mem_filterMap.mp hx
      obtain ⟨o, ho⟩ := hok i d hd
      exact ⟨d, findings_of_mem hd, (exists_tell?_iff ho).mp ⟨x, htell⟩⟩
    · rintro ⟨d, hd, henabled⟩
      rw [Registry.getElem?_findings, Option.some_inj] at hd
      have hmem : d ∈ (check (cs.get i) (r.after (cs.take i))).diagnostics :=
        hd ▸ List.mem_singleton_self d
      obtain ⟨o, ho⟩ := hok i d hmem
      obtain ⟨x, hx⟩ := (exists_tell?_iff ho).mpr henabled
      exact ⟨x, List.mem_filterMap.mpr ⟨d, hmem, hx⟩⟩

end Rulebook
end SerialAudit

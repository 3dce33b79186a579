import Mathlib.Data.Set.Function
import SerialAudit.Proofs.Audit.Pass

/-! Where the content of a registry comes from: the pairs are those of the steps that passed.

* `Registry.taken` : the pairs that a pass registers, in order;
* `Registry.Passed` : the positions of a pass at which a candidate in scope got no diagnostic;
* `Candidate.claim` : the pair of a candidate that names one.

What a pass adds to the registry is `taken`, as pairs (`toPairs_after`) and as ids in their order
(`ids_after`); and `taken` lists the pairs of the positions that passed (`taken_eq_map`). -/
namespace SerialAudit
set_option autoImplicit false

open Registry (Pair)

/-- The pair of a candidate, if it names one. -/
def Candidate.claim (c : Candidate) : Pair := c.pair?.getD ("", 0)

theorem Candidate.Names.claim_eq {c : Candidate} {p : Pair} (h : c.Names p) : c.claim = p := by
  rw [claim, pair?_of_names h, Option.getD_some]

theorem Candidate.PassesOn.names {c : Candidate} {r : Registry} (h : c.PassesOn r) :
    c.Names c.claim ∧ ¬ r.Holds c.claim ∧
      (check c r).registry = (r.register c.claim.1 c.claim.2).2 := by
  rcases check_cases c r with ⟨p, hp, hfree, -, he⟩ | ⟨hn, -, -⟩
  · rw [hp.claim_eq]
    exact ⟨hp, hfree, he⟩
  · exact absurd h hn

namespace Registry

/-! ## What a pass registers -/

/-- The pairs that a pass registers, in the order of the checks. -/
def taken (r : Registry) : List Candidate → List Pair
  | [] => []
  | c :: cs =>
    let rest := (check c r).registry.taken cs
    if c.PassesOn r then c.claim :: rest else rest

theorem WellFormed.toPairs_after {r : Registry} (h : r.WellFormed) (cs : List Candidate) :
    (r.after cs).toPairs.Perm (r.taken cs ++ r.toPairs) := by
  induction cs generalizing r with
  | nil => exact List.Perm.refl _
  | cons c cs ih =>
    by_cases hp : c.PassesOn r
    · obtain ⟨-, hfree, he⟩ := hp.names
      have hrest := ih (h.register c.claim)
      rw [← he] at hrest
      rw [taken, if_pos hp]
      refine hrest.trans ?_
      rw [he]
      exact ((h.toPairs_register hfree).append_left _).trans List.perm_middle
    · have hrest := ih h
      rw [taken, if_neg hp, after, registry_check_of_not_passesOn hp]
      exact hrest

/-- A new id stands where its first pair was registered; ids that were there keep their places. -/
theorem ids_after (r : Registry) (cs : List Candidate) :
    (r.after cs).ids = r.ids ++ (((r.taken cs).map Prod.fst).removeAll r.ids).eraseDups := by
  induction cs generalizing r with
  | nil => simp [after, taken, List.removeAll]
  | cons c cs ih =>
    by_cases hp : c.PassesOn r
    · obtain ⟨-, -, he⟩ := hp.names
      rw [after, ih, taken, if_pos hp, List.map_cons, List.cons_removeAll, he, ids_register]
      by_cases hid : c.claim.1 ∈ r.ids
      · simp [hid]
      · -- the new id is removed from all that follows, as after its first occurrence
        have hfilter : ∀ l : List String, l.removeAll (r.ids ++ [c.claim.1]) =
            (l.removeAll r.ids).filter fun b => !b == c.claim.1 := by
          intro l
          simp only [List.removeAll, List.filter_filter]
          refine List.filter_congr fun x _ => ?_
          by_cases hx : x = c.claim.1 <;> simp [hx]
        simp [hid, hfilter, List.eraseDups_cons]
    · rw [after, registry_check_of_not_passesOn hp, ih, taken, if_neg hp,
        registry_check_of_not_passesOn hp]

/-! ## The positions that passed -/

/-- At this position of a pass a candidate in scope got no diagnostic. -/
def Passed (r : Registry) (cs : List Candidate) (i : Fin cs.length) : Prop :=
  (cs.get i).Scoped ∧ (r.findings cs)[i.val]? = some []

instance (r : Registry) (cs : List Candidate) (i : Fin cs.length) : Decidable (r.Passed cs i) :=
  inferInstanceAs (Decidable (_ ∧ _))

theorem passed_iff (r : Registry) (cs : List Candidate) (i : Fin cs.length) :
    r.Passed cs i ↔ (cs.get i).PassesOn (r.after (cs.take i)) := by
  rw [Passed, getElem?_findings, Option.some_inj]
  exact Iff.rfl

def passedSteps (r : Registry) (cs : List Candidate) : List (Fin cs.length) :=
  (List.finRange cs.length).filter fun i => r.Passed cs i

theorem mem_passedSteps {r : Registry} {cs : List Candidate} {i : Fin cs.length} :
    i ∈ r.passedSteps cs ↔ r.Passed cs i := by
  simp [passedSteps]

theorem taken_eq_map (r : Registry) (cs : List Candidate) :
    r.taken cs = (r.passedSteps cs).map fun i => (cs.get i).claim := by
  induction cs generalizing r with
  | nil => rfl
  | cons c cs ih =>
    have hrest : ((List.finRange cs.length).map Fin.succ).filter (fun i => r.Passed (c :: cs) i) =
        ((check c r).registry.passedSteps cs).map Fin.succ := by
      rw [List.filter_map]
      rfl
    have htail : (((check c r).registry.passedSteps cs).map Fin.succ).map
        (fun i => ((c :: cs).get i).claim) = (check c r).registry.taken cs := by
      rw [List.map_map, ih]
      rfl
    have hhead : r.Passed (c :: cs) (0 : Fin (cs.length + 1)) ↔ c.PassesOn r := r.passed_iff (c :: cs) 0
    have hsteps : r.passedSteps (c :: cs) =
        if c.PassesOn r then
          (0 : Fin (cs.length + 1)) :: ((check c r).registry.passedSteps cs).map Fin.succ
        else ((check c r).registry.passedSteps cs).map Fin.succ := by
      show List.filter _ (List.finRange (cs.length + 1)) = _
      rw [List.finRange_succ, List.filter_cons, hrest]
      simp only [hhead, decide_eq_true_eq]
    rw [hsteps, taken]
    split
    · exact congrArg (c.claim :: ·) htail.symm
    · exact htail.symm

/-! ## Passes from the empty registry -/

theorem named_of_mem_entries {cs : List Candidate} {e : String × List Int}
    (he : e ∈ (Registry.empty.after cs).entries) {v : Int} (hv : v ∈ e.2) :
    e.1 ≠ "" ∧ 0 ≤ v := by
  have hwf : (Registry.empty.after cs).WellFormed := (Reachable.empty.after cs).wellFormed
  have hmem : (e.1, v) ∈ (Registry.empty.after cs).toPairs :=
    List.mem_flatMap.mpr ⟨e, he, List.mem_map.mpr ⟨v, hv, rfl⟩⟩
  rcases (holds_after _ cs _).mp ((hwf.mem_toPairs _).mp hmem) with h | ⟨c, -, -, a, -, ha⟩
  · exact absurd h (not_holds_empty _)
  · exact ⟨ha.id_ne_empty, ha.version_nonneg⟩

theorem bijOn_passed (cs : List Candidate) :
    Set.BijOn (fun i : Fin cs.length => (cs.get i).claim) {i | Registry.empty.Passed cs i}
      {p | p ∈ (Registry.empty.after cs).toPairs} := by
  have hperm : (Registry.empty.after cs).toPairs.Perm
      ((Registry.empty.passedSteps cs).map fun i => (cs.get i).claim) := by
    have h := WellFormed.of_empty.toPairs_after cs
    rw [toPairs_empty, List.append_nil, taken_eq_map] at h
    exact h
  have hnodup : ((Registry.empty.passedSteps cs).map fun i => (cs.get i).claim).Nodup :=
    hperm.nodup_iff.mp (Reachable.empty.after cs).wellFormed.nodup_toPairs
  refine ⟨fun i hi => ?_, fun i hi j hj hij => ?_, fun p hp => ?_⟩
  · exact hperm.mem_iff.mpr (List.mem_map_of_mem (mem_passedSteps.mpr hi))
  · exact List.inj_on_of_nodup_map hnodup (mem_passedSteps.mpr hi) (mem_passedSteps.mpr hj) hij
  · obtain ⟨i, hi, rfl⟩ := List.mem_map.mp (hperm.mem_iff.mp hp)
    exact ⟨i, mem_passedSteps.mp hi, rfl⟩

/-- A registry that arises from checks holds, each once, the pairs of the steps that passed, its ids in
the order in which they first passed; all other steps left it as it was. -/
theorem provenance (cs : List Candidate) :
    (∀ e ∈ (Registry.empty.after cs).entries, e.1 ≠ "" ∧ e.2 ≠ [] ∧ ∀ v ∈ e.2, 0 ≤ v) ∧
    (∃ pairAt : Fin cs.length → Pair,
      (∀ i, Registry.empty.Passed cs i → (cs.get i).Names (pairAt i)) ∧
      Set.BijOn pairAt {i | Registry.empty.Passed cs i}
        {p | p ∈ (Registry.empty.after cs).toPairs} ∧
      (Registry.empty.after cs).entries.map Prod.fst =
        ((Registry.empty.passedSteps cs).map fun i => (pairAt i).1).eraseDups) ∧
    (Registry.empty.after cs).toPairs.Nodup ∧
    (Registry.empty.after cs).size = (Registry.empty.passedSteps cs).length ∧
    ∀ i : Fin cs.length, (¬ (cs.get i).Scoped ∨ (Registry.empty.findings cs)[i.val]? ≠ some []) →
      Registry.empty.after (cs.take (i + 1)) = Registry.empty.after (cs.take i) := by
  have hwf : (Registry.empty.after cs).WellFormed := (Reachable.empty.after cs).wellFormed
  refine ⟨fun e he => ?_, ⟨fun i => (cs.get i).claim, fun i hi => ?_, bijOn_passed cs, ?_⟩,
    hwf.nodup_toPairs, ?_, fun i hi => ?_⟩
  · have hne : e.2 ≠ [] := hwf.inhabited e he
    obtain ⟨v, hv⟩ := List.exists_mem_of_ne_nil _ hne
    exact ⟨(named_of_mem_entries he hv).1, hne, fun w hw => (named_of_mem_entries he hw).2⟩
  · exact ((passed_iff _ cs i).mp hi).names.1
  · have h := ids_after .empty cs
    have hnil : Registry.empty.ids = [] := rfl
    rw [taken_eq_map, List.map_map, hnil, List.nil_append, List.removeAll_nil] at h
    exact h
  · have h := (WellFormed.of_empty.toPairs_after cs).length_eq
    rw [taken_eq_map] at h
    simpa [size_eq_length_toPairs] using h
  · have hpass : ¬ (cs.get i).PassesOn (Registry.empty.after (cs.take i)) := by
      rw [← passed_iff, Passed]
      exact fun h => hi.elim (· h.1) (· h.2)
    have htake : cs.take (i + 1) = cs.take i ++ [cs.get i] := List.take_succ_eq_append_getElem i.isLt
    rw [htake, after_append, after, after, registry_check_of_not_passesOn hpass]

end Registry
end SerialAudit

import SerialAudit.Proofs.Audit.Pass

/-! One candidate more in a pass.

* `Candidate.FirstNaming` : the first of some candidates that name a pair;
* `Registry.Brings` : a candidate names a pair that neither the registry nor some others had.

Two registries of which one holds more give a candidate the same diagnostics, unless it names a pair
that only the larger one holds (`diagnostics_check_ne_iff`). So a candidate that is put in between others
changes the result of the first later one that names its pair, and no other (`insertion_disturbs_one`). -/
namespace SerialAudit
set_option autoImplicit false

open Registry (Pair)

/-! ## One check on two registries -/

/-- Where the results on a registry and on a larger one differ, they are a pass and a duplicate. -/
theorem diagnostics_check_of_names_of_not_holds {c : Candidate} {r s : Registry} {p : Pair}
    (hp : c.Names p) (hr : ¬ r.Holds p) (hs : s.Holds p) :
    (check c r).diagnostics = [] ∧ (check c s).diagnostics = [c.duplicate] := by
  rw [check_of_names hp, check_of_names hp, if_neg hr, if_pos hs]
  exact ⟨rfl, rfl⟩

theorem diagnostics_check_ne_iff {r s : Registry} (h : ∀ p, r.Holds p → s.Holds p) (c : Candidate) :
    (check c s).diagnostics ≠ (check c r).diagnostics ↔ ∃ p, c.Names p ∧ ¬ r.Holds p ∧ s.Holds p := by
  constructor
  · intro hne
    rcases c.settled_or_names with ⟨ds, hds⟩ | ⟨p, hp⟩
    · rw [check_of_settled hds, check_of_settled hds] at hne
      exact absurd rfl hne
    · refine ⟨p, hp, fun hr => hne ?_, by_contra fun hs => hne ?_⟩
      · rw [check_of_names hp, check_of_names hp, if_pos hr, if_pos (h p hr)]
      · rw [check_of_names hp, check_of_names hp, if_neg hs, if_neg fun hr => hs (h p hr)]
  · rintro ⟨p, hp, hr, hs⟩
    obtain ⟨hpass, hduplicate⟩ := diagnostics_check_of_names_of_not_holds hp hr hs
    rw [hpass, hduplicate]
    exact List.cons_ne_nil _ _

/-! ## A pass with one candidate more -/

namespace Candidate

/-- Of these candidates this is the first that names the pair. -/
def FirstNaming (cs : List Candidate) (p : Pair) (i : Fin cs.length) : Prop :=
  (cs.get i).Names p ∧ ∀ j < i, ¬ (cs.get j).Names p

theorem FirstNaming.unique {cs : List Candidate} {p : Pair} {i j : Fin cs.length}
    (hi : FirstNaming cs p i) (hj : FirstNaming cs p j) : i = j :=
  Fin.le_antisymm (Fin.not_lt.mp fun hlt => hi.2 j hlt hj.1) (Fin.not_lt.mp fun hlt => hj.2 i hlt hi.1)

end Candidate

open Candidate (FirstNaming)

namespace Registry

/-- After a pass over some candidates, this one names a pair that was not there. -/
def Brings (r : Registry) (xs : List Candidate) (c : Candidate) (p : Pair) : Prop :=
  c.Names p ∧ ¬ r.Holds p ∧ ∀ x ∈ xs, ¬ x.Names p

theorem brings_iff (r : Registry) (xs : List Candidate) (c : Candidate) (p : Pair) :
    r.Brings xs c p ↔ c.Names p ∧ ¬ (r.after xs).Holds p := by
  rw [holds_after, not_or]
  simp only [Brings, not_exists, not_and]

/-- What the registry holds besides, once a candidate was put in, is what the candidate brings. -/
theorem holds_after_insert (r : Registry) (xs ys : List Candidate) (c : Candidate) (q : Pair) :
    (r.after (xs ++ c :: ys)).Holds q ↔ (r.after (xs ++ ys)).Holds q ∨ r.Brings xs c q := by
  rw [brings_iff, after_append, after_append, holds_after (r.after xs), holds_after (r.after xs),
    List.exists_mem_cons_iff]
  by_cases hold : (r.after xs).Holds q <;> simp [hold, or_comm]

/-- What is brought is free without the candidate, and held with it, up to the first that names it. -/
theorem brings_and_firstNaming_iff (r : Registry) (xs ys : List Candidate) (c : Candidate)
    (j : Fin ys.length) (p : Pair) :
    r.Brings xs c p ∧ FirstNaming ys p j ↔
      (ys.get j).Names p ∧ ¬ (r.after (xs ++ ys.take j)).Holds p ∧
        (r.after (xs ++ c :: ys.take j)).Holds p := by
  rw [holds_after_insert, after_append, holds_after_take, brings_iff, FirstNaming]
  constructor
  · rintro ⟨hbrings, hp, hnone⟩
    refine ⟨hp, ?_, Or.inr hbrings⟩
    rintro (hold | ⟨k, hk, hkp⟩)
    · exact hbrings.2 hold
    · exact hnone k hk hkp
  · rintro ⟨hp, hfree, hheld⟩
    exact ⟨hheld.resolve_left hfree, hp, fun k hk hkp => hfree (Or.inr ⟨k, hk, hkp⟩)⟩

theorem getElem?_findings_append (r : Registry) (xs ys : List Candidate) (j : Fin ys.length) :
    (r.findings (xs ++ ys))[xs.length + j.val]? =
      some (SerialAudit.check (ys.get j) (r.after (xs ++ ys.take j))).diagnostics := by
  rw [findings_append, List.getElem?_append_right (by simp), length_findings,
    Nat.add_sub_cancel_left, getElem?_findings, after_append]

theorem eraseIdx_findings_insert (r : Registry) (xs ys : List Candidate) (c : Candidate) :
    (r.findings (xs ++ c :: ys)).eraseIdx xs.length =
      r.findings xs ++ (SerialAudit.check c (r.after xs)).registry.findings ys := by
  rw [findings_append, List.eraseIdx_append_of_length_le (Nat.le_of_eq (length_findings r xs)),
    length_findings, Nat.sub_self]
  rfl

theorem getElem?_findings_insert (r : Registry) (xs ys : List Candidate) (c : Candidate)
    (j : Fin ys.length) :
    ((r.findings (xs ++ c :: ys)).eraseIdx xs.length)[xs.length + j.val]? =
      some (SerialAudit.check (ys.get j) (r.after (xs ++ c :: ys.take j))).diagnostics := by
  rw [eraseIdx_findings_insert, List.getElem?_append_right (by simp), length_findings,
    Nat.add_sub_cancel_left, getElem?_findings, after_append]
  rfl

theorem findings_insert_ne_iff (r : Registry) (xs ys : List Candidate) (c : Candidate)
    (j : Fin ys.length) :
    ((r.findings (xs ++ c :: ys)).eraseIdx xs.length)[xs.length + j.val]? ≠
        (r.findings (xs ++ ys))[xs.length + j.val]? ↔
      ∃ p, r.Brings xs c p ∧ FirstNaming ys p j := by
  have hlarger : ∀ p, (r.after (xs ++ ys.take j)).Holds p →
      (r.after (xs ++ c :: ys.take j)).Holds p := fun p hp =>
    (holds_after_insert r xs _ c p).mpr (Or.inl hp)
  rw [getElem?_findings_insert, getElem?_findings_append, ne_eq, Option.some_inj, ← ne_eq,
    diagnostics_check_ne_iff hlarger]
  exact exists_congr fun p => (brings_and_firstNaming_iff r xs ys c j p).symm

/-- A candidate is put in between others. Those before it get what they get without it. Of those after it
the first that names the pair that it brings is a duplicate now and passed without it; all others get
what they get without it, and that is all of them if it brings no pair. The registry holds what it
holds without it, and the pair that it brings. -/
theorem insertion_disturbs_one (r : Registry) (xs ys : List Candidate) (c : Candidate) :
    let without := r.findings (xs ++ ys)
    let others := (r.findings (xs ++ c :: ys)).eraseIdx xs.length
    (∀ i < xs.length, others[i]? = without[i]?) ∧
    (∀ j : Fin ys.length, others[xs.length + j.val]? ≠ without[xs.length + j.val]? ↔
      ∃ p, r.Brings xs c p ∧ FirstNaming ys p j) ∧
    (∀ p, r.Brings xs c p → ∀ j : Fin ys.length, FirstNaming ys p j →
      without[xs.length + j.val]? = some [] ∧
        others[xs.length + j.val]? = some [(ys.get j).duplicate]) ∧
    (∀ j k : Fin ys.length, others[xs.length + j.val]? ≠ without[xs.length + j.val]? →
      others[xs.length + k.val]? ≠ without[xs.length + k.val]? → j = k) ∧
    ∀ q, (r.after (xs ++ c :: ys)).Holds q ↔ (r.after (xs ++ ys)).Holds q ∨ r.Brings xs c q := by
  intro without others
  refine ⟨fun i hi => ?_, findings_insert_ne_iff r xs ys c, fun p hbrings j hj => ?_,
    fun j k hj hk => ?_, holds_after_insert r xs ys c⟩
  · have hlen : i < (r.findings xs).length := by rwa [length_findings]
    simp only [others, without]
    rw [eraseIdx_findings_insert, findings_append, List.getElem?_append_left hlen,
      List.getElem?_append_left hlen]
  · obtain ⟨hp, hfree, hheld⟩ := (brings_and_firstNaming_iff r xs ys c j p).mp ⟨hbrings, hj⟩
    obtain ⟨hpass, hduplicate⟩ := diagnostics_check_of_names_of_not_holds hp hfree hheld
    rw [getElem?_findings_insert, getElem?_findings_append, hpass, hduplicate]
    exact ⟨rfl, rfl⟩
  · obtain ⟨p, hbrings, hpj⟩ := (findings_insert_ne_iff r xs ys c j).mp hj
    obtain ⟨q, hbrings', hqk⟩ := (findings_insert_ne_iff r xs ys c k).mp hk
    obtain rfl := hbrings.1.unique hbrings'.1
    exact hpj.unique hqk

end Registry
end SerialAudit

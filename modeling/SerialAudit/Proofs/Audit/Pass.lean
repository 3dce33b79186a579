import SerialAudit.Proofs.Audit.Verdict
import SerialAudit.Run

/-! Passes: candidates checked one after the other on one registry.

* `Registry.after`, `Registry.findings` : the registry after a pass and the diagnostics of each check;
* `Candidate.PassesOn` : a candidate in scope without a diagnostic;
* `Registry.Covers` : every pair that some candidates name is held.

A check registers the pair of a candidate that passes and changes nothing else (`check_cases`). So after
a pass the pairs are those from before and those that the candidates name (`holds_after`), and each
result is the verdict when the pairs from before and those of the earlier candidates are taken
(`findings_iff_verdict_from`). A pass changes nothing if and only if all pairs were held before
(`after_eq_self_iff`). -/
namespace SerialAudit
set_option autoImplicit false

open Registry (Pair)

/-! ## One check -/

def Candidate.PassesOn (c : Candidate) (r : Registry) : Prop :=
  c.Scoped ∧ (check c r).diagnostics = []

instance (c : Candidate) (r : Registry) : Decidable (c.PassesOn r) :=
  inferInstanceAs (Decidable (_ ∧ _))

/-- What a check does: the candidate names a free pair and passes, which registers the pair, or it does
not pass and the registry stays as it is. -/
theorem check_cases (c : Candidate) (r : Registry) :
    (∃ p, c.Names p ∧ ¬ r.Holds p ∧ c.PassesOn r ∧
      (check c r).registry = (r.register p.1 p.2).2) ∨
    (¬ c.PassesOn r ∧ (check c r).registry = r ∧ ∀ p, c.Names p → r.Holds p) := by
  rcases c.settled_or_names with ⟨ds, h⟩ | ⟨p, h⟩
  · have hc := check_of_settled h r
    refine Or.inr ⟨?_, by rw [hc], fun p hp => absurd hp (h.not_names p)⟩
    rintro ⟨hs, hd⟩
    rw [hc] at hd
    cases h with
    | outOfScope h => exact h hs
    | unannotated => exact absurd hd (List.cons_ne_nil _ _)
    | failed => exact absurd hd (List.cons_ne_nil _ _)
  · have hc := check_of_names h r
    by_cases held : r.Holds p
    · rw [if_pos held] at hc
      refine Or.inr ⟨?_, by rw [hc], fun q hq => h.unique hq ▸ held⟩
      rintro ⟨-, hd⟩
      rw [hc] at hd
      exact absurd hd (List.cons_ne_nil _ _)
    · rw [if_neg held] at hc
      exact Or.inl ⟨p, h, held, ⟨h.1, by rw [hc]⟩, by rw [hc]⟩

theorem registry_check_of_not_passesOn {c : Candidate} {r : Registry} (h : ¬ c.PassesOn r) :
    (check c r).registry = r := by
  rcases check_cases c r with ⟨p, -, -, hp, -⟩ | ⟨-, he, -⟩
  · exact absurd hp h
  · exact he

theorem registry_check_of_held {c : Candidate} {r : Registry} (h : ∀ p, c.Names p → r.Holds p) :
    (check c r).registry = r := by
  rcases check_cases c r with ⟨p, hp, hfree, -, -⟩ | ⟨-, he, -⟩
  · exact absurd (h p hp) hfree
  · exact he

theorem holds_check (c : Candidate) (r : Registry) (p : Pair) :
    (check c r).registry.Holds p ↔ c.Names p ∨ r.Holds p := by
  rcases check_cases c r with ⟨q, hq, -, -, he⟩ | ⟨-, he, hn⟩
  · rw [he, Registry.holds_register]
    constructor
    · rintro (rfl | h)
      · exact Or.inl hq
      · exact Or.inr h
    · rintro (h | h)
      · exact Or.inl (h.unique hq)
      · exact Or.inr h
  · rw [he]
    constructor
    · exact Or.inr
    · rintro (h | h)
      · exact hn p h
      · exact h

namespace Registry

theorem Reachable.check {r : Registry} (h : r.Reachable) (c : Candidate) :
    (check c r).registry.Reachable := by
  rcases check_cases c r with ⟨p, -, -, -, he⟩ | ⟨-, he, -⟩
  · rw [he]
    exact h.register p
  · rw [he]
    exact h

/-! ## Passes -/

def after (r : Registry) : List Candidate → Registry
  | [] => r
  | c :: cs => (SerialAudit.check c r).registry.after cs

def findings (r : Registry) : List Candidate → List (List Diagnostic)
  | [] => []
  | c :: cs => (SerialAudit.check c r).diagnostics :: (SerialAudit.check c r).registry.findings cs

theorem after_append (r : Registry) (xs ys : List Candidate) :
    r.after (xs ++ ys) = (r.after xs).after ys := by
  induction xs generalizing r with
  | nil => rfl
  | cons x xs ih => exact ih _

theorem findings_append (r : Registry) (xs ys : List Candidate) :
    r.findings (xs ++ ys) = r.findings xs ++ (r.after xs).findings ys := by
  induction xs generalizing r with
  | nil => rfl
  | cons x xs ih => exact congrArg _ (ih _)

@[simp] theorem length_findings (r : Registry) (cs : List Candidate) :
    (r.findings cs).length = cs.length := by
  induction cs generalizing r with
  | nil => rfl
  | cons c cs ih => exact congrArg Nat.succ (ih _)

theorem getElem?_findings (r : Registry) (cs : List Candidate) (i : Fin cs.length) :
    (r.findings cs)[i.val]? =
      some (SerialAudit.check (cs.get i) (r.after (cs.take i))).diagnostics := by
  obtain ⟨i, hi⟩ := i
  induction cs generalizing r i with
  | nil => exact absurd hi (Nat.not_lt_zero i)
  | cons c cs ih =>
    cases i with
    | zero => rfl
    | succ i => exact ih _ i (Nat.lt_of_succ_lt_succ hi)

theorem Reachable.after {r : Registry} (h : r.Reachable) (cs : List Candidate) :
    (r.after cs).Reachable := by
  induction cs generalizing r with
  | nil => exact h
  | cons c cs ih => exact ih (h.check c)

theorem holds_after (r : Registry) (cs : List Candidate) (p : Pair) :
    (r.after cs).Holds p ↔ r.Holds p ∨ ∃ c ∈ cs, c.Names p := by
  induction cs generalizing r with
  | nil => simp [Registry.after]
  | cons c cs ih =>
    rw [Registry.after, ih, holds_check, List.exists_mem_cons_iff, or_assoc, or_left_comm]

/-- Candidates that come before a position, by their own positions. -/
theorem exists_mem_take_iff (cs : List Candidate) (i : Fin cs.length) (P : Candidate → Prop) :
    (∃ c ∈ cs.take i, P c) ↔ ∃ j < i, P (cs.get j) := by
  constructor
  · rintro ⟨c, hc, hp⟩
    obtain ⟨j, hj, rfl⟩ := List.mem_take_iff_getElem.mp hc
    have hji : j < i := by omega
    exact ⟨⟨j, by omega⟩, hji, hp⟩
  · rintro ⟨j, hj, hp⟩
    exact ⟨cs.get j, List.mem_take_iff_getElem.mpr ⟨j, by omega, rfl⟩, hp⟩

theorem holds_after_take (r : Registry) (cs : List Candidate) (i : Fin cs.length) (p : Pair) :
    (r.after (cs.take i)).Holds p ↔ r.Holds p ∨ ∃ j < i, (cs.get j).Names p := by
  rw [holds_after, exists_mem_take_iff]

theorem findings_iff_verdict_from (r : Registry) (cs : List Candidate) (i : Fin cs.length)
    (ds : List Diagnostic) :
    (r.findings cs)[i.val]? = some ds ↔
      Verdict (fun p => r.Holds p ∨ ∃ j < i, (cs.get j).Names p) (cs.get i) ds := by
  have htaken : (r.after (cs.take i)).Holds = fun p => r.Holds p ∨ ∃ j < i, (cs.get j).Names p :=
    funext fun p => eq_iff_iff.mpr (holds_after_take r cs i p)
  rw [getElem?_findings, Option.some_inj, ← verdict_iff_check, htaken]

/-! ## Passes that change nothing -/

def Covers (r : Registry) (cs : List Candidate) : Prop := ∀ c ∈ cs, ∀ p, c.Names p → r.Holds p

theorem covers_after (r : Registry) (cs : List Candidate) : (r.after cs).Covers cs := fun c hc p hp =>
  (holds_after r cs p).mpr (Or.inr ⟨c, hc, hp⟩)

theorem after_eq_self_iff (r : Registry) (cs : List Candidate) : r.after cs = r ↔ r.Covers cs := by
  constructor
  · intro h
    have hcovers := covers_after r cs
    rwa [h] at hcovers
  · intro h
    induction cs with
    | nil => rfl
    | cons c cs ih =>
      rw [Registry.after, registry_check_of_held (h c List.mem_cons_self)]
      exact ih fun x hx => h x (List.mem_cons_of_mem c hx)

end Registry

/-! ## Runs -/

namespace Run

theorem registry_checkAll (r : Run) (cs : List Candidate) :
    (r.checkAll cs).run.registry = r.registry.after cs := by
  induction cs generalizing r with
  | nil => rfl
  | cons c cs ih => exact ih _

theorem results_checkAll (r : Run) (cs : List Candidate) :
    (r.checkAll cs).results = cs.zip (r.registry.findings cs) := by
  induction cs generalizing r with
  | nil => rfl
  | cons c cs ih => exact congrArg _ (ih _)

end Run
end SerialAudit

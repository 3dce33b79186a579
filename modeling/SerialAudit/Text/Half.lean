/-! Halves of surrogate pairs. An escape may name one although it is no character, and two of them side
by side stay two. In a text each half is kept as a character of its own: the 2048 characters from U+D8000
to U+D87FF, to which nothing is assigned, stand for the halves from U+D800 to U+DFFF.

A text that holds one of these characters for itself is not told apart from a text with a half. Hence
what depends on halves is stated for texts without them, as `Rulebook.Whole` requires, or for any
notion of which texts can be encoded.

* `half` : the character that stands for a half;
* `halfCode?` : the half that a character stands for;
* `hasHalf` : whether a text holds a half, so that it cannot be encoded. -/
namespace SerialAudit.Text
set_option autoImplicit false

/-- The first code point of a half, and the number of them. -/
def firstHalf : Nat := 0xD800

def halfCount : Nat := 0x800

def halfShift : Nat := 0xCA800

def isHalfCode (n : Nat) : Bool := firstHalf ≤ n && n < firstHalf + halfCount

def half (n : Nat) : Char := Char.ofNat (n + halfShift)

def halfCode? (c : Char) : Option Nat :=
  if isHalfCode (c.toNat - halfShift) then some (c.toNat - halfShift) else none

def hasHalf (s : String) : Bool := s.toList.any fun c => (halfCode? c).isSome

/-- Halves are told apart by the characters that stand for them. -/
theorem halfCode?_half {n : Nat} (h : isHalfCode n = true) : halfCode? (half n) = some n := by
  have bounds : 0xD800 ≤ n ∧ n < 0xE000 :=
    have both := Bool.and_eq_true_iff.1 h
    ⟨of_decide_eq_true both.1, of_decide_eq_true both.2⟩
  have valid : (n + halfShift).isValidChar := by
    right
    simp only [halfShift]
    omega
  have code : (half n).toNat = n + halfShift := by
    rw [half, Char.ofNat, dif_pos valid]
    rfl
  rw [halfCode?, code, Nat.add_sub_cancel, if_pos h]

example : halfCode? (half 0xDE00) = some 0xDE00 ∧ halfCode? '😀' = none ∧ hasHalf "a" = false := by
  decide +kernel

end SerialAudit.Text

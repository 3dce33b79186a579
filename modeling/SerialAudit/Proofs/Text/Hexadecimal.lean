import SerialAudit.Text.Numeral

/-! Hexadecimal numerals of a fixed width.

* `hexDigits` : the digits of a number, so many and no more;
* `hexBound` : the first number that needs more digits.

The numeral of a number below the bound is its digits (`toList_hex`), however many of them are zeros. -/
namespace SerialAudit.Text
set_option autoImplicit false

def hexDigits : Nat → Nat → List Char
  | 0, _ => []
  | width + 1, n => hexDigits width (n / 16) ++ [digitChar (n % 16)]

def hexBound : Nat → Nat
  | 0 => 1
  | width + 1 => hexBound width * 16

theorem hexDigits_zero (width : Nat) : hexDigits width 0 = List.replicate width '0' := by
  induction width with
  | zero => rfl
  | succ width ih =>
    rw [hexDigits, Nat.zero_div, ih, List.replicate_succ']
    rfl

theorem length_digitsBefore (fuel n : Nat) (tail : List Char) :
    (digitsBefore 16 fuel n tail).length = (digitsBefore 16 fuel n []).length + tail.length := by
  induction fuel generalizing n tail with
  | zero => simp [digitsBefore]
  | succ fuel ih =>
    rw [digitsBefore, digitsBefore]
    by_cases hn : n < 16
    · simp only [hn, if_true, List.length_cons, List.length_nil]
      omega
    · simp only [hn, if_false]
      rw [ih, ih (n / 16) [digitChar (n % 16)], List.length_cons, List.length_singleton]
      omega

theorem replicate_append_digitsBefore {width fuel n : Nat} (hn : n < hexBound (width + 1))
    (hfuel : n < fuel) (tail : List Char) :
    List.replicate (width + 1 - (digitsBefore 16 fuel n []).length) '0' ++ digitsBefore 16 fuel n tail =
      hexDigits (width + 1) n ++ tail := by
  induction width generalizing fuel n tail with
  | zero =>
    obtain ⟨fuel, rfl⟩ : ∃ k, fuel = k + 1 := ⟨fuel - 1, by omega⟩
    have hsmall : n < 16 := by simpa [hexBound] using hn
    rw [digitsBefore, digitsBefore]
    simp [hsmall, hexDigits]
  | succ width ih =>
    obtain ⟨fuel, rfl⟩ : ∃ k, fuel = k + 1 := ⟨fuel - 1, by omega⟩
    rw [digitsBefore, digitsBefore]
    by_cases hsmall : n < 16
    · simp only [hsmall, if_true, List.length_singleton, Nat.add_sub_cancel]
      rw [hexDigits, Nat.div_eq_of_lt hsmall, hexDigits_zero, List.append_assoc]
      rfl
    · simp only [hsmall, if_false]
      have hdiv : n / 16 < hexBound (width + 1) := by
        rw [hexBound] at hn
        omega
      have hone := ih hdiv (by omega : n / 16 < fuel) (digitChar (n % 16) :: tail)
      have hlength : width + 1 + 1 - (digitsBefore 16 fuel (n / 16) [digitChar (n % 16)]).length =
          width + 1 - (digitsBefore 16 fuel (n / 16) []).length := by
        rw [length_digitsBefore, List.length_singleton]
        omega
      have hlast : hexDigits (width + 1 + 1) n =
          hexDigits (width + 1) (n / 16) ++ [digitChar (n % 16)] := rfl
      rw [hlength, hone, hlast, List.append_assoc, List.singleton_append]

theorem toList_hex {width n : Nat} (hn : n < hexBound (width + 1)) :
    (hex (width + 1) n).toList = hexDigits (width + 1) n := by
  have hdigits := replicate_append_digitsBefore hn (Nat.lt_succ_self n) []
  rw [List.append_nil] at hdigits
  rw [hex, String.toList_ofList]
  exact hdigits

end SerialAudit.Text

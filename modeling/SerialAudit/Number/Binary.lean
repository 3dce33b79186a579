import SerialAudit.Text.Numeral

/-! Binary floating-point numbers with a 53-bit significand, as far as this library tells them apart:
a finite one by its value, zero without a sign.

* `Binary.nearest` : the number nearest to a ratio, a tie going to the even significand;
* `Binary.ofDecimal` : the number nearest to a decimal fraction;
* `Binary.toInt?` : the integer that a number equals;
* `Binary.neg`, `Binary.add`, `Binary.mul` : arithmetic, rounded once;
* `Binary.read?` : a number from its decimal text. -/
namespace SerialAudit
set_option autoImplicit false

/-- A number `mantissa * 2 ^ exponent`, an infinity, or no number. -/
inductive Binary where
  | finite (mantissa exponent : Int)
  | infinite (negative : Bool)
  | nan
  deriving DecidableEq, Repr, Inhabited

namespace Binary

def zero : Binary := .finite 0 0

/-- Quotient of natural numbers, rounded to the nearest; a tie goes to the even neighbour. -/
def roundDiv (n d : Nat) : Nat :=
  let q := n / d
  let r := n % d
  if d < 2 * r ∨ (2 * r = d ∧ q % 2 = 1) then q + 1 else q

/-- The number `b ^ e`, and 1 for a negative exponent. -/
def power (b : Nat) (e : Int) : Nat := Nat.pow b e.toNat

/-- The greatest `k` with `2 ^ k ≤ n / d`, for positive `n` and `d`. -/
def floorLog (n d : Nat) : Int :=
  let k := (n.log2 : Int) - d.log2
  if d * power 2 k ≤ n * power 2 (-k) then k else k - 1

def nearest (negative : Bool) (n d : Nat) : Binary :=
  if n = 0 ∨ d = 0 then zero
  else
    let e := max (floorLog n d - 52) (-1074)
    let q := roundDiv (n * power 2 (-e)) (d * power 2 e)
    if (1024 : Int) ≤ q.log2 + e then .infinite negative
    else .finite (Text.withSign negative q) e

/-- The number nearest to `coefficient * 10 ^ exponent`. Outside the range of all finite numbers
the power of ten is not computed. -/
def ofDecimal (negative : Bool) (coefficient : Nat) (exponent : Int) : Binary :=
  let size : Int := (Text.decimal coefficient).length + exponent
  if coefficient = 0 ∨ size < -400 then zero
  else if 400 < size then .infinite negative
  else nearest negative (coefficient * power 10 exponent) (power 10 (-exponent))

def toInt? : Binary → Option Int
  | .finite m e =>
    if 0 ≤ e then some (m * power 2 e)
    else if m % power 2 (-e) = 0 then some (m / power 2 (-e))
    else none
  | _ => none

def neg : Binary → Binary
  | .finite m e => .finite (-m) e
  | .infinite s => .infinite (!s)
  | .nan => .nan

def add : Binary → Binary → Binary
  | .finite m e, .finite m' e' =>
    let low := min e e'
    let sum := m * power 2 (e - low) + m' * power 2 (e' - low)
    nearest (sum < 0) (sum.natAbs * power 2 low) (power 2 (-low))
  | .nan, _ => .nan
  | _, .nan => .nan
  | .infinite s, .infinite s' => if s = s' then .infinite s else .nan
  | .infinite s, .finite _ _ => .infinite s
  | .finite _ _, .infinite s => .infinite s

def mul : Binary → Binary → Binary
  | .finite m e, .finite m' e' =>
    nearest (m * m' < 0) ((m * m').natAbs * power 2 (e + e')) (power 2 (-(e + e')))
  | .nan, _ => .nan
  | _, .nan => .nan
  | .infinite s, .infinite s' => .infinite (s ≠ s')
  | .infinite s, .finite m _ | .finite m _, .infinite s =>
    if m = 0 then .nan else .infinite (s ≠ decide (m < 0))

/-! ## Reading -/

def fraction (acc : Nat) : List Char → Nat × Nat × List Char
  | '.' :: cs => Text.leadingDigits (Text.valueIn? 10) 10 acc 0 cs
  | cs => (acc, 0, cs)

def exponent? : List Char → Option Int
  | [] => some 0
  | c :: cs =>
    if c = 'e' ∨ c = 'E' then
      let (negative, ds) := Text.splitSign cs
      match Text.leadingDigits (Text.valueIn? 10) 10 0 0 ds with
      | (n, count, []) => if count = 0 then none else some (Text.withSign negative n)
      | _ => none
    else none

/-- A number from its text: outer white space, a sign, digits with a point and an exponent, or the
words for infinity and for no number. -/
def read? (s : List Char) : Option Binary :=
  let (negative, cs) := Text.splitSign (Text.trim Text.isWhiteSpace s)
  let word := String.ofList (cs.map Char.toLower)
  if word = "inf" ∨ word = "infinity" then some (.infinite negative)
  else if word = "nan" then some .nan
  else
    let (whole, wholeCount, rest) := Text.leadingDigits (Text.valueIn? 10) 10 0 0 cs
    let (coefficient, count, rest) := fraction whole rest
    if wholeCount + count = 0 then none
    else (exponent? rest).map fun e => ofDecimal negative coefficient (e - count)

example : (ofDecimal false 15 (-1)).toInt? = none ∧ (ofDecimal true 30 (-1)).toInt? = some (-3) ∧
    (ofDecimal false 1 20).toInt? = some (10 ^ 20) ∧
    (ofDecimal false (10 ^ 19 + 1) (-19)).toInt? = some 1 ∧ ofDecimal false 1 400 = .infinite false := by
  decide +kernel

end Binary
end SerialAudit

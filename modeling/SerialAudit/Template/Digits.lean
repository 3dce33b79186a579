import SerialAudit.Number.Binary
import SerialAudit.Template.Fault
import SerialAudit.Template.Layout

/-! Numbers in holes. A number is shown in a base, as the character of that code, as a decimal fraction
or in scientific form; its digits before the point may stand in groups.

* `rounded` : the leading digits of a number, and the power of ten of the first of them;
* `fixedForm`, `scientificForm`, `shorterForm` : a number with a precision;
* `grouped` : digits in groups, filled with zeros to a least width;
* `Layout.onNumber` : a number, laid out. -/
namespace SerialAudit.Template
set_option autoImplicit false

/-! ## Forms with a precision -/

/-- At most `count` leading digits of a number and the power of ten of the first one. A tie is rounded
to the even digit. -/
def rounded (count n : Nat) : List Char × Nat :=
  let digits := (Text.decimal n).toList
  if digits.length ≤ count then (digits, digits.length - 1)
  else
    let kept := (Text.decimal (Binary.roundDiv n (Binary.power 10 (digits.length - count)))).toList
    if count < kept.length then (kept.take count, digits.length) else (kept, digits.length - 1)

def withZeros (length : Nat) (digits : List Char) : List Char :=
  digits ++ List.replicate (length - digits.length) '0'

/-- A point and the digits after it; without digits the point is written only where it is asked for. -/
def fraction (marked : Bool) (digits : List Char) : List Char :=
  if digits.isEmpty && !marked then [] else '.' :: digits

def exponent (n : Nat) : List Char :=
  let digits := (Text.decimal n).toList
  'e' :: '+' :: List.replicate (2 - digits.length) '0' ++ digits

def fixedForm (marked : Bool) (precision n : Nat) : List Char :=
  (Text.decimal n).toList ++ fraction marked (List.replicate precision '0')

def scientific (marked : Bool) (digits : List Char) (power : Nat) : List Char :=
  digits.take 1 ++ fraction marked (digits.drop 1) ++ exponent power

def scientificForm (marked : Bool) (precision n : Nat) : List Char :=
  let (digits, power) := rounded (precision + 1) n
  scientific marked (withZeros (precision + 1) digits) power

/-- Digits without the zeros at their end; one digit is left. -/
def withoutZeros : List Char → List Char
  | [] => []
  | c :: cs => c :: (cs.reverse.dropWhile (· = '0')).reverse

/-- The shorter one of both forms, with `precision` digits. Zeros at the end are left out unless the
point is asked for. -/
def shorterForm (marked : Bool) (precision n : Nat) : List Char :=
  let count := max precision 1
  let (digits, power) := rounded count n
  let digits := if marked then withZeros count digits else withoutZeros digits
  if count ≤ power then scientific marked digits power
  else
    let digits := withZeros (power + 1) digits
    digits.take (power + 1) ++ fraction marked (digits.drop (power + 1))

/-! ## Groups of digits -/

/-- Digits in groups with the last digit first, at least one and at least `least` characters wide; the
width is filled with zeros, and a mark stands between two groups only. -/
def groupedBack (g : Grouping) : Nat → Nat → List Char → List Char
  | 0, _, digits => digits
  | fuel + 1, least, digits =>
    let size := min g.size (max (max digits.length least) 1)
    let group := withZeros size (digits.take size)
    let rest := digits.drop size
    if rest.isEmpty && least ≤ size then group
    else group ++ g.mark :: groupedBack g fuel (least - size - 1) rest

def grouped (grouping : Option Grouping) (least : Nat) (digits : List Char) : List Char :=
  match grouping with
  | some g => (groupedBack g (digits.length + least + 1) least digits.reverse).reverse
  | none => List.replicate (least - digits.length) '0' ++ digits

/-! ## Laying out -/

def base? (letter : Char) : Option Nat :=
  if letter = 'd' ∨ letter = 'n' then some 10
  else if letter = 'b' then some 2
  else if letter = 'o' then some 8
  else if letter = 'x' ∨ letter = 'X' then some 16
  else none

def form? (letter : Char) (marked : Bool) (precision n : Nat) : Option (List Char) :=
  if letter = 'f' ∨ letter = 'F' then some (fixedForm marked precision n)
  else if letter = '%' then some (fixedForm marked precision (n * 100) ++ ['%'])
  else if letter = 'e' then some (scientificForm marked precision n)
  else if letter = 'E' then some ((scientificForm marked precision n).map Char.toUpper)
  else if letter = 'g' then some (shorterForm marked precision n)
  else if letter = 'G' then some ((shorterForm marked precision n).map Char.toUpper)
  else none

def greatestPrecision : Nat := 0x7FFFFFFF

def greatestCode : Nat := 0x10FFFF

namespace Layout

def plus (l : Layout) : List Char :=
  match l.sign with
  | some '+' => ['+']
  | some ' ' => [' ']
  | _ => []

/-- A head, grouped digits and a tail, filled up to the width. Zeros inside are part of the digits. -/
def assemble (l : Layout) (head digits tail : List Char) : List Char :=
  let least := if l.fill = '0' && l.side = .inside then l.width - (head ++ tail).length else 0
  l.fillUp head (grouped l.grouping least digits ++ tail)

def inBase (l : Layout) (b n : Nat) : List Char :=
  let digits := Text.digitsBefore b (n + 1) n []
  let mark := if l.marked && b ≠ 10 then ['0', l.letter] else []
  l.assemble (l.plus ++ mark) (if l.letter = 'X' then digits.map Char.toUpper else digits) []

def onNumber (l : Layout) (n : Nat) : Except Fault (List Char) :=
  if l.letter = 'c' then
    if l.precision.isSome || l.plainZero || l.sign.isSome || l.marked then .error .unsuitableLayout
    else if greatestCode < n then .error (.noCharacter n)
    else .ok (l.fillUp [] [Char.ofNat n])
  else
    match base? l.letter with
    | some b =>
      if l.precision.isSome || l.plainZero then .error .unsuitableLayout else .ok (l.inBase b n)
    | none =>
      let precision := l.precision.getD 6
      if greatestPrecision < precision then .error .unsuitableLayout
      else
        match form? l.letter l.marked precision n with
        | some cs => .ok (l.assemble l.plus (cs.takeWhile Char.isDigit) (cs.dropWhile Char.isDigit))
        | none => .error .unsuitableLayout

def ofNumber? (cs : List Char) : Option Layout := read? .right 'd' cs

example : ((ofNumber? "+010,".toList).map (onNumber · 1234)).map Except.toOption =
      some (some "+0,001,234".toList) ∧
    ((ofNumber? "#x".toList).map (onNumber · 80)).map Except.toOption = some (some "0x50".toList) ∧
    ((ofNumber? ".2e".toList).map (onNumber · 12500)).map Except.toOption =
      some (some "1.25e+04".toList) ∧
    ((ofNumber? "g".toList).map (onNumber · 1234567)).map Except.toOption =
      some (some "1.23457e+06".toList) ∧
    ((ofNumber? ".1%".toList).map (onNumber · 1)).map Except.toOption =
      some (some "100.0%".toList) := by decide +kernel

end Layout
end SerialAudit.Template

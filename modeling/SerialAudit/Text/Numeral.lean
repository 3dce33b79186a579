import SerialAudit.Text.Blank

/-! Numerals. Writing is decimal or hexadecimal; reading knows the decimal digits of every script.

* `decimal`, `signed` : the decimal numeral of a natural number and of an integer;
* `hex` : a hexadecimal numeral of a least width;
* `digitValue?` : the value of a decimal digit of any script;
* `leadingDigits` : the digits at the head of a text and what they stand for;
* `readInteger?` : an integer in a base, with sign, outer white space and the prefix of the base. -/
namespace SerialAudit.Text
set_option autoImplicit false

/-! ## Writing -/

def digitChar (n : Nat) : Char :=
  if n < 10 then Char.ofNat (0x30 + n) else Char.ofNat (0x57 + n)

/-- The digits of `n` in base `b` before `tail`, as far as `fuel` digits reach. -/
def digitsBefore (b : Nat) : Nat → Nat → List Char → List Char
  | 0, _, tail => tail
  | fuel + 1, n, tail =>
    let out := digitChar (n % b) :: tail
    if n < b then out else digitsBefore b fuel (n / b) out

def decimal (n : Nat) : String := String.ofList (digitsBefore 10 (n + 1) n [])

def signed : Int → String
  | .ofNat n => decimal n
  | .negSucc n => "-" ++ decimal (n + 1)

/-- The lower-case hexadecimal numeral, filled with zeros to a least width. -/
def hex (width n : Nat) : String :=
  let ds := digitsBefore 16 (n + 1) n []
  String.ofList (List.replicate (width - ds.length) '0' ++ ds)

def upperHex (width n : Nat) : String := String.ofList ((hex width n).toList.map Char.toUpper)

/-! ## Reading -/

/-- The zeros of the decimal digits; each is the first of ten consecutive code points. -/
def zeros : List Nat :=
  [0x30, 0x660, 0x6F0, 0x7C0, 0x966, 0x9E6, 0xA66, 0xAE6, 0xB66, 0xBE6,
   0xC66, 0xCE6, 0xD66, 0xDE6, 0xE50, 0xED0, 0xF20, 0x1040, 0x1090, 0x17E0,
   0x1810, 0x1946, 0x19D0, 0x1A80, 0x1A90, 0x1B50, 0x1BB0, 0x1C40, 0x1C50, 0xA620,
   0xA8D0, 0xA900, 0xA9D0, 0xA9F0, 0xAA50, 0xABF0, 0xFF10, 0x104A0, 0x10D30, 0x11066,
   0x110F0, 0x11136, 0x111D0, 0x112F0, 0x11450, 0x114D0, 0x11650, 0x116C0, 0x11730, 0x118E0,
   0x11950, 0x11C50, 0x11D50, 0x11DA0, 0x16A60, 0x16AC0, 0x16B50, 0x1D7CE, 0x1D7D8, 0x1D7E2,
   0x1D7EC, 0x1D7F6, 0x1E140, 0x1E2F0, 0x1E950, 0x1FBF0]

def digitValue? (c : Char) : Option Nat :=
  (zeros.find? fun z => z ≤ c.toNat && c.toNat < z + 10).map (c.toNat - ·)

/-- The value of an ASCII digit or letter as a digit of a base up to thirty-six. -/
def letterValue? (c : Char) : Option Nat :=
  if 'a' ≤ c ∧ c ≤ 'z' then some (c.toNat - 0x57)
  else if 'A' ≤ c ∧ c ≤ 'Z' then some (c.toNat - 0x37)
  else none

/-- The value of a digit of a base: a decimal digit of any script, or an ASCII letter. -/
def valueIn? (b : Nat) (c : Char) : Option Nat :=
  ((digitValue? c).or (letterValue? c)).filter (· < b)

/-- The number that the digits at the head stand for, how many they are, and the rest. -/
def leadingDigits (value? : Char → Option Nat) (b : Nat) :
    Nat → Nat → List Char → Nat × Nat × List Char
  | acc, count, [] => (acc, count, [])
  | acc, count, c :: cs =>
    match value? c with
    | some v => leadingDigits value? b (acc * b + v) (count + 1) cs
    | none => (acc, count, c :: cs)

/-- The most decimal digits of an integer that is read from a text or written as one. -/
def digitLimit : Nat := 4300

/-- A sign at the head, if there is one: whether it is a minus, and the rest. -/
def splitSign : List Char → Bool × List Char
  | '-' :: cs => (true, cs)
  | '+' :: cs => (false, cs)
  | cs => (false, cs)

def withSign (negative : Bool) (n : Nat) : Int := if negative then -(n : Int) else n

def dropBaseMark (b : Nat) : List Char → List Char
  | '0' :: c :: cs =>
    let marked := (b = 2 ∧ (c = 'b' ∨ c = 'B')) ∨ (b = 8 ∧ (c = 'o' ∨ c = 'O')) ∨
      (b = 16 ∧ (c = 'x' ∨ c = 'X'))
    if marked then cs else '0' :: c :: cs
  | cs => cs

/-- An integer in a base: outer white space, a sign, the mark of the base, and at least one digit. A
decimal integer has at most `digitLimit` digits. -/
def readInteger? (b : Nat) (s : List Char) : Option Int :=
  let (negative, cs) := splitSign (trim isWhiteSpace s)
  match leadingDigits (valueIn? b) b 0 0 (dropBaseMark b cs) with
  | (n, count, []) =>
    if count = 0 || (b = 10 && digitLimit < count) then none else some (withSign negative n)
  | _ => none

example : decimal 0 = "0" ∧ decimal 1907 = "1907" ∧ signed (-12) = "-12" ∧ hex 2 10 = "0a" := by
  decide +kernel

example : readInteger? 8 "017".toList = some 15 ∧ readInteger? 8 "0o17".toList = some 15 ∧
    readInteger? 10 " -12 ".toList = some (-12) ∧ readInteger? 10 "1x".toList = none := by
  decide +kernel

end SerialAudit.Text

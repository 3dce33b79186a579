import SerialAudit.Validation.Checked

/-! Numerals that stand for integers. A numeral is read as it stands; where that fails it is tidied
up once and read again.

* `strict` : an integer in its canonical spelling;
* `significant?`, `dropFraction`, `dropGrouping` : the steps of tidying up;
* `tidy?` : a numeral with blanks, signs, leading zeros, grouping and a fraction of zeros removed;
* `ofText` : the integer that a text stands for. -/
namespace SerialAudit.Numeral
set_option autoImplicit false

def asciiDigit? (c : Char) : Option Nat := if c.isDigit then some (c.toNat - 0x30) else none

def splitMinus : List Char → Bool × List Char
  | '-' :: cs => (true, cs)
  | cs => (false, cs)

/-- An integer in its canonical spelling, with a minus sign or without: zero, or digits of which the
first is not zero. Too many digits are told apart from what is no integer. -/
def strict (cs : List Char) : Checked Int :=
  let (negative, ds) := splitMinus cs
  if ds.head? = some '0' then
    if ds = ['0'] then .ok 0 else .fail .unclearInteger
  else
    let (n, count, rest) := Text.leadingDigits asciiDigit? 10 0 0 ds
    if Text.digitLimit < count then .fail .oversizedInteger
    else if count = 0 || !rest.isEmpty then .fail .unclearInteger
    else .ok (Text.withSign negative n)

/-! ## Tidying up -/

def isSignificant (c : Char) : Bool := c = '-' || ('1' ≤ c && c ≤ '9')

/-- What is left after a leading zero, once the zeros and underscores that follow it are gone. Before
a point, and at the end, the last of them stays; it is `last` so far. -/
def afterZero? (last : Char) : List Char → Option (List Char)
  | [] => some [last]
  | c :: cs =>
    if c = '0' || c = '_' then afterZero? c cs
    else if isSignificant c then some (c :: cs)
    else if c = '.' then some (last :: c :: cs)
    else none

def significant? : List Char → Option (List Char)
  | '0' :: cs => afterZero? '0' cs
  | c :: cs => if isSignificant c then some (c :: cs) else none
  | [] => none

/-- The part before a point that only zeros follow, at least one of them. -/
def dropFraction (cs : List Char) : List Char :=
  let (whole, rest) := cs.span (· ≠ '.')
  match rest with
  | '.' :: zeros => if zeros.isEmpty || zeros.any (· ≠ '0') then cs else whole
  | _ => cs

def hasDoubleUnderscore : List Char → Bool
  | '_' :: '_' :: _ => true
  | _ :: cs => hasDoubleUnderscore cs
  | [] => false

/-- A numeral without the underscores between its digits. They stay where they do not group. -/
def dropGrouping (cs : List Char) : List Char :=
  if cs.head? = some '_' || cs.getLast? = some '_' || hasDoubleUnderscore cs then cs
  else cs.filter (· ≠ '_')

/-- A numeral without outer white space, a plus sign, leading zeros, a fraction of zeros and grouping
underscores. A second sign ends the attempt. -/
def tidy? (cs : List Char) : Option (List Char) :=
  let cs := Text.trim Text.isWhiteSpace cs
  let unsigned := if cs.head? = some '+' then cs.drop 1 else cs
  if cs.head? = some '+' && unsigned.head? = some '-' then none
  else
    let (negative, ds) := splitMinus unsigned
    if negative && ds.head? = some '-' then none
    else
      (significant? ds).map fun ds =>
        let ds := dropGrouping (dropFraction ds)
        if negative then '-' :: ds else ds

def ofText (s : String) : Checked Int :=
  match strict s.toList with
  | .bad issues =>
    if issues = [Issue.here .oversizedInteger] then .bad issues
    else
      match tidy? s.toList with
      | some cs => strict cs
      | none => .bad issues
  | value => value

example : ofText "12" = .ok 12 ∧ ofText " +0_07.00 " = .ok 7 ∧ ofText "-0__5" = .ok (-5) ∧
    ofText "1_000" = .ok 1000 ∧ ofText "0-_6" = .ok (-6) ∧ ofText "0__0" = .ok 0 := by
  decide +kernel

example : ∀ s ∈ ["", "-", "+-1", "--1", "-0-1", "1__0", "0_", "7.", "1.5", "0x1", "_1", "1-2"],
    ofText s = .fail .unclearInteger := by
  decide +kernel

end SerialAudit.Numeral

import SerialAudit.Text.Numeral

/-! The layout of what a hole shows: with which sign, on which side it is filled up, with what, to which
width, how its digits are grouped, and how much of it is shown.

* `Layout` : the layout;
* `Layout.read?` : a layout from its text, nothing where it is not one;
* `Layout.fillUp` : a text, filled up to the width;
* `Layout.ofText?` : a text, laid out, where the layout suits texts. -/
namespace SerialAudit.Template
set_option autoImplicit false

/-- Where a laid out text stands; with `inside` the filling follows its sign. -/
inductive Side where
  | left
  | right
  | center
  | inside
  deriving DecidableEq, Repr

/-- Marks between groups of digits, counted from the right. -/
structure Grouping where
  mark : Char
  size : Nat
  deriving DecidableEq, Repr

/-- A layout. `plainZero` asks for a zero without a minus, `marked` for the mark of the base or the
decimal point; `letter` is the form of what is shown. -/
structure Layout where
  fill : Char
  side : Side
  sign : Option Char
  plainZero : Bool
  marked : Bool
  width : Nat
  grouping : Option Grouping
  precision : Option Nat
  letter : Char
  deriving DecidableEq, Repr

namespace Layout

/-! ## Reading -/

def side? (c : Char) : Option Side :=
  if c = '<' then some .left else if c = '>' then some .right
  else if c = '^' then some .center else if c = '=' then some .inside
  else none

def splitSide : List Char → Option Char × Option Side × List Char
  | f :: a :: cs =>
    if (side? a).isSome then (some f, side? a, cs)
    else if (side? f).isSome then (none, side? f, a :: cs)
    else (none, none, f :: a :: cs)
  | [a] => if (side? a).isSome then (none, side? a, []) else (none, none, [a])
  | [] => (none, none, [])

def splitSign : List Char → Option Char × List Char
  | '+' :: cs => (some '+', cs)
  | '-' :: cs => (some '-', cs)
  | ' ' :: cs => (some ' ', cs)
  | cs => (none, cs)

def splitMark (mark : Char) : List Char → Bool × List Char
  | c :: cs => if c = mark then (true, cs) else (false, c :: cs)
  | [] => (false, [])

def greatest : Nat := 0x7FFFFFFFFFFFFFFF

/-- The number at the head, how many digits it has, and the rest; nothing if it is too large. -/
def digits? (cs : List Char) : Option (Nat × Nat × List Char) :=
  let r := Text.leadingDigits Text.digitValue? 10 0 0 cs
  if greatest < r.1 then none else some r

def splitGrouping? : List Char → Option (Option Char × List Char)
  | ',' :: '_' :: _ => none
  | '_' :: ',' :: _ => none
  | ',' :: cs => some (some ',', cs)
  | '_' :: cs => some (some '_', cs)
  | cs => some (none, cs)

def precision? : List Char → Option (Option Nat × List Char)
  | '.' :: cs =>
    match digits? cs with
    | some (n, count, rest) => if count = 0 then none else some (some n, rest)
    | none => none
  | cs => some (none, cs)

/-- The letter at the end, and the one that is meant if there is none. -/
def letter? (usual : Char) : List Char → Option Char
  | [] => some usual
  | [c] => some c
  | _ => none

/-- The groups that a mark makes with a letter: of three digits in decimal forms, and of four in the
others, where only the mark `_` is known. -/
def grouping? (letter mark : Char) : Option Grouping :=
  if ['d', 'e', 'E', 'f', 'F', 'g', 'G', '%'].contains letter then some ⟨mark, 3⟩
  else if mark = '_' && ['b', 'o', 'x', 'X'].contains letter then some ⟨mark, 4⟩
  else none

/-- Reads a layout for things that stand on a side with a letter unless something else is said. A zero
before the width fills with zeros unless a fill character is given; things that would stand on the
right are then filled inside. -/
def read? (usualSide : Side) (usualLetter : Char) (cs : List Char) : Option Layout := do
  let (fill, side, cs) := splitSide cs
  let (sign, cs) := splitSign cs
  let (plainZero, cs) := splitMark 'z' cs
  let (marked, cs) := splitMark '#' cs
  let (zero, cs) := if fill.isNone then splitMark '0' cs else (false, cs)
  let (width, _, cs) ← digits? cs
  let (mark, cs) ← splitGrouping? cs
  let (precision, cs) ← precision? cs
  let letter ← letter? usualLetter cs
  let grouping ← match mark with
    | none => some none
    | some m => (grouping? letter m).map some
  let usual := if zero && usualSide = .right then .inside else usualSide
  some ⟨fill.getD (if zero then '0' else ' '), side.getD usual, sign, plainZero, marked, width,
    grouping, precision, letter⟩

/-! ## Laying out -/

/-- Fills a text up to the width; a filling inside stands between its head and its body. -/
def fillUp (l : Layout) (head body : List Char) : List Char :=
  let gap := l.width - (head ++ body).length
  match l.side with
  | .left => head ++ body ++ List.replicate gap l.fill
  | .right => List.replicate gap l.fill ++ head ++ body
  | .center =>
    List.replicate (gap / 2) l.fill ++ head ++ body ++ List.replicate (gap - gap / 2) l.fill
  | .inside => head ++ List.replicate gap l.fill ++ body

/-- Whether a layout suits texts: it says nothing about signs and digits. -/
def suitsText (l : Layout) : Bool :=
  l.side ≠ .inside && l.sign.isNone && !l.plainZero && !l.marked && l.grouping.isNone &&
    l.letter = 's'

def onText (l : Layout) (cs : List Char) : List Char :=
  l.fillUp [] (match l.precision with
    | some p => cs.take p
    | none => cs)

def ofText? (cs : List Char) : Option Layout :=
  (read? .left 's' cs).filter suitsText

example : (ofText? ">5".toList).map (onText · ['i', 'd']) = some [' ', ' ', ' ', 'i', 'd'] ∧
    (ofText? "008".toList).map (onText · ['x']) = some "x0000000".toList ∧
    ofText? "=5".toList = none ∧ ofText? "5d".toList = none ∧ ofText? ".".toList = none ∧
    ofText? "+5".toList = none := by decide +kernel

end Layout
end SerialAudit.Template

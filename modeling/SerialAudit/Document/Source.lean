import SerialAudit.Text.Ranges

/-! The characters of a document and positions among them.

* `isBreak`, `isBlank`, `isGap` : line breaks, blanks, and both;
* `atGap`, `atBreak`, `atMarker` : what stands at the head of a text;
* `unifyBreaks`, `isAdmitted` : line ends made uniform, and the characters a document may hold;
* `folded` : what line breaks inside a scalar stand for;
* `Cursor` : the text from a position on, with the index, line and column of the position. -/
namespace SerialAudit.Document
set_option autoImplicit false

/-! ## Characters -/

def isBreak (c : Char) : Bool := c = '\n' || c = '\x85' || c = '\u2028' || c = '\u2029'

def isBlank (c : Char) : Bool := c = ' ' || c = '\t'

def isGap (c : Char) : Bool := isBlank c || isBreak c

/-- A line break as it counts inside a scalar: the next-line control is an ordinary one. -/
def breakValue (c : Char) : Char := if c = '\x85' then '\n' else c

def endsOr (p : Char → Bool) : List Char → Bool
  | [] => true
  | c :: _ => p c

def atGap (cs : List Char) : Bool := endsOr isGap cs

def atBreak (cs : List Char) : Bool := endsOr isBreak cs

def atSpaceOrBreak (cs : List Char) : Bool := endsOr (fun c => c = ' ' || isBreak c) cs

def atMarker : List Char → Bool
  | '-' :: '-' :: '-' :: cs => atGap cs
  | '.' :: '.' :: '.' :: cs => atGap cs
  | _ => false

/-- Every carriage return, with the line feed after it if there is one, becomes a line feed. -/
def unifyBreaks : List Char → List Char
  | [] => []
  | '\r' :: '\n' :: cs => '\n' :: unifyBreaks cs
  | c :: cs => (if c = '\r' then '\n' else c) :: unifyBreaks cs

def admitted : List (Nat × Nat) :=
  [(0x09, 0x0A), (0x0D, 0x0D), (0x20, 0x7E), (0x85, 0x85), (0xA0, 0xD7FF), (0xE000, 0xFFFD),
   (0x10000, 0x10FFFF)]

def isAdmitted (c : Char) : Bool := Text.inRanges admitted c.toNat

/-- The line breaks after a first one, and the first one itself unless it is an ordinary one. An
ordinary one that stands alone is a space. `more` is in reverse. -/
def folded (first : Char) (more : List Char) : List Char :=
  (if first ≠ '\n' then [first] else if more.isEmpty then [' '] else []) ++ more.reverse

/-! ## Positions -/

/-- A position: the text from there on, how many characters and lines stand before it, and how
many columns of its own line. -/
structure Cursor where
  rest : List Char
  index : Nat
  line : Nat
  column : Nat
  deriving Repr

namespace Cursor

def ofText (cs : List Char) : Cursor := ⟨cs, 0, 0, 0⟩

/-- The position after the next character; the byte order mark takes no column. -/
def next (p : Cursor) : Cursor :=
  match p.rest with
  | [] => p
  | c :: cs =>
    if isBreak c then ⟨cs, p.index + 1, p.line + 1, 0⟩
    else ⟨cs, p.index + 1, p.line, if c = '\uFEFF' then p.column else p.column + 1⟩

def forward : Nat → Cursor → Cursor
  | 0, p => p
  | n + 1, p => forward n p.next

def excess : List Char → List Char → Nat
  | cs, [] => cs.length
  | [], _ => 0
  | _ :: cs, _ :: ds => excess cs ds

def moveTo (p : Cursor) (rest : List Char) : Cursor := p.forward (excess p.rest rest)

theorem rest_next (p : Cursor) : p.next.rest = p.rest.tail := by
  unfold next
  split
  · simp_all
  · split <;> simp_all

theorem rest_forward (n : Nat) (p : Cursor) : (p.forward n).rest = p.rest.drop n := by
  induction n generalizing p with
  | zero => rfl
  | succ n ih => simp [forward, ih, rest_next, List.drop_tail]

theorem excess_eq (cs ds : List Char) : excess cs ds = cs.length - ds.length := by
  induction cs generalizing ds with
  | nil => cases ds <;> simp [excess]
  | cons c cs ih => cases ds <;> simp [excess, ih]

theorem rest_moveTo (p : Cursor) (consumed rest : List Char) (h : p.rest = consumed ++ rest) :
    (p.moveTo rest).rest = rest := by
  simp [moveTo, excess_eq, rest_forward, h]

end Cursor

/-! ## Between tokens -/

/-- Passes over spaces, line breaks and comments; tells whether a line break was among them. -/
def skipGap : Bool → List Char → Bool × List Char
  | _, [] => (false, [])
  | comment, c :: cs =>
    if isBreak c then (true, (skipGap false cs).2)
    else if comment then skipGap true cs
    else if c = ' ' then skipGap false cs
    else if c = '#' then skipGap true cs
    else (false, c :: cs)

def restOfLine? (cs : List Char) : Option (List Char) :=
  let cs := cs.dropWhile (· = ' ')
  let cs := if cs.head? = some '#' then cs.dropWhile (!isBreak ·) else cs
  if atBreak cs then some (cs.drop 1) else none

end SerialAudit.Document

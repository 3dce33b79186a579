import SerialAudit.Document.Fault
import SerialAudit.Document.Source
import SerialAudit.Text.Half
import SerialAudit.Text.Numeral

/-! Quoted scalars. Between apostrophes only the doubled apostrophe is special; between double marks
a backslash begins an escape. Line breaks are folded in both.

* `Quoted.Mode` : where in a scalar a character stands;
* `Quoted.step` : what a character means there;
* `Quoted.scan` : the text up to the closing mark, and the rest. -/
namespace SerialAudit.Document.Quoted
set_option autoImplicit false

/-! ## Escapes -/

def escapes : List (Char × Char) :=
  [('0', '\x00'), ('a', '\x07'), ('b', '\x08'), ('t', '\t'), ('\t', '\t'), ('n', '\n'),
   ('v', '\x0B'), ('f', '\x0C'), ('r', '\r'), ('e', '\x1B'), (' ', ' '), ('"', '"'), ('\\', '\\'),
   ('/', '/'), ('N', '\x85'), ('_', '\xA0'), ('L', '\u2028'), ('P', '\u2029')]

def codeLengths : List (Char × Nat) := [('x', 2), ('u', 4), ('U', 8)]

def hexDigit? (c : Char) : Option Nat :=
  if c.toNat < 0x80 then Text.valueIn? 16 c else none

/-! ## Scanning -/

/-- Where a character stands: in the text, after blanks that belong to it only if the line goes on,
after line breaks (`none` for an escaped one), after a backslash, in the digits of a code point, or
after an apostrophe. -/
inductive Mode where
  | word
  | blanks (held : List Char)
  | breaks (first : Option Char) (more : List Char)
  | escape
  | code (left value : Nat)
  | mark

def Mode.text : Mode → List Char
  | blanks held => held.reverse
  | breaks (some first) more => folded first more
  | breaks none more => more.reverse
  | _ => []

/-- What a character does: it adds to the text and leads to a mode, it ends the scalar (`taken`
tells whether it belongs to it), or it cannot stand there. -/
inductive Step where
  | go (text : List Char) (mode : Mode)
  | stop (text : List Char) (taken : Bool)
  | refuse (fault : Fault)

/-- The character of a complete code point. Half of a surrogate pair is never joined to another. -/
def ofCode (n : Nat) : Step :=
  if 0x80000000 ≤ n then .refuse .codeBeyondWord
  else if 0x110000 ≤ n then .refuse .codeBeyondLast
  else if Text.isHalfCode n then .go [Text.half n] .word
  else .go [Char.ofNat n] .word

/-- A line break, ordinary or escaped. No marker of a document may follow it. -/
def ofBreak (mode : Mode) (rest : List Char) : Step :=
  if atMarker rest then .refuse .malformed else .go [] mode

def inText (double : Bool) (mode : Mode) (c : Char) (rest : List Char) : Step :=
  if isBlank c then
    match mode with
    | .blanks held => .go [] (.blanks (c :: held))
    | .breaks first more => .go [] (.breaks first more)
    | _ => .go [] (.blanks [c])
  else if isBreak c then
    match mode with
    | .breaks first more => ofBreak (.breaks first (breakValue c :: more)) rest
    | _ => ofBreak (.breaks (some (breakValue c)) []) rest
  else if double then
    if c = '"' then .stop mode.text true
    else if c = '\\' then .go mode.text .escape
    else .go (mode.text ++ [c]) .word
  else if c = '\'' then .go mode.text .mark
  else .go (mode.text ++ [c]) .word

def inEscape (c : Char) (rest : List Char) : Step :=
  match escapes.lookup c with
  | some d => .go [d] .word
  | none =>
    match codeLengths.lookup c with
    | some n => .go [] (.code n 0)
    | none => if isBreak c then ofBreak (.breaks none []) rest else .refuse .malformed

def inCode (left value : Nat) (c : Char) : Step :=
  match hexDigit? c with
  | none => .refuse .malformed
  | some v =>
    let n := value * 16 + v
    if left ≤ 1 then ofCode n else .go [] (.code (left - 1) n)

def step (double : Bool) (mode : Mode) (c : Char) (rest : List Char) : Step :=
  match mode with
  | .escape => inEscape c rest
  | .code left value => inCode left value c
  | .mark => if c = '\'' then .go ['\''] .word else .stop [] false
  | mode => inText double mode c rest

/-- The text from a position on, up to the closing mark, and the rest after it. -/
def scan (double : Bool) : Mode → List Char → Except Fault (List Char × List Char)
  | .mark, [] => .ok ([], [])
  | _, [] => .error .cutShort
  | mode, c :: cs =>
    match step double mode c cs with
    | .go text mode => (scan double mode cs).map fun r => (text ++ r.1, r.2)
    | .stop text taken => .ok (text, if taken then cs else c :: cs)
    | .refuse fault => .error fault

example : (scan false .word "it''s' x".toList).toOption = some ("it's".toList, " x".toList) ∧
    (scan true .word "a\\x41\n  b\\\n  c\"".toList).toOption = some ("aA bc".toList, []) ∧
    (scan true .word "\\ud83d\\ude00\"".toList).toOption =
      some ([Text.half 0xD83D, Text.half 0xDE00], []) := by decide +kernel

end SerialAudit.Document.Quoted

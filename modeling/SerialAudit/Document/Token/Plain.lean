import SerialAudit.Document.Source

/-! Plain scalars: texts without quotation marks, on one line or on several. Spaces and line breaks
belong to the scalar only where it goes on after them.

* `Plain.Gap` : what stands between the last character of the scalar and the position;
* `Plain.stops` : the characters that a scalar cannot go on with;
* `Plain.scan` : the text of a scalar, whether a line break follows it, and the rest. -/
namespace SerialAudit.Document.Plain
set_option autoImplicit false

/-- What stands since the last character of the scalar: nothing, spaces, or line breaks and the
spaces of the present line. -/
inductive Gap where
  | none
  | spaces (held : List Char)
  | breaks (first : Char) (more : List Char) (column : Nat)

namespace Gap

def isBreaks : Gap → Bool
  | breaks _ _ _ => true
  | _ => false

/-- What a gap contributes to the text if the scalar goes on after it. -/
def text : Gap → List Char
  | none => []
  | spaces held => held
  | breaks first more _ => folded first more

def space : Gap → Gap
  | none => spaces [' ']
  | spaces held => spaces (' ' :: held)
  | breaks first more column => breaks first more (column + 1)

def lineBreak (b : Char) : Gap → Gap
  | breaks first more _ => breaks first (b :: more) 0
  | _ => breaks b [] 0

end Gap

def flowIndicators : List Char := [',', '[', ']', '{', '}']

/-- Whether a scalar ends before a character, given what follows the character. -/
def stops (flow : Bool) (c : Char) (cs : List Char) : Bool :=
  isGap c || (c = ':' && endsOr (fun d => isGap d || (flow && flowIndicators.contains d)) cs) ||
    (flow && (c = '?' || flowIndicators.contains c))

/-- Whether a scalar does not go on after a gap. In block context a line must be indented. -/
def endsAfter (flow : Bool) (indent : Nat) (c : Char) : Gap → Bool
  | .none => false
  | .spaces _ => c = '#'
  | .breaks _ _ column => c = '#' || (!flow && column < indent)

/-- The text of a scalar from a position on, whether a line break follows it, and the rest after
the gap behind it. -/
def scan (flow : Bool) (indent : Nat) : Gap → List Char → List Char × Bool × List Char
  | gap, [] => ([], gap.isBreaks, [])
  | gap, c :: cs =>
    if c = ' ' then scan flow indent gap.space cs
    else if isBreak c then
      if atMarker cs then ([], true, cs) else scan flow indent (gap.lineBreak (breakValue c)) cs
    else if stops flow c cs || endsAfter flow indent c gap then ([], gap.isBreaks, c :: cs)
    else
      let (text, newLine, rest) := scan flow indent .none cs
      (gap.text ++ c :: text, newLine, rest)

example : scan false 1 .none "a b #c".toList = ("a b".toList, false, "#c".toList) ∧
    scan false 1 .none "a\n\n b\nc: d".toList = ("a\nb".toList, true, "c: d".toList) ∧
    scan true 0 .none "a, b".toList = ("a".toList, false, ", b".toList) := by decide +kernel

end SerialAudit.Document.Plain

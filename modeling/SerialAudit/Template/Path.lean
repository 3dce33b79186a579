import SerialAudit.Text.Numeral

/-! What a hole names: a first part, and steps from there into the thing named.

* `Number` : a part that is a number, that is too large for one, or that is none;
* `Head` : the first part, a name or a position;
* `Step` : a member, a position or a key;
* `head`, `steps` : both, read off the text between the braces. -/
namespace SerialAudit.Template
set_option autoImplicit false

inductive Number where
  | value (n : Nat)
  | tooLarge
  | none
  deriving DecidableEq, Repr

/-- The greatest number that may be written in a template. -/
def greatestNumber : Nat := 0x7FFFFFFFFFFFFFFF

/-- Goes on reading a number after `acc`. A number that grows too large is one whatever follows. -/
def numberFrom : Nat → List Char → Number
  | acc, [] => .value acc
  | acc, c :: cs =>
    match Text.digitValue? c with
    | Option.none => .none
    | some v => if (greatestNumber - v) / 10 < acc then .tooLarge else numberFrom (acc * 10 + v) cs

/-- A text as a number; the empty text is none. -/
def number (cs : List Char) : Number := if cs.isEmpty then .none else numberFrom 0 cs

inductive Head where
  | named (name : String)
  | positional
  | malformed
  deriving DecidableEq, Repr

inductive Step where
  | member (name : String)
  | index (n : Nat)
  | key (name : String)
  | malformed
  deriving DecidableEq, Repr

def opensStep (c : Char) : Bool := c = '.' || c = '['

/-- The part before the first step: a name, or a position where it is empty or a number. -/
def head (cs : List Char) : Head :=
  let first := cs.takeWhile fun c => !opensStep c
  match number first with
  | .value _ => .positional
  | .tooLarge => .malformed
  | .none => if first.isEmpty then .positional else .named (String.ofList first)

inductive StepMode where
  | between
  | inMember (read : List Char)
  | inBrackets (read : List Char)

/-- The member step with a name in reverse. -/
def memberStep (read : List Char) : Step :=
  if read.isEmpty then .malformed else .member (String.ofList read.reverse)

/-- The step between brackets: a position if it is a number, else a key. -/
def bracketStep (read : List Char) : Step :=
  match number read.reverse with
  | .value n => .index n
  | .tooLarge => .malformed
  | .none => if read.isEmpty then .malformed else .key (String.ofList read.reverse)

def stepsFrom : StepMode → List Char → List Step
  | .between, [] => []
  | .inMember read, [] => [memberStep read]
  | .inBrackets _, [] => [.malformed]
  | .between, c :: cs =>
    if c = '.' then stepsFrom (.inMember []) cs
    else if c = '[' then stepsFrom (.inBrackets []) cs
    else [.malformed]
  | .inMember read, c :: cs =>
    if c = '.' then memberStep read :: stepsFrom (.inMember []) cs
    else if c = '[' then memberStep read :: stepsFrom (.inBrackets []) cs
    else stepsFrom (.inMember (c :: read)) cs
  | .inBrackets read, c :: cs =>
    if c = ']' then bracketStep read :: stepsFrom .between cs
    else stepsFrom (.inBrackets (c :: read)) cs

def steps (cs : List Char) : List Step := stepsFrom .between (cs.dropWhile fun c => !opensStep c)

example : head "a.b[0]".toList = .named "a" ∧
    steps "a.b[0]".toList = [.member "b", .index 0] ∧ head "[0]".toList = .positional ∧
    steps "a[0]x".toList = [.index 0, .malformed] ∧ steps "a[-1]".toList = [.key "-1"] := by
  decide +kernel

end SerialAudit.Template

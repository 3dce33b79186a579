/-! Message templates, cut into pieces. Outside a hole a brace is written twice; a hole stands between
single braces and names what is put there, then perhaps a conversion after `!` and a layout after
`:`, in which holes may be nested.

* `Piece` : a character, a hole, or the place from which on a template is malformed;
* `Mode` : where the reader of a template stands between two characters;
* `pieces` : the pieces of a template, one character at a time. -/
namespace SerialAudit.Template
set_option autoImplicit false

/-- A hole as it is written. `nested` tells whether its layout has holes of its own. -/
structure Hole where
  name : List Char
  conversion : Option Char
  layout : List Char
  nested : Bool
  deriving DecidableEq, Repr

inductive Piece where
  | char (c : Char)
  | hole (h : Hole)
  | malformed
  deriving DecidableEq, Repr

/-- Where the reader stands. The parts of a hole are kept with their last character first; `depth`
counts the braces that a layout has open, its own included. -/
inductive Mode where
  | plain
  | afterOpen
  | afterClose
  | name (read : List Char)
  | bracket (read : List Char)
  | conversion (name : List Char)
  | converted (name : List Char) (conversion : Char)
  | layout (name : List Char) (conversion : Option Char) (read : List Char) (depth : Nat)
      (nested : Bool)
  deriving DecidableEq, Repr

/-- The next mode inside the name of a hole, and the hole if it ends here. Nothing may follow a
malformed name. -/
def nameStep (read : List Char) (c : Char) : Option (Mode × Option Hole) :=
  if c = '{' then none
  else if c = '[' then some (.bracket (c :: read), none)
  else if c = '}' then some (.plain, some ⟨read.reverse, none, [], false⟩)
  else if c = ':' then some (.layout read none [] 1 false, none)
  else if c = '!' then some (.conversion read, none)
  else some (.name (c :: read), none)

/-- The next mode after a character and the pieces that are complete with it; nothing where the
template is malformed. -/
def step : Mode → Char → Option (Mode × List Piece)
  | .plain, c =>
    if c = '{' then some (.afterOpen, [])
    else if c = '}' then some (.afterClose, [])
    else some (.plain, [.char c])
  | .afterOpen, c =>
    if c = '{' then some (.plain, [.char c])
    else (nameStep [] c).map fun r => (r.1, (r.2.map Piece.hole).toList)
  | .afterClose, c => if c = '}' then some (.plain, [.char c]) else none
  | .name read, c => (nameStep read c).map fun r => (r.1, (r.2.map Piece.hole).toList)
  | .bracket read, c => some (if c = ']' then .name (c :: read) else .bracket (c :: read), [])
  | .conversion name, c => some (.converted name c, [])
  | .converted name k, c =>
    if c = '}' then some (.plain, [.hole ⟨name.reverse, some k, [], false⟩])
    else if c = ':' then some (.layout name (some k) [] 1 false, [])
    else none
  | .layout name k read depth nested, c =>
    if c = '{' then some (.layout name k (c :: read) (depth + 1) true, [])
    else if c = '}' then
      if depth = 1 then some (.plain, [.hole ⟨name.reverse, k, read.reverse, nested⟩])
      else some (.layout name k (c :: read) (depth - 1) nested, [])
    else some (.layout name k (c :: read) depth nested, [])

/-- The pieces of a template from a mode on. It must end outside of holes and after whole braces. -/
def pieces : Mode → List Char → List Piece
  | .plain, [] => []
  | _, [] => [.malformed]
  | m, c :: cs =>
    match step m c with
    | some (m', ps) => ps ++ pieces m' cs
    | none => [.malformed]

example : pieces .plain "a\x7b\x7bb".toList = [.char 'a', .char '{', .char 'b'] := by decide +kernel

example : pieces .plain "\x7bx!r:>\x7by\x7d\x7d".toList =
    [.hole ⟨['x'], some 'r', ['>', '{', 'y', '}'], true⟩] := by decide +kernel

example : pieces .plain "\x7dx".toList = [.malformed] ∧ pieces .plain "\x7bx[\x7d".toList = [.malformed] := by
  decide +kernel

end SerialAudit.Template

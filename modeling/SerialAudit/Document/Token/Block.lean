import SerialAudit.Document.Fault
import SerialAudit.Document.Source
import SerialAudit.Text.Numeral

/-! Block scalars: the indented lines after `|`, kept line by line, or after `>`, folded.

* `Block.Chomp` : what becomes of the line breaks at the end;
* `Block.Header` : chomping and indentation, as the first line gives them;
* `Block.scan` : the text of the lines, and the rest. -/
namespace SerialAudit.Document.Block
set_option autoImplicit false

/-- The line breaks at the end: all removed, the first one kept, or all kept. -/
inductive Chomp where
  | strip
  | clip
  | keep
  deriving DecidableEq, Repr

structure Header where
  chomp : Chomp
  increment : Option Nat

def chomp? : List Char → Option (Chomp × List Char)
  | '+' :: cs => some (.keep, cs)
  | '-' :: cs => some (.strip, cs)
  | _ => none

def digit? : List Char → Option (Nat × List Char)
  | c :: cs => if c.isDigit then some (c.toNat - 0x30, cs) else none
  | [] => none

/-- The indicators of a header, in either order, up to the blank or line break after them. -/
def indicators (cs : List Char) : Header × List Char :=
  match chomp? cs with
  | some (c, cs) =>
    match digit? cs with
    | some (n, cs) => (⟨c, some n⟩, cs)
    | none => (⟨c, none⟩, cs)
  | none =>
    match digit? cs with
    | none => (⟨.clip, none⟩, cs)
    | some (n, cs) =>
      match chomp? cs with
      | some (c, cs) => (⟨c, some n⟩, cs)
      | none => (⟨.clip, some n⟩, cs)

/-- The header and the lines after it; an indentation of zero is refused. -/
def header (cs : List Char) : Except Fault (Header × List Char) :=
  let (h, cs) := indicators cs
  if h.increment = some 0 then .error .malformed
  else if atSpaceOrBreak cs then
    match restOfLine? cs with
    | some rest => .ok (h, rest)
    | none => .error .malformed
  else .error .malformed

/-- The empty lines before the first line with content: their breaks in reverse, the widest margin,
the margin of the line reached, and the rest. -/
def leading (breaks : List Char) (widest column : Nat) :
    List Char → List Char × Nat × Nat × List Char
  | [] => (breaks, widest, column, [])
  | c :: cs =>
    if c = ' ' then leading breaks (max widest (column + 1)) (column + 1) cs
    else if isBreak c then leading (breakValue c :: breaks) widest 0 cs
    else (breaks, widest, column, c :: cs)

/-- The line before the present one: its break, and whether it began with no blank. -/
structure Previous where
  lineBreak : Char
  flush : Bool

/-- In the margin of a line after empty ones, or in its content. -/
inductive Mode where
  | margin (previous : Option Previous) (column : Nat) (breaks : List Char)
  | content (flush : Bool)

/-- What stands for the line breaks between two lines with content; a folded break between lines
that both begin with no blank is a space, or nothing where empty lines follow it. -/
def between (fold : Bool) (previous : Option Previous) (breaks : List Char) (flush : Bool) :
    List Char :=
  match previous with
  | none => breaks.reverse
  | some p =>
    (if fold && p.lineBreak = '\n' && p.flush && flush then
      if breaks.isEmpty then [' '] else []
    else [p.lineBreak]) ++ breaks.reverse

def tail (chomp : Chomp) (previous : Option Previous) (breaks : List Char) : List Char :=
  let last := (previous.map (·.lineBreak)).toList
  match chomp with
  | .strip => []
  | .clip => last
  | .keep => last ++ breaks.reverse

/-- The text from a position on. A line belongs to the scalar if it is indented by `indent`
columns, or holds nothing but fewer spaces. -/
def lines (fold : Bool) (chomp : Chomp) (indent : Nat) : Mode → List Char → List Char × List Char
  | .margin previous _ breaks, [] => (tail chomp previous breaks, [])
  | .content _, [] => ([], [])
  | .margin previous column breaks, c :: cs =>
    if c = ' ' && column < indent then lines fold chomp indent (.margin previous (column + 1) breaks) cs
    else if isBreak c then lines fold chomp indent (.margin previous 0 (breakValue c :: breaks)) cs
    else if column = indent then
      let (text, rest) := lines fold chomp indent (.content (!isBlank c)) cs
      (between fold previous breaks (!isBlank c) ++ c :: text, rest)
    else (tail chomp previous breaks, c :: cs)
  | .content flush, c :: cs =>
    if isBreak c then lines fold chomp indent (.margin (some ⟨breakValue c, flush⟩) 0 []) cs
    else
      let (text, rest) := lines fold chomp indent (.content flush) cs
      (c :: text, rest)

/-- A scalar after its `|` or `>`, where lines have to be indented by at least `least` columns. -/
def scan (fold : Bool) (least : Nat) (cs : List Char) : Except Fault (List Char × List Char) :=
  (header cs).map fun (h, cs) =>
    match h.increment with
    | some n => lines fold h.chomp (least + n - 1) (.margin none 0 []) cs
    | none =>
      let (breaks, widest, column, rest) := leading [] 0 0 cs
      lines fold h.chomp (max least widest) (.margin none column breaks) rest

example : (scan false 1 "\n  a\n   b\n\nc".toList).toOption = some ("a\n b\n".toList, "c".toList) ∧
    (scan true 1 "-\n a\n b\n\n c\n".toList).toOption = some ("a b\nc".toList, []) := by decide +kernel

end SerialAudit.Document.Block

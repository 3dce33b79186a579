import SerialAudit.Document.Source
import SerialAudit.Document.Tag
import SerialAudit.Text.Half
import SerialAudit.Text.Numeral

/-! Writing scalars. A text is written as it is where it reads back as that text, else between
apostrophes, and between double marks where it holds something that only an escape can show. Lines
that are wider than `width` go on in the next one.

* `Written.Style`, `Written.styleOf` : the three ways to write a text, and the one it is written in;
* `Written.runs` : a text as it is, or between apostrophes;
* `Written.escapes` : a text between double marks;
* `Written.scalar` : a text after the colon of its key. -/
namespace SerialAudit.Document.Written
set_option autoImplicit false

def width : Nat := 80

def indentation : Nat := 4

/-! ## Styles -/

/-- The code points that need no escape, apart from line feeds. -/
def shown : List (Nat × Nat) :=
  [(0x20, 0x7E), (0x85, 0x85), (0xA0, 0xD7FF), (0xE000, 0xFEFE), (0xFF00, 0xFFFD), (0x10000, 0x10FFFE)]

/-- The code point that a character stands for, which is that of a half where it stands for one. -/
def code (c : Char) : Nat := (Text.halfCode? c).getD c.toNat

def isShown (c : Char) : Bool := c = '\n' || Text.inRanges shown (code c)

/-- Whether somewhere a character of one class stands right before one of the other. -/
def adjacent (p q : Char → Bool) : List Char → Bool
  | c :: d :: cs => (p c && q d) || adjacent p q (d :: cs)
  | _ => false

def indicators : List Char := "#,[]\x7b\x7d&*!|>'\"%@\x60".toList

/-- Whether a colon or a number sign stands where it ends a key or begins a comment. -/
def hasSeparator : Char → List Char → Bool
  | _, [] => false
  | before, c :: cs => (c = ':' && atGap cs) || (c = '#' && isGap before) || hasSeparator c cs

/-- Whether a text as it is would be taken for something else than a scalar. -/
def looksOtherwise : List Char → Bool
  | [] => false
  | c :: cs =>
    "---".toList.isPrefixOf (c :: cs) || "...".toList.isPrefixOf (c :: cs) || indicators.contains c ||
      ((c = '?' || c = ':' || c = '-') && atGap cs) || hasSeparator c cs

/-- How a text is written: as it is, between apostrophes, or between double marks. -/
inductive Style where
  | plain
  | single
  | double
  deriving DecidableEq, Repr

/-- Only between double marks there is a way to write spaces beside line breaks, and escapes. -/
def needsEscapes (cs : List Char) : Bool :=
  cs.any (!isShown ·) || adjacent isBreak (· = ' ') cs || adjacent (· = ' ') isBreak cs

def isPlain (cs : List Char) : Bool :=
  !needsEscapes cs && !cs.any isBreak && cs.head? ≠ some ' ' && cs.getLast? ≠ some ' ' &&
    !looksOtherwise cs && Tag.ofText cs = .text

def styleOf (cs : List Char) : Style :=
  if isPlain cs then .plain else if needsEscapes cs then .double else .single

/-! ## Plain and between apostrophes -/

def lineStart : List Char := '\n' :: List.replicate indentation ' '

/-- What stands before a character and is not written yet: spaces, or line breaks in reverse. -/
inductive Held where
  | none
  | spaces (count : Nat) (inside : Bool)
  | breaks (bs : List Char)

/-- What is held, as it is written, and the column after it. A single space inside a text is where a
wide line ends; an ordinary line break is written twice, since a lone one reads as a space. -/
def Held.release (column : Nat) (atEnd : Bool) : Held → List Char × Nat
  | none => ([], column)
  | spaces count inside =>
    if count = 1 && inside && !atEnd && width < column then (lineStart, indentation)
    else (List.replicate count ' ', column + count)
  | breaks bs =>
    ((if bs.getLast? = some '\n' then ['\n'] else []) ++ bs.reverse ++
      List.replicate indentation ' ', indentation)

/-- A text as it is, or between apostrophes, from a column on. `first` tells whether it begins here. -/
def runs (quote : Bool) (first : Bool) (column : Nat) : Held → List Char → List Char
  | held, [] => (held.release column true).1 ++ (if quote then ['\''] else [])
  | held, c :: cs =>
    if c = ' ' then
      match held with
      | .spaces count inside => runs quote false column (.spaces (count + 1) inside) cs
      | held =>
        let (out, column) := held.release column false
        out ++ runs quote false column (.spaces 1 !first) cs
    else if isBreak c then
      match held with
      | .breaks bs => runs quote false column (.breaks (c :: bs)) cs
      | held =>
        let (out, column) := held.release column false
        out ++ runs quote false column (.breaks [c]) cs
    else
      let (out, column) := held.release column false
      if quote && c = '\'' then out ++ '\'' :: '\'' :: runs quote false (column + 2) .none cs
      else out ++ c :: runs quote false (column + 1) .none cs

/-! ## Between double marks -/

def letters : List (Char × Char) :=
  [('\x00', '0'), ('\x07', 'a'), ('\x08', 'b'), ('\t', 't'), ('\n', 'n'), ('\x0B', 'v'),
   ('\x0C', 'f'), ('\r', 'r'), ('\x1B', 'e'), ('"', '"'), ('\\', '\\'), ('\x85', 'N'),
   ('\u2028', 'L'), ('\u2029', 'P')]

/-- The code points that stand for themselves between double marks, the letters above apart. -/
def direct : List (Nat × Nat) := [(0x20, 0x7E), (0xA0, 0xD7FF), (0xE000, 0xFEFE), (0xFF00, 0xFFFD)]

def escape? (c : Char) : Option (List Char) :=
  match letters.lookup c with
  | some l => some ['\\', l]
  | none =>
    let n := code c
    if Text.inRanges direct n then none
    else if n < 0x100 then some ('\\' :: 'x' :: (Text.upperHex 2 n).toList)
    else if n < 0x10000 then some ('\\' :: 'u' :: (Text.upperHex 4 n).toList)
    else some ('\\' :: 'U' :: (Text.upperHex 8 n).toList)

/-- The end of a line that the text goes on after, and the column after it. A space at the beginning
of the next line would be lost without its backslash. -/
def continued (cs : List Char) : List Char × Nat :=
  if cs.head? = some ' ' then ('\\' :: lineStart ++ ['\\'], indentation + 1)
  else ('\\' :: lineStart, indentation)

/-- A text between double marks from a column on. A wide line ends at a space or an escape, but not
at the first or the last character; `fresh` tells whether nothing or an escape stands before. -/
def escapes (first fresh : Bool) (column : Nat) : List Char → List Char
  | [] => ['"']
  | c :: cs =>
    let inside := !first && !cs.isEmpty
    match escape? c with
    | some e =>
      let column := column + e.length
      let (out, column) := if inside && width + 1 < column then continued cs else ([], column)
      e ++ out ++ escapes false true column cs
    | none =>
      let (out, column) :=
        if inside && (c = ' ' || fresh) && width < column then continued (c :: cs) else ([], column)
      out ++ c :: escapes false false (column + 1) cs

/-! ## Scalars -/

def scalar (column : Nat) (text : String) : String :=
  let cs := text.toList
  match styleOf cs with
  | .plain => String.ofList (' ' :: runs false true (column + 1) .none cs)
  | .single => String.ofList (' ' :: '\'' :: runs true true (column + 2) .none cs)
  | .double => String.ofList (' ' :: '"' :: escapes true true (column + 2) cs)

example : scalar 5 "it's" = " it's" ∧ scalar 5 "'tis" = " '''tis'" ∧ scalar 5 "yes" = " 'yes'" ∧
    scalar 5 "a\tb" = " \"a\\tb\"" ∧ scalar 5 "a\nb" = " 'a\n\n    b'" ∧ scalar 5 "" = " ''" := by
  decide +kernel

end SerialAudit.Document.Written

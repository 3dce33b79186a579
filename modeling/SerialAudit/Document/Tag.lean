import SerialAudit.Text.Pattern

/-! Tags: what kind of value a node stands for. A plain scalar without a tag gets one by its text.

* `Tag` : the tags that have a meaning, and one for all others;
* `Tag.ofName` : the tag with a full name;
* `Tag.ofText` : the tag of a plain scalar. -/
namespace SerialAudit.Document
set_option autoImplicit false

inductive Tag where
  | null
  | bool
  | int
  | float
  | binary
  | moment
  | text
  | sequence
  | mapping
  | set
  | pairs
  | orderedMapping
  | merge
  | value
  | other
  deriving DecidableEq, Repr

namespace Tag

def coreNames : String := "tag:yaml.org,2002:"

def names : List (String × Tag) :=
  [("null", null), ("bool", bool), ("int", int), ("float", float), ("binary", binary),
   ("timestamp", moment), ("str", text), ("seq", sequence), ("map", mapping), ("set", set),
   ("pairs", pairs), ("omap", orderedMapping), ("merge", merge), ("value", value)]

def ofName (name : String) : Tag :=
  ((names.map fun p => (coreNames ++ p.1, p.2)).lookup name).getD other

def isCollection : Tag → Bool
  | sequence | mapping | set | pairs | orderedMapping => true
  | _ => false

def isScalar : Tag → Bool
  | null | bool | int | float | binary | moment | text => true
  | _ => false

/-! ## Tags of plain scalars -/

open Text.Pattern

def digit : Text.Pattern := between '0' '9'

def sign : Text.Pattern := maybe (oneOf "+-")

def digits : Text.Pattern := many (oneOf "0123456789_")

/-- The parts of a number to the base sixty after its first one. -/
def sixtieths : Text.Pattern := repeated (chain [word ":", maybe (between '0' '5'), digit])

def boolPattern : Text.Pattern :=
  any (["yes", "Yes", "YES", "no", "No", "NO", "true", "True", "TRUE", "false", "False", "FALSE",
    "on", "On", "ON", "off", "Off", "OFF"].map word)

def exponent : Text.Pattern := maybe (chain [oneOf "eE", oneOf "+-", repeated digit])

def floatPattern : Text.Pattern :=
  any [chain [sign, digit, digits, word ".", digits, exponent],
    chain [word ".", digit, digits, exponent],
    chain [sign, digit, digits, sixtieths, word ".", digits],
    chain [sign, word ".", any (["inf", "Inf", "INF"].map word)],
    chain [word ".", any (["nan", "NaN", "NAN"].map word)]]

def intPattern : Text.Pattern :=
  chain [sign, any [chain [word "0b", repeated (oneOf "01_")], chain [word "0", repeated (oneOf "01234567_")],
    word "0", chain [between '1' '9', digits],
    chain [word "0x", repeated (oneOf "0123456789abcdefABCDEF_")],
    chain [between '1' '9', digits, sixtieths]]]

def nullPattern : Text.Pattern := any (["~", "null", "Null", "NULL", ""].map word)

def shortNumber : Text.Pattern := chain [digit, maybe digit]

def zone : Text.Pattern :=
  chain [many (oneOf " \t"),
    any [word "Z", chain [oneOf "+-", shortNumber, maybe (chain [word ":", digit, digit])]]]

def momentPattern : Text.Pattern :=
  chain [digit, digit, digit, digit, word "-", any [chain [digit, digit, word "-", digit, digit],
    chain [shortNumber, word "-", shortNumber, alt (oneOf "Tt") (repeated (oneOf " \t")), shortNumber,
      word ":", digit, digit, word ":", digit, digit, maybe (chain [word ".", many digit]),
      maybe zone]]]

/-- The patterns of plain scalars that are no texts, in the order in which they are tried, each
with the characters that such a scalar begins with. -/
def patterns : List (String × Tag × Text.Pattern) :=
  [("yYnNtTfFoO", bool, boolPattern), ("-+0123456789.", float, floatPattern),
   ("-+0123456789", int, intPattern), ("<", merge, word "<<"), ("~nN", null, nullPattern),
   ("0123456789", moment, momentPattern), ("=", value, word "="), ("!&*", other, oneOf "!&*")]

def ofText : List Char → Tag
  | [] => null
  | c :: cs =>
    let accepted (p : Text.Pattern) :=
      p.accepts (c :: cs) || (cs.getLast? = some '\n' && p.accepts (c :: cs).dropLast)
    match patterns.find? fun p => p.1.toList.contains c && accepted p.2.2 with
    | some p => p.2.1
    | none => text

example : ofText "0x1F".toList = int ∧ ofText "1:30".toList = int ∧ ofText "1.5e+3".toList = float ∧
    ofText "y".toList = text ∧ ofText "Yes".toList = bool ∧ ofText "2001-1-2".toList = text ∧
    ofText "2001-01-02".toList = moment ∧ ofText "08".toList = text := by decide +kernel

end Tag
end SerialAudit.Document

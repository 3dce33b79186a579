import SerialAudit.Text.Half
import SerialAudit.Text.Numeral
import SerialAudit.Text.Printable

/-! Quoted texts for logs and messages. The quotation mark is an apostrophe, or a double mark where
the text holds an apostrophe and no double mark; what cannot be printed is shown by its code.

* `mark` : the quotation mark that a text is written with;
* `codeEscape` : a character, shown by its code;
* `escaped` : one character between quotation marks;
* `quoted` : a text between quotation marks;
* `inAscii` : a text with everything beyond ASCII shown by its code. -/
namespace SerialAudit.Text
set_option autoImplicit false

def mark (cs : List Char) : Char :=
  if cs.contains '\'' && !cs.contains '"' then '"' else '\''

/-- A character by its code point, in the shortest of three widths. A half is shown by its own code. -/
def codeEscape (c : Char) : List Char :=
  let n := (halfCode? c).getD c.toNat
  if n < 0x100 then '\\' :: 'x' :: (hex 2 n).toList
  else if n < 0x10000 then '\\' :: 'u' :: (hex 4 n).toList
  else '\\' :: 'U' :: (hex 8 n).toList

def escaped (q c : Char) : List Char :=
  if c = q ∨ c = '\\' then ['\\', c]
  else if c = '\t' then ['\\', 't']
  else if c = '\n' then ['\\', 'n']
  else if c = '\r' then ['\\', 'r']
  else if isPrintable c then [c]
  else codeEscape c

def quoted (s : String) : String :=
  let q := mark s.toList
  String.ofList (q :: s.toList.flatMap (escaped q) ++ [q])

def inAscii (s : String) : String :=
  String.ofList (s.toList.flatMap fun c => if c.toNat < 0x80 then [c] else codeEscape c)

example : quoted "it's" = "\"it's\"" ∧ quoted "a'b\"" = "'a\\'b\"'" ∧
    quoted "é\n" = "'é\\n'" ∧ inAscii (quoted "é") = "'\\xe9'" := by decide +kernel

end SerialAudit.Text

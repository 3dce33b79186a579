import SerialAudit.Text.Ranges

/-! White space and trimming. Two classes are in use and they differ in four characters.

* `isWhiteSpace` : the `White_Space` property of the Unicode character database;
* `isBlank` : the same characters and the four information separators U+001C to U+001F;
* `trim` : a list of characters without the ends that belong to a class;
* `strip` : a text without the blanks at its ends. -/
namespace SerialAudit.Text
set_option autoImplicit false

def whiteSpace : List (Nat × Nat) :=
  [(0x09, 0x0D), (0x20, 0x20), (0x85, 0x85), (0xA0, 0xA0), (0x1680, 0x1680), (0x2000, 0x200A),
   (0x2028, 0x2029), (0x202F, 0x202F), (0x205F, 0x205F), (0x3000, 0x3000)]

/-- The information separators: file, group, record and unit. -/
def separators : List (Nat × Nat) := [(0x1C, 0x1F)]

def isWhiteSpace (c : Char) : Bool := inRanges whiteSpace c.toNat

def isBlank (c : Char) : Bool := isWhiteSpace c || inRanges separators c.toNat

/-- The characters between the first and the last one outside the class. -/
def trim (p : Char → Bool) (cs : List Char) : List Char :=
  ((cs.dropWhile p).reverse.dropWhile p).reverse

def strip (s : String) : String := String.ofList (trim isBlank s.toList)

end SerialAudit.Text

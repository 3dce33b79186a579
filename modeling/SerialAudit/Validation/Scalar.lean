import SerialAudit.Text.Half
import SerialAudit.Text.Utf8
import SerialAudit.Validation.Numeral

/-! Readers of single values and of collections of them.

* `text`, `optionalText` : a text, where octets count as the text they encode;
* `boolean` : a boolean, or a number or word that stands for one;
* `integer` : an integer, or a boolean, number or numeral that stands for one;
* `choice` : one of several names;
* `list`, `tuple`, `set`, `dictionary` : collections. -/
namespace SerialAudit.Reader
set_option autoImplicit false

/-! ## Texts -/

def text : Reader String
  | .text s => .ok s
  | .bytes octets =>
    match Text.Utf8.decode? octets with
    | some cs => .ok (String.ofList cs)
    | none => .fail .undecodableText
  | _ => .fail .notText

def optionalText : Reader (Option String)
  | .null => .ok none
  | d => (text d).map some

/-! ## Booleans -/

/-- The words for true and false; ASCII case does not matter. -/
def trueWords : List String := ["1", "t", "true", "y", "yes", "on"]

def falseWords : List String := ["0", "f", "false", "n", "no", "off"]

def lowerAscii (s : String) : String := String.ofList (s.toList.map Char.toLower)

def booleanOfWord (s : String) : Checked Bool :=
  if trueWords.contains (lowerAscii s) then .ok true
  else if falseWords.contains (lowerAscii s) then .ok false
  else .fail .unclearBoolean

/-- One and zero stand for true and false; no other integer stands for a boolean. -/
def booleanOfInt (n : Int) : Checked Bool :=
  if n = 1 then .ok true else if n = 0 then .ok false else .fail .unclearBoolean

def isWord (n : Int) : Bool := -0x8000000000000000 ≤ n && n < 0x8000000000000000

/-- The integers strictly between the ends of the signed 64-bit words; a floating-point number is
taken for an integer only there. -/
def isInnerWord (n : Int) : Bool := -0x8000000000000000 < n && n < 0x8000000000000000

def boolean : Reader Bool
  | .bool b => .ok b
  | .int n => if isWord n then booleanOfInt n else .fail .notBoolean
  | .float x =>
    match x.toInt? with
    | some n => if isInnerWord n then booleanOfInt n else .fail .notBoolean
    | none => .fail .notBoolean
  | .text s => if Text.hasHalf s then .fail .undecodableText else booleanOfWord s
  | .bytes octets =>
    match Text.Utf8.decode? octets with
    | some cs => booleanOfWord (String.ofList cs)
    | none => .fail .unclearBoolean
  | _ => .fail .notBoolean

/-! ## Integers -/

def integer : Reader Int
  | .int n => .ok n
  | .bool b => .ok (if b then 1 else 0)
  | .float x =>
    match x, x.toInt? with
    | .finite _ _, some n => if isInnerWord n then .ok n else .fail .oversizedInteger
    | .finite _ _, none => .fail .fractionalInteger
    | _, _ => .fail .infiniteInteger
  | .text s => if Text.hasHalf s then .fail .undecodableText else Numeral.ofText s
  | .bytes octets =>
    match Text.Utf8.decode? octets with
    | some cs => Numeral.ofText (String.ofList cs)
    | none => .fail .unclearInteger
  | _ => .fail .notInteger

/-! ## Choices and collections -/

variable {α : Type}

/-- One of several named values, by its exact name. A text with half a character cannot be compared. -/
def choice (options : List (String × α)) : Reader α
  | .text s =>
    match options.lookup s with
    | some a => .ok a
    | none =>
      if Text.hasHalf s then .fail .undecodableText else .fail (.notOneOf (options.map (·.1)))
  | _ => .fail (.notOneOf (options.map (·.1)))

def list (read : Reader α) : Reader (List α)
  | .list items => elements read 0 items
  | _ => .fail .notList

def tuple (read : Reader α) : Reader (List α)
  | .list items => elements read 0 items
  | _ => .fail .notTuple

def set (read : Reader α) : Reader (List α)
  | .list items => elements read 0 items
  | _ => .fail .notSet

def dictionary (read : Reader α) : Reader (List (String × α))
  | .record fields => members read fields
  | _ => .fail .notDictionary

end SerialAudit.Reader

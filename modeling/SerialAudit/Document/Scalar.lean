import SerialAudit.Document.Fault
import SerialAudit.Document.Moment
import SerialAudit.Document.Tag
import SerialAudit.Number.Binary
import SerialAudit.Text.Base64
import SerialAudit.Text.Case
import SerialAudit.Text.Split

/-! The values of a document and of its scalars.

* `Value` : a value of a document;
* `Value.int?`, `Value.float?` : numbers from their texts;
* `Value.ofScalar` : the value of a text under a tag. -/
namespace SerialAudit.Document
set_option autoImplicit false

/-- A value. The entries of a mapping are in order and may repeat a key. -/
inductive Value where
  | null
  | bool (b : Bool)
  | int (n : Int)
  | float (x : Binary)
  | text (s : String)
  | bytes (octets : List UInt8)
  | moment
  | list (items : List Value)
  | map (entries : List (Value × Value))
  | set (members : List Value)
  deriving Repr, Inhabited

namespace Value

/-! ## Scalars -/

def words : List (String × Bool) :=
  [("yes", true), ("no", false), ("true", true), ("false", false), ("on", true), ("off", false)]

def sexagesimal (digits : List Int) : Int := digits.foldl (fun n d => n * 60 + d) 0

/-- The number after the sign of a numeral, in the base that its first characters tell. -/
def unsigned? (cs : List Char) : Option Int :=
  match cs with
  | ['0'] => some 0
  | '0' :: 'b' :: cs => Text.readInteger? 2 cs
  | '0' :: 'x' :: cs => Text.readInteger? 16 cs
  | '0' :: _ => Text.readInteger? 8 cs
  | _ =>
    if cs.contains ':' then ((Text.splitAll ':' cs).mapM (Text.readInteger? 10)).map sexagesimal
    else Text.readInteger? 10 cs

def int? (cs : List Char) : Except Fault Int :=
  let (negative, digits) := Text.splitSign (cs.filter (· ≠ '_'))
  if digits.isEmpty then .error .numberEmpty
  else
    match unsigned? digits with
    | some n => .ok (if negative then -n else n)
    | none => .error .numberUnreadable

/-- A number by its digits in the base sixty, from the last one on; each step is rounded, and the
weight of a digit must not be too large. -/
def sexagesimalSum (sum : Binary) (weight : Nat) : List Binary → Except Fault Binary
  | [] => .ok sum
  | d :: ds =>
    match Binary.nearest false weight 1 with
    | .finite m e => sexagesimalSum (sum.add (d.mul (.finite m e))) (weight * 60) ds
    | _ => .error .numberTooLarge

def unsignedFloat (cs : List Char) : Except Fault Binary :=
  let word := Text.lower (String.ofList cs)
  if word = ".inf" then .ok (.infinite false)
  else if word = ".nan" then .ok .nan
  else
    match if cs.contains ':' then (Text.splitAll ':' cs).mapM Binary.read? else
        (Binary.read? cs).map fun x => [x] with
    | some ds => sexagesimalSum .zero 1 ds.reverse
    | none => .error .numberUnreadable

def float? (cs : List Char) : Except Fault Binary :=
  let cs := cs.filter (· ≠ '_')
  if cs.isEmpty then .error .numberEmpty
  else
    let (negative, digits) := Text.splitSign cs
    (unsignedFloat digits).map fun x => if negative then x.neg else x

def octets? (cs : List Char) : Except Fault (List UInt8) :=
  if cs.any fun c => 0x80 ≤ c.toNat then .error .malformed
  else
    match Text.Base64.decode? cs with
    | some octets => .ok octets
    | none => .error .malformed

/-- The value of a text under a tag; collections have no text. -/
def ofScalar (tag : Tag) (text : String) : Except Fault Value :=
  match tag with
  | .null => .ok null
  | .text => .ok (.text text)
  | .bool =>
    match words.lookup (Text.lower text) with
    | some b => .ok (bool b)
    | none => .error .wordUnknown
  | .int => (int? text.toList).map int
  | .float => (float? text.toList).map float
  | .binary => (octets? text.toList).map bytes
  | .moment =>
    match Moment.read? text.toList with
    | some m => if m.isPossible then .ok moment else .error .momentImpossible
    | none => .error .momentUnreadable
  | _ => .error .malformed

example : (int? "-1:30".toList).toOption = some (-90) ∧ (int? "0x_1F".toList).toOption = some 31 ∧
    (int? "017".toList).toOption = some 15 ∧ (int? "_".toList).toOption = none ∧
    (float? "1:30.5".toList).toOption = some (.ofDecimal false 905 (-1)) := by decide +kernel

end Value
end SerialAudit.Document

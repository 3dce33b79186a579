import SerialAudit.Number.Binary
import SerialAudit.Text.Half

/-! Untyped data: what a caller or a document hands in before it is checked.

* `Datum` : a value of any kind; the fields of a record keep their order;
* `Datum.field?` : the value of a field of a record;
* `Datum.counts` : whether a value counts as true where only that is asked;
* `Datum.hasHalf` : whether a text somewhere inside holds half a character. -/
namespace SerialAudit
set_option autoImplicit false

/-- A value of unknown shape. `foreign` stands for a value of a kind that no reader accepts, such as
a date or a set. -/
inductive Datum where
  | null
  | bool (b : Bool)
  | int (n : Int)
  | float (x : Binary)
  | text (s : String)
  | bytes (octets : List UInt8)
  | foreign
  | list (items : List Datum)
  | record (fields : List (String × Datum))
  deriving Repr, Inhabited

namespace Datum

def field? (fields : List (String × Datum)) (name : String) : Option Datum := fields.lookup name

def isRecord : Datum → Bool
  | .record _ => true
  | _ => false

/-- Whether a value counts as true: null, false, zero and whatever is empty do not. -/
def counts : Datum → Bool
  | .null => false
  | .bool b => b
  | .int n => n ≠ 0
  | .float x => x.toInt? ≠ some 0
  | .text s => !s.isEmpty
  | .bytes octets => !octets.isEmpty
  | .foreign => true
  | .list items => !items.isEmpty
  | .record fields => !fields.isEmpty

mutual

def hasHalf : Datum → Bool
  | .text s => Text.hasHalf s
  | .list items => haveHalf items
  | .record fields => fieldsHaveHalf fields
  | _ => false

def haveHalf : List Datum → Bool
  | [] => false
  | d :: ds => d.hasHalf || haveHalf ds

def fieldsHaveHalf : List (String × Datum) → Bool
  | [] => false
  | (name, d) :: fields => Text.hasHalf name || d.hasHalf || fieldsHaveHalf fields

end

def ofText? : Option String → Datum
  | some s => .text s
  | none => .null

end Datum
end SerialAudit

import SerialAudit.Text.Numeral
import SerialAudit.Text.Split
import SerialAudit.Text.Utf8

/-! Query strings: parameters separated by ampersands, each a name and a value with an equals sign
between them. A plus sign is a space, and a percent sign with two hexadecimal digits is an octet.

* `Query.octets` : the octets that a part of a query stands for;
* `Query.decoded` : the text of a part, where malformed octets are replaced;
* `Query.parameters` : the names and values of a query;
* `Query.last?` : the last value under a name. -/
namespace SerialAudit.Query
set_option autoImplicit false

def hexDigit? (c : Char) : Option Nat := if c.toNat < 0x80 then Text.valueIn? 16 c else none

def octet? (a b : Char) : Option UInt8 :=
  match hexDigit? a, hexDigit? b with
  | some m, some n => some (UInt8.ofNat (m * 16 + n))
  | _, _ => none

/-- The octets of a text; a percent sign without two digits after it stands for itself. -/
def octets : List Char → List UInt8
  | [] => []
  | '%' :: a :: b :: cs =>
    match octet? a b with
    | some o => o :: octets cs
    | none => Text.Utf8.encode ['%'] ++ octets (a :: b :: cs)
  | c :: cs => Text.Utf8.encode [c] ++ octets cs

def unescaped (cs : List Char) : List Char := Text.Utf8.decodeLossy (octets cs)

def decoded (cs : List Char) : String :=
  String.ofList (unescaped (cs.map fun c => if c = '+' then ' ' else c))

/-- The parameters of a query in order. One without an equals sign has an empty value, and nothing
between two ampersands is no parameter. -/
def parameters (query : String) : List (String × String) :=
  ((Text.splitAll '&' query.toList).filter (!·.isEmpty)).map fun p =>
    let (name, value) := Text.splitFirst '=' p
    (decoded name, decoded value)

def last? (query name : String) : Option String := (parameters query).reverse.lookup name

example : last? "token=a&x=1&token=%C3%a9+b" "token" = some "é b" ∧ last? "token" "token" = some "" ∧
    last? "token=%zz%FF" "token" = some "%zz\uFFFD" ∧ last? "t=1;token=2" "token" = none := by
  decide +kernel

end SerialAudit.Query

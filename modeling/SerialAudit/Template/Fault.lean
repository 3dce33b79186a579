/-! Why a template cannot be filled in.

* `Fault` : the reasons, from the form of the template to what its holes lead to. -/
namespace SerialAudit.Template
set_option autoImplicit false

inductive Fault where
  | malformed
  | nestedTooDeep
  | unknownConversion
  | unsuitableLayout
  | tooWide
  | positional
  | unknownName (name : String)
  | beyondEnd (index : Nat)
  | notSubscriptable
  | noSuchEntry (key : String)
  | noSuchMember (member : String)
  | notLaidOut
  | noCharacter (code : Nat)
  deriving DecidableEq, Repr

end SerialAudit.Template

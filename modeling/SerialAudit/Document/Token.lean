import SerialAudit.Document.Fault

/-! The tokens of a document. -/
namespace SerialAudit.Document
set_option autoImplicit false

/-- A token. The list of the tokens of a document ends with `finish`, or with the fault that kept
it from being read further. -/
inductive Token where
  | version (major : Nat)
  | tagHandle (handle expansion : String)
  | otherDirective
  | documentStart
  | documentEnd
  | blockSequenceStart
  | blockMappingStart
  | blockEnd
  | flowSequenceStart
  | flowSequenceEnd
  | flowMappingStart
  | flowMappingEnd
  | blockEntry
  | flowEntry
  | key
  | value
  | alias (name : String)
  | anchor (name : String)
  | tag (handle : Option String) (suffix : String)
  | scalar (plain : Bool) (text : String)
  | finish
  | fault (fault : Fault)
  deriving DecidableEq, Repr

namespace Token

def isDirective : Token → Bool
  | version _ | tagHandle _ _ | otherDirective => true
  | _ => false

end Token
end SerialAudit.Document

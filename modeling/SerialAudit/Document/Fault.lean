/-! Why a document has no value. -/
namespace SerialAudit.Document
set_option autoImplicit false

/-- `malformed` covers everything that the rules of documents refuse, and `cutShort` a text that ends
where it has to go on. The next ones concern the octets of the text and escapes by code point; the
others concern scalars whose tag promises a kind of value that their text does not denote. -/
inductive Fault where
  | malformed
  | cutShort
  | undecodable
  | codeBeyondLast
  | codeBeyondWord
  | nestedTooDeep
  | numberEmpty
  | numberUnreadable
  | numberTooLarge
  | wordUnknown
  | momentWithoutText
  | momentUnreadable
  | momentImpossible
  deriving DecidableEq, Repr

def Fault.before (rest : List Char) : Fault := if rest.isEmpty then cutShort else malformed

end SerialAudit.Document

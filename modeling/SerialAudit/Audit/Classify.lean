import SerialAudit.Model.Candidate

/-! Which candidates are checked. A candidate is in scope if it is a class, was not generated and has
the capability `IMigratable`; it is then checked by its first `SerializedIdAttribute`.

* `Candidate.inScope` : whether a candidate is checked at all;
* `Candidate.serializedId?` : the annotation it is checked by;
* `classify` : both together. -/
namespace SerialAudit
set_option autoImplicit false

def migratableCapability : String := "IMigratable"

def serializedIdAttribute : String := "SerializedIdAttribute"

namespace Candidate

def inScope (c : Candidate) : Bool :=
  c.kind = .class && !c.isGenerated && c.capabilities.contains migratableCapability

def serializedId? (c : Candidate) : Option Attribute :=
  c.attributes.find? (·.typeName = serializedIdAttribute)

end Candidate

def classify (c : Candidate) : Classification :=
  if c.inScope then
    match c.serializedId? with
    | some a => ⟨.hasAttribute, some a⟩
    | none => ⟨.missingAttribute, none⟩
  else ⟨.outOfScope, none⟩

end SerialAudit

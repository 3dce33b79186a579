import SerialAudit.Access.Wire
import SerialAudit.Audit.Parse
import SerialAudit.Main
import SerialAudit.Model.Instance
import SerialAudit.Proofs.Audit.History
import SerialAudit.Proofs.Audit.Pool
import SerialAudit.Proofs.Audit.Tally
import SerialAudit.Proofs.Service.Call
import SerialAudit.Rulebook.Standard
import SerialAudit.Template.Written
import SerialAudit.Tools
import SerialAudit.Proofs.Service.Winner
import SerialAudit.Proofs.Service.Splitting
import SerialAudit.Proofs.Service.Isolation
import SerialAudit.Proofs.Registry.Ledger
import SerialAudit.Proofs.Rulebook.Wording
import SerialAudit.Proofs.Service.Atomicity
import SerialAudit.Proofs.Access.Admission
import SerialAudit.Proofs.Rulebook.Rendering
import SerialAudit.Proofs.Rulebook.Return
import SerialAudit.Proofs.Audit.Insertion
import SerialAudit.Proofs.Service.Silencing
import SerialAudit.Proofs.Rulebook.Caching
import SerialAudit.Proofs.Service.Batch
import SerialAudit.Proofs.Audit.Repetition
import SerialAudit.Proofs.Audit.Relevance
import SerialAudit.Proofs.Rulebook.Loading
import SerialAudit.Proofs.Rulebook.Substitution
import SerialAudit.Proofs.Audit.Collision
import SerialAudit.Proofs.Audit.Equality
import SerialAudit.Proofs.Model.Acceptance
import SerialAudit.Proofs.Service.RoundTrip

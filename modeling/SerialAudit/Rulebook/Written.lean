import SerialAudit.Document.Written
import SerialAudit.Rulebook.Load

/-! A rulebook as the text of a rules file.

* `Descriptor.fields` : the fields of a definition in their order;
* `Rulebook.toText` : the text of a rulebook. -/
namespace SerialAudit
set_option autoImplicit false

inductive FieldValue where
  | text (s : String)
  | flag (b : Bool)
  deriving DecidableEq, Repr

def Descriptor.fields (d : Descriptor) : List (String × FieldValue) :=
  [("rule", .text d.rule.name), ("diagnostic_id", .text d.diagnosticId), ("title", .text d.title),
   ("message_format", .text d.messageFormat), ("severity", .text d.severity.name),
   ("category", .text d.category), ("enabled_by_default", .flag d.enabled)]

namespace Rulebook

/-- The line of a field, or its lines where the text is long; `lead` stands before the name. -/
def fieldText (lead : String) (f : String × FieldValue) : String :=
  lead ++ f.1 ++ ":" ++
    (match f.2 with
    | .text s => Document.Written.scalar (lead.length + f.1.length + 1) s
    | .flag b => if b then " true" else " false") ++ "\n"

/-- The lines of a definition; the first one begins with a dash. -/
def entryText (d : Descriptor) : String :=
  match d.fields with
  | [] => ""
  | f :: fs => fieldText "- " f ++ String.join (fs.map (fieldText "  "))

def toText (b : Rulebook) : String :=
  rulesKey ++ ":\n" ++ String.join (b.descriptors.map entryText)

end Rulebook
end SerialAudit

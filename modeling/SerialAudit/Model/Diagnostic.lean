import SerialAudit.Validation.Scalar

/-! Diagnostics: what is wrong with a candidate, how the rules word it, and the report of a run.

* `Rule`, `Severity` : the four rules and the three weights of a diagnostic;
* `Diagnostic` : a violation of a rule by a class;
* `Descriptor` : the definition of a rule: identifier, title, message template and so on;
* `Reported` : a diagnostic with its message, weight and category;
* `Report` : the outcome of one analysis.

Each of them has a reader of untyped data and a `toDatum` that writes it back. -/
namespace SerialAudit
set_option autoImplicit false

/-! ## Rules and severities -/

inductive Rule where
  | missingAttribute
  | missingField
  | invalidField
  | duplicateVersion
  deriving DecidableEq, Repr

namespace Rule

/-- The rules, in the order in which they are listed wherever one is absent. -/
def all : List Rule := [.missingAttribute, .missingField, .invalidField, .duplicateVersion]

def name : Rule → String
  | missingAttribute => "missing_annotation"
  | missingField => "missing_field"
  | invalidField => "invalid_field"
  | duplicateVersion => "duplicate_version"

def read : Reader Rule := Reader.choice (all.map fun r => (r.name, r))

theorem mem_all (r : Rule) : r ∈ all := by cases r <;> decide

theorem name_injective {r s : Rule} (h : r.name = s.name) : r = s := by
  cases r <;> cases s <;> first | rfl | exact absurd h (by decide)

end Rule

inductive Severity where
  | error
  | warning
  | info
  deriving DecidableEq, Repr

namespace Severity

def all : List Severity := [.error, .warning, .info]

def name : Severity → String
  | error => "error"
  | warning => "warning"
  | info => "info"

def read : Reader Severity := Reader.choice (all.map fun s => (s.name, s))

end Severity

/-! ## Diagnostics and their wording -/

/-- A violation of a rule by a class, with the argument that it concerns. -/
structure Diagnostic where
  rule : Rule
  className : String
  fieldName : Option String
  deriving DecidableEq, Repr

namespace Diagnostic

def modelName : String := "Diagnostic"

def read : Reader Diagnostic :=
  Reader.recordOf modelName fun fields =>
    mk <$> Reader.required fields "rule" Rule.read
      <*> Reader.required fields "class_name" Reader.text
      <*> Reader.optional fields "field_name" none Reader.optionalText

def toDatum (d : Diagnostic) : Datum :=
  .record [("rule", .text d.rule.name), ("class_name", .text d.className),
    ("field_name", Datum.ofText? d.fieldName)]

end Diagnostic

/-- The definition of a rule. A rule that is not enabled is checked but not reported. -/
structure Descriptor where
  rule : Rule
  diagnosticId : String
  title : String
  messageFormat : String
  severity : Severity
  category : String
  enabled : Bool
  deriving DecidableEq, Repr

namespace Descriptor

def modelName : String := "RuleDescriptor"

def read : Reader Descriptor :=
  Reader.recordOf modelName fun fields =>
    mk <$> Reader.required fields "rule" Rule.read
      <*> Reader.required fields "diagnostic_id" Reader.text
      <*> Reader.required fields "title" Reader.text
      <*> Reader.required fields "message_format" Reader.text
      <*> Reader.optional fields "severity" .error Severity.read
      <*> Reader.required fields "category" Reader.text
      <*> Reader.optional fields "enabled_by_default" true Reader.boolean

def toDatum (d : Descriptor) : Datum :=
  .record [("rule", .text d.rule.name), ("diagnostic_id", .text d.diagnosticId),
    ("title", .text d.title), ("message_format", .text d.messageFormat),
    ("severity", .text d.severity.name), ("category", .text d.category),
    ("enabled_by_default", .bool d.enabled)]

end Descriptor

structure Reported where
  diagnosticId : String
  rule : Rule
  severity : Severity
  category : String
  message : String
  className : String
  fieldName : Option String
  location : Option String
  deriving DecidableEq, Repr

namespace Reported

def modelName : String := "ReportedDiagnostic"

def read : Reader Reported :=
  Reader.recordOf modelName fun fields =>
    mk <$> Reader.required fields "diagnostic_id" Reader.text
      <*> Reader.required fields "rule" Rule.read
      <*> Reader.required fields "severity" Severity.read
      <*> Reader.required fields "category" Reader.text
      <*> Reader.required fields "message" Reader.text
      <*> Reader.required fields "class_name" Reader.text
      <*> Reader.optional fields "field_name" none Reader.optionalText
      <*> Reader.optional fields "location" none Reader.optionalText

def toDatum (r : Reported) : Datum :=
  .record [("diagnostic_id", .text r.diagnosticId), ("rule", .text r.rule.name),
    ("severity", .text r.severity.name), ("category", .text r.category),
    ("message", .text r.message), ("class_name", .text r.className),
    ("field_name", Datum.ofText? r.fieldName), ("location", Datum.ofText? r.location)]

end Reported

/-! ## Reports -/

/-- The outcome of one analysis: which run it belongs to, how many candidates were checked, the
reported diagnostics in the order of the candidates, and the versions registered under each id. -/
structure Report where
  runId : String
  checkedCount : Int
  diagnostics : List Reported
  registered : List (String × List Int)
  deriving DecidableEq, Repr

namespace Report

def modelName : String := "AnalysisReport"

def read : Reader Report :=
  Reader.recordOf modelName fun fields =>
    mk <$> Reader.required fields "run_id" Reader.text
      <*> Reader.required fields "checked_count" Reader.integer
      <*> Reader.optional fields "diagnostics" [] (Reader.list Reported.read)
      <*> Reader.optional fields "registered" [] (Reader.dictionary (Reader.list Reader.integer))

def fields (r : Report) : List (String × Datum) :=
  [("run_id", .text r.runId), ("checked_count", .int r.checkedCount),
   ("diagnostics", .list (r.diagnostics.map Reported.toDatum)),
   ("registered", .record (r.registered.map fun p => (p.1, .list (p.2.map .int))))]

def toDatum (r : Report) : Datum := .record r.fields

def passed (r : Report) : Bool := r.diagnostics.isEmpty

def covered (xs ys : List (String × List Int)) : Bool :=
  xs.all fun x => ys.lookup x.1 = some x.2

/-- Equality of reports; the order of the registered ids does not matter. -/
def same (a b : Report) : Bool :=
  a.runId = b.runId && a.checkedCount = b.checkedCount && a.diagnostics = b.diagnostics &&
    covered a.registered b.registered && covered b.registered a.registered

end Report
end SerialAudit

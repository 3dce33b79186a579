import SerialAudit.Audit.Parse
import SerialAudit.Rulebook.Written
import SerialAudit.Service

/-! The tools of the server: the analysis of several classes, the check of one, and the rules. Faults
that the user can mend are answers; all others end the call.

* `Tool` : a call of a tool with its arguments;
* `Tool.ofCall?` : the call that a name and some arguments make;
* `Tool.Reply` : what a call gives back;
* `Tool.call` : the effect of a call on the service;
* `Service.isRulesAddress` : whether an address is that of the rules;
* `Service.rulesText` : the rules as a text. -/
namespace SerialAudit
set_option autoImplicit false

inductive Tool where
  | analyzeClasses (candidates : List Datum)
  | checkClass (candidate : Datum)
  | getRules
  deriving Repr

namespace Tool

/-- The call that a name and some arguments make. A tool takes exactly the arguments it has, each of
the shape of its own. -/
def ofCall? (name : String) (arguments : List (String × Datum)) : Option Tool :=
  match name, arguments with
  | "analyze_classes", [("candidates", .list items)] =>
    if items.all Datum.isRecord then some (analyzeClasses items) else none
  | "check_class", [("candidate", .record fields)] => some (checkClass (.record fields))
  | "get_rules", [] => some getRules
  | _, _ => none

/-- What a call gives back: an answer, the name and message of a fault, or no answer at all. -/
inductive Reply where
  | answer (fields : List (String × Datum))
  | refusal (name message : String)
  | failure
  deriving Repr, Inhabited

def refusal? (directory : String) (f : ServiceFault) : Option (String × String) :=
  (f.message? directory).map fun m =>
    match f with
    | .catalog (.unknownRule _) => ("UnknownRuleError", m)
    | _ => ("RuleConfigError", m)

/-- The reply to a call whose outcome is a fault, or is written as fields. Fields that cannot be
encoded are no answer. -/
def reply {α : Type} (directory : String) (write : α → List (String × Datum)) :
    Except ServiceFault α → Reply
  | .ok a => if (Datum.record (write a)).hasHalf then .failure else .answer (write a)
  | .error f =>
    match refusal? directory f with
    | some (name, message) => .refusal name message
    | none => .failure

def verdictFields (r : Report) : List (String × Datum) :=
  [("passed", .bool r.passed), ("diagnostics", .list (r.diagnostics.map Reported.toDatum))]

def analyze (s : Service) (folder : Folder) (fresh : String) (candidates : List Datum)
    (write : Report → List (String × Datum)) : Reply × Service :=
  match Candidate.readAll candidates with
  | .error e => (.refusal "InvalidCandidateError" e.message, s)
  | .ok cs =>
    let a := s.analyzeFresh folder fresh cs
    (reply s.catalog.directory write a.outcome, a.service)

/-- A call of a tool; `fresh` is the id of the run that it starts. -/
def call (t : Tool) (s : Service) (folder : Folder) (fresh : String) : Reply × Service :=
  match t with
  | analyzeClasses candidates => analyze s folder fresh candidates Report.fields
  | checkClass candidate => analyze s folder fresh [candidate] verdictFields
  | getRules =>
    let (outcome, catalog) := s.catalog.descriptors folder
    let write (ds : List Descriptor) := [("rules", Datum.list (ds.map Descriptor.toDatum))]
    (reply s.catalog.directory write (outcome.mapError .catalog), { s with catalog := catalog })

end Tool

namespace Service

def rulesAddress : String := "migralint://rules"

/-- The authority of an address without what may be empty in it: the user before it and the port after
it. -/
def plainAuthority (cs : List Char) : List Char :=
  let host := match cs with
    | ':' :: '@' :: rest => rest
    | '@' :: rest => rest
    | _ => cs
  if host.getLast? = some ':' then host.dropLast else host

/-- Whether an address is that of the rules. Blanks around it, line breaks and tabs in it, and the
letter case of its scheme do not matter. -/
def isRulesAddress (address : String) : Bool :=
  let cs := (Text.trim (·.toNat ≤ 0x20) address.toList).filter fun c =>
    c ≠ '\t' && c ≠ '\n' && c ≠ '\r'
  let (scheme, rest) := Text.splitFirst ':' cs
  match rest with
  | '/' :: '/' :: authority =>
    scheme.map Char.toLower ++ "://".toList ++ plainAuthority authority = rulesAddress.toList
  | _ => false

def rulesText (s : Service) (folder : Folder) : Except CatalogFault String × Service :=
  let (outcome, catalog) := s.catalog.use folder fun b => .ok b.toText
  (outcome, { s with catalog := catalog })

example : isRulesAddress rulesAddress ∧ isRulesAddress " MIGRALINT://@ru\nles:" ∧
    ¬ isRulesAddress "migralint://RULES" ∧ ¬ isRulesAddress "migralint://rules/" := by
  decide +kernel

end Service
end SerialAudit

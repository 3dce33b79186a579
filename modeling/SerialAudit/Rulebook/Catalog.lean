import SerialAudit.Rulebook.Load
import SerialAudit.Template.Render

/-! The catalog: the rules of a directory, loaded when they are first needed and kept from then on.
A load that fails leaves nothing behind.

* `Rulebook.format`, `Rulebook.formatAt` : the wording of a diagnostic at a location;
* `Catalog` : the directory and the rules loaded from it;
* `Catalog.use` : something done with the rules, which are loaded first if need be;
* `Catalog.descriptors`, `Catalog.describe`, `Catalog.format` : the three uses. -/
namespace SerialAudit
set_option autoImplicit false

inductive CatalogFault where
  | load (fault : LoadFault)
  | unknownRule (name : String)
  | wording (fault : Template.Fault)
  | unreportable (rejection : Rejection)
  deriving DecidableEq, Repr

def CatalogFault.message? (directory : String) : CatalogFault → Option String
  | load fault => fault.message? directory
  | unknownRule name => some ("Unknown diagnostic rule: " ++ name)
  | _ => none

namespace Rulebook

def describe (b : Rulebook) (name : String) : Except CatalogFault Descriptor :=
  match b.describe? name with
  | some d => .ok d
  | none => .error (.unknownRule name)

def names (d : Diagnostic) : Template.Names :=
  [("class_name", d.className), ("field_name", d.fieldName.getD "")]

/-- The wording of a diagnostic, or nothing where its rule is not enabled. -/
def format (b : Rulebook) (d : Diagnostic) (location : Option String) :
    Except CatalogFault (Option Reported) := do
  let e ← b.describe d.rule.name
  if e.enabled then
    match Template.render (names d) e.messageFormat with
    | .error fault => .error (.wording fault)
    | .ok message =>
      .ok (some ⟨e.diagnosticId, d.rule, e.severity, e.category, message, d.className, d.fieldName,
        location⟩)
  else .ok none

/-- The wording of a diagnostic at a location that may be no text; then there is no report of it. -/
def formatAt (b : Rulebook) (d : Diagnostic) (location : Datum) :
    Except CatalogFault (Option Reported) :=
  match (Reader.optionalText location).under (.key "location") with
  | .ok l => b.format d l
  | .bad issues =>
    match b.format d none with
    | .ok (some _) => .error (.unreportable ⟨Reported.modelName, issues⟩)
    | outcome => outcome

end Rulebook

structure Catalog where
  directory : String
  rulebook : Option Rulebook
  deriving Repr

namespace Catalog

variable {α : Type}

def ofDirectory (directory : String) : Catalog := ⟨directory, none⟩

/-- The rules, loaded from the present content of the directory if they have not been loaded. -/
def load (k : Catalog) (folder : Folder) : Except LoadFault Rulebook :=
  match k.rulebook with
  | some b => .ok b
  | none => Rulebook.load folder

/-- Does something with the rules; once they are loaded they are kept, whatever comes of it. -/
def use (k : Catalog) (folder : Folder) (f : Rulebook → Except CatalogFault α) :
    Except CatalogFault α × Catalog :=
  match k.load folder with
  | .error fault => (.error (.load fault), k)
  | .ok b => (f b, { k with rulebook := some b })

def descriptors (k : Catalog) (folder : Folder) : Except CatalogFault (List Descriptor) × Catalog :=
  k.use folder fun b => .ok b.descriptors

def describe (k : Catalog) (folder : Folder) (name : String) :
    Except CatalogFault Descriptor × Catalog :=
  k.use folder (·.describe name)

def format (k : Catalog) (folder : Folder) (d : Diagnostic) (location : Option String) :
    Except CatalogFault (Option Reported) × Catalog :=
  k.use folder (·.format d location)

def formatAt (k : Catalog) (folder : Folder) (d : Diagnostic) (location : Datum) :
    Except CatalogFault (Option Reported) × Catalog :=
  k.use folder (·.formatAt d location)

/-- What is loaded stays loaded, and the directory does not matter any more. -/
theorem use_of_rulebook (k : Catalog) (b : Rulebook) (h : k.rulebook = some b) (folder : Folder)
    (f : Rulebook → Except CatalogFault α) : k.use folder f = (f b, k) := by
  cases k
  simp_all [use, load]

end Catalog
end SerialAudit

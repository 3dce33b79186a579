import SerialAudit.Document.Value
import SerialAudit.Model.Diagnostic
import SerialAudit.Rulebook.Folder

/-! Loading the rules: from the text of the rules file to the definitions of all rules.

* `LoadFault` : why there are no rules, and the message about it;
* `Document.Value.isNothing`, `Document.Value.items?` : values that count as nothing, and what a value consists of;
* `rulesEntries` : the entries under the key `rules`;
* `Rulebook` : the definitions, one for each rule;
* `Rulebook.ofEntries`, `Rulebook.load` : the rulebook of some entries and of a directory. -/
namespace SerialAudit
set_option autoImplicit false

/-! ## Faults -/

/-- Why there are no rules. The first four causes are about the rules and have a message; the others
are about the file and what is written in it. -/
inductive LoadFault where
  | absent
  | undefinedRules
  | invalidEntry (rejection : Rejection)
  | missingRules (rules : List Rule)
  | unreadable (fault : Folder.Fault)
  | document (fault : Document.Fault)
  | unsuitable
  deriving DecidableEq, Repr

def LoadFault.message? (directory : String) : LoadFault → Option String
  | absent => some ("診断ルール定義ファイルが見つかりません: " ++ Folder.filePath directory)
  | undefinedRules => some ("rulesが定義されていません: " ++ Folder.filePath directory)
  | invalidEntry r => some ("不正な診断ルール定義です: " ++ r.report)
  | missingRules rs =>
    some ("診断ルールの定義が不足しています: " ++ String.intercalate ", " (rs.map Rule.name))
  | _ => none

/-! ## Values of rules files -/

namespace Document.Value

/-- Values that count as nothing: null, false, zero, and what is empty. -/
def isNothing : Value → Bool
  | null => true
  | bool b => !b
  | int n => n = 0
  | float x => x.toInt? = some 0
  | text s => s.isEmpty
  | bytes octets => octets.isEmpty
  | moment => false
  | list items => items.isEmpty
  | map entries => entries.isEmpty
  | set members => members.isEmpty

def isText (name : String) : Value → Bool
  | text s => s = name
  | _ => false

/-- What a value consists of when it is gone through item by item: the items of a list, the keys of
a mapping, the members of a set, the characters of a text, the numbers of octets. -/
def items? : Value → Option (List Datum)
  | list items => some (items.map toDatum)
  | map entries => some (entries.map (·.1.toDatum))
  | set members => some (members.map toDatum)
  | text s => some (s.toList.map fun c => .text (String.ofList [c]))
  | bytes octets => some (octets.map fun b => .int b.toNat)
  | _ => none

def lookUp? (name : String) (entries : List (Value × Value)) : Option Value :=
  (entries.reverse.find? (·.1.isText name)).map (·.2)

end Document.Value

def rulesKey : String := "rules"

def holds (word : List Char) : List Char → Bool
  | [] => word.isEmpty
  | c :: cs => word.isPrefixOf (c :: cs) || holds word cs

/-- The value under the key `rules`. Texts, lists and sets may hold the key but have no value under
it; of all other values but mappings it cannot even be asked whether they hold it. -/
def rulesValue (v : Document.Value) : Except LoadFault Document.Value :=
  let without (held : Bool) : Except LoadFault Document.Value :=
    .error (if held then .unsuitable else .undefinedRules)
  if v.isNothing then .error .undefinedRules
  else
    match v with
    | .map entries =>
      match Document.Value.lookUp? rulesKey entries with
      | some rules => .ok rules
      | none => .error .undefinedRules
    | .text s => without (holds rulesKey.toList s.toList)
    | .list items => without (items.any (·.isText rulesKey))
    | .set members => without (members.any (·.isText rulesKey))
    | _ => .error .unsuitable

def rulesEntries (v : Document.Value) : Except LoadFault (List Datum) := do
  match (← rulesValue v).items? with
  | some entries => .ok entries
  | none => .error .unsuitable

/-! ## Rulebooks -/

/-- The definitions of the rules, in the order in which the rules occur first. -/
structure Rulebook where
  descriptors : List Descriptor
  deriving DecidableEq, Repr

namespace Rulebook

/-- Puts a definition in the place of the one for the same rule, or at the end. -/
def put (d : Descriptor) : List Descriptor → List Descriptor
  | [] => [d]
  | e :: es => if e.rule = d.rule then d :: es else e :: put d es

/-- Reads entries up to the first one that is no definition. -/
def readEntries : List Datum → Except Rejection (List Descriptor)
  | [] => .ok []
  | d :: ds => do
    let e ← (Descriptor.read d).toExcept Descriptor.modelName
    let es ← readEntries ds
    .ok (e :: es)

/-- The definitions without those that a later one replaces. -/
def lastOfEach (ds : List Descriptor) : List Descriptor := ds.foldl (fun es d => put d es) []

def absentRules (ds : List Descriptor) : List Rule :=
  Rule.all.filter fun r => !ds.any (·.rule = r)

/-- The rulebook of some entries: all have to be definitions, and no rule may be absent. -/
def ofEntries (entries : List Datum) : Except LoadFault Rulebook :=
  match readEntries entries with
  | .error rejection => .error (.invalidEntry rejection)
  | .ok ds =>
    match absentRules ds with
    | [] => .ok ⟨lastOfEach ds⟩
    | rs => .error (.missingRules rs)

/-- How deep the value of a rules file is looked into: the file, the list of its entries, an entry,
and the fields of the entry. -/
def depth : Nat := 4

def ofSource (source : Document.Source) : Except LoadFault Rulebook :=
  match Document.Value.ofSource depth source with
  | .error fault => .error (.document fault)
  | .ok v => (rulesEntries v).bind ofEntries

def load (folder : Folder) : Except LoadFault Rulebook :=
  match folder.source? with
  | .error .absent => .error .absent
  | .error fault => .error (.unreadable fault)
  | .ok source => ofSource source

def describe? (b : Rulebook) (name : String) : Option Descriptor :=
  b.descriptors.find? (·.rule.name = name)

/-! ## Laws -/

theorem mem_put {d e : Descriptor} {es : List Descriptor} (h : e ∈ put d es) : e = d ∨ e ∈ es := by
  induction es with
  | nil => simpa [put] using h
  | cons x xs ih => grind [put]

end Rulebook
end SerialAudit

import SerialAudit.Audit.Classify
import SerialAudit.Log
import SerialAudit.Model.Diagnostic
import SerialAudit.Registry
import SerialAudit.Text.Quoted

/-! The check of one candidate. Of everything that may be wrong only the first finding is reported,
in this order: the id is given, it is not empty, the version is given, it is a natural number, and
the pair of both is not taken. Only a candidate that gets that far touches the registry.

* `Argument.idText` : the text under which the value of an id is registered;
* `Argument.version?` : the version that a value stands for;
* `Attribute.pair?` : the pair of an annotation, or what keeps it from having one;
* `Outcome` : the diagnostics, the registry afterwards and the log lines of a check;
* `evaluate`, `check` : the check by an annotation and the check of a candidate;
* `evaluateWithin`, `checkWithin` : the same where integers of too many digits are not written. -/
namespace SerialAudit
set_option autoImplicit false

/-! ## Ids and versions -/

def idField : String := "id"

def versionField : String := "version"

namespace Argument

/-- The text of an id: a number by its numeral, however long, a boolean by its word, a missing value by
nothing. Where numerals may be too long to be written, `writtenId` is asked first. -/
def idText : Argument → String
  | text s => s
  | int n => Text.signed n
  | bool b => if b then "True" else "False"
  | missing => ""

/-- The version that a value stands for: an integer that is not negative. -/
def version? : Argument → Option Int
  | int n => if 0 ≤ n then some n else none
  | _ => none

end Argument

/-- What keeps an annotation from naming a pair: the rule it violates and the argument. -/
structure FieldFault where
  rule : Rule
  field : String
  deriving DecidableEq, Repr

/-- The pair of id and version that an annotation names, or its first fault. -/
def Attribute.pair? (a : Attribute) : Except FieldFault (String × Int) :=
  match a.argument? idField with
  | none => .error ⟨.missingField, idField⟩
  | some i =>
    if i.idText = "" then .error ⟨.invalidField, idField⟩
    else
      match a.argument? versionField with
      | none => .error ⟨.missingField, versionField⟩
      | some v =>
        match v.version? with
        | some n => .ok (i.idText, n)
        | none => .error ⟨.invalidField, versionField⟩

/-! ## Checks -/

structure Outcome where
  diagnostics : List Diagnostic
  registry : Registry
  log : List Log.Line
  deriving DecidableEq, Repr

def duplicateLine (name id : String) (version : Int) : Log.Line :=
  Log.debug ("Duplicate version " ++ Text.signed version ++ " for id " ++ Text.quoted id ++
    " in class " ++ name)

def evaluate (c : Candidate) (a : Attribute) (r : Registry) : Outcome :=
  match a.pair? with
  | .error fault => ⟨[⟨fault.rule, c.name, some fault.field⟩], r, []⟩
  | .ok (id, version) =>
    match r.register id version with
    | (true, r') => ⟨[], r', []⟩
    | (false, r') =>
      ⟨[⟨.duplicateVersion, c.name, none⟩], r', [duplicateLine c.name id version]⟩

def check (c : Candidate) (r : Registry) : Outcome :=
  match classify c with
  | ⟨.outOfScope, _⟩ => ⟨[], r, []⟩
  | ⟨.hasAttribute, some a⟩ => evaluate c a r
  | _ => ⟨[⟨.missingAttribute, c.name, none⟩], r, []⟩

/-! ## Ids that are too long

An integer may have more digits than the interpreter is set to write, which are `Text.digitLimit` unless
it is told otherwise. The check of an id that cannot be written has no result, and changes nothing. -/

inductive CheckFault where
  | idTooLong
  deriving DecidableEq, Repr

/-- The text of an id, if it can be written. -/
def Argument.writtenId (limit : Option Nat) : Argument → Except CheckFault String
  | int n =>
    if limit.any fun digits => Nat.pow 10 digits ≤ n.natAbs then .error .idTooLong else .ok (Text.signed n)
  | x => .ok x.idText

def evaluateWithin (limit : Option Nat) (c : Candidate) (a : Attribute) (r : Registry) :
    Except CheckFault Outcome :=
  match a.argument? idField with
  | none => .ok (evaluate c a r)
  | some i => (i.writtenId limit).map fun _ => evaluate c a r

def checkWithin (limit : Option Nat) (c : Candidate) (r : Registry) : Except CheckFault Outcome :=
  match classify c with
  | ⟨.hasAttribute, some a⟩ => evaluateWithin limit c a r
  | _ => .ok (check c r)

/-! ## Laws -/

theorem length_evaluate_le (c : Candidate) (a : Attribute) (r : Registry) :
    (evaluate c a r).diagnostics.length ≤ 1 := by
  unfold evaluate
  split
  · simp
  · split <;> simp

theorem length_check_le (c : Candidate) (r : Registry) : (check c r).diagnostics.length ≤ 1 := by
  unfold check
  split
  · simp
  · exact length_evaluate_le c _ r
  · simp

end SerialAudit

import SerialAudit.Model.Candidate
import SerialAudit.Model.Diagnostic

/-! Values of any of the models, under one type.

* `Model` : the seven models and their names;
* `Instance` : a value of a model;
* `Instance.read`, `Instance.toDatum`, `Instance.same` : reading, writing back and equality;
* `Instance.assign` : setting an attribute of an instance, which only some models admit;
* `Instance.current?` : the fields of an instance after that. -/
namespace SerialAudit
set_option autoImplicit false

inductive Model where
  | attr
  | candidate
  | classification
  | diagnostic
  | descriptor
  | reported
  | report
  deriving DecidableEq, Repr

namespace Model

def all : List Model :=
  [.attr, .candidate, .classification, .diagnostic, .descriptor, .reported, .report]

def name : Model → String
  | attr => Attribute.modelName
  | candidate => Candidate.modelName
  | classification => Classification.modelName
  | diagnostic => Diagnostic.modelName
  | descriptor => Descriptor.modelName
  | reported => Reported.modelName
  | report => Report.modelName

def ofName? (s : String) : Option Model := all.find? (·.name = s)

/-- What is checked is fixed once it is built; what describes and reports it may be changed. -/
def isFrozen : Model → Bool
  | attr | candidate | classification | diagnostic => true
  | descriptor | reported | report => false

end Model

inductive Instance where
  | attr (a : Attribute)
  | candidate (c : Candidate)
  | classification (c : Classification)
  | diagnostic (d : Diagnostic)
  | descriptor (d : Descriptor)
  | reported (r : Reported)
  | report (r : Report)
  deriving DecidableEq, Repr

namespace Instance

def model : Instance → Model
  | attr _ => .attr
  | candidate _ => .candidate
  | classification _ => .classification
  | diagnostic _ => .diagnostic
  | descriptor _ => .descriptor
  | reported _ => .reported
  | report _ => .report

def read : Model → Reader Instance
  | .attr, d => attr <$> Attribute.read d
  | .candidate, d => candidate <$> Candidate.read d
  | .classification, d => classification <$> Classification.read d
  | .diagnostic, d => diagnostic <$> Diagnostic.read d
  | .descriptor, d => descriptor <$> Descriptor.read d
  | .reported, d => reported <$> Reported.read d
  | .report, d => report <$> Report.read d

def toDatum : Instance → Datum
  | attr a => a.toDatum
  | candidate c => c.toDatum
  | classification c => c.toDatum
  | diagnostic d => d.toDatum
  | descriptor d => d.toDatum
  | reported r => r.toDatum
  | report r => r.toDatum

def fields (i : Instance) : List (String × Datum) :=
  match i.toDatum with
  | .record fs => fs
  | _ => []

/-- Equality of instances. Instances of different models are different. -/
def same : Instance → Instance → Bool
  | attr a, attr b => a.same b
  | candidate a, candidate b => a.same b
  | classification a, classification b => a.same b
  | diagnostic a, diagnostic b => a = b
  | descriptor a, descriptor b => a = b
  | reported a, reported b => a = b
  | report a, report b => a.same b
  | _, _ => false

end Instance

/-! ## Assignment -/

inductive Assignment where
  | done
  | frozen (rejection : Rejection)
  | noSuchField
  | readOnly
  | unsuitable
  deriving DecidableEq, Repr

/-- Puts a value in place of the one a field has, or at the end. -/
def Datum.setField (name : String) (value : Datum) (fields : List (String × Datum)) :
    List (String × Datum) :=
  if (Datum.field? fields name).isSome then
    fields.map fun p => if p.1 = name then (name, value) else p
  else fields ++ [(name, value)]

/-- Fields of a model that are not among the written ones. -/
def Model.hiddenFields : Model → List String
  | .report => ["created_at"]
  | _ => []

/-- Names of a model that are computed: what every model tells about its fields, and what a report
says about its diagnostics. -/
def Model.computed : Model → List String
  | .report => ["model_extra", "model_fields_set", "passed"]
  | _ => ["model_extra", "model_fields_set"]

namespace Instance

def hasField (i : Instance) (name : String) : Bool := (Datum.field? i.fields name).isSome

/-- Sets an attribute whose name starts with an underscore, on any model. It is never a field; most
such names are free, some are computed, and two of them stand for the instance as a whole: its kind,
which stays, and all its fields at once. -/
def assignInner (i : Instance) (fields : List (String × Datum)) (name : String) (value : Datum) :
    Assignment × List (String × Datum) :=
  if name = "__class__" then (.unsuitable, fields)
  else if name = "__dict__" then
    match value with
    | .record values => (.done, values.filter fun p => i.hasField p.1)
    | _ => (.unsuitable, fields)
  else if name = "__fields_set__" || name = "__weakref__" then (.readOnly, fields)
  else (.done, fields)

/-- Sets an attribute, given the present fields. The value of a field is not checked. -/
def assign (i : Instance) (fields : List (String × Datum)) (name : String) (value : Datum) :
    Assignment × List (String × Datum) :=
  if name.toList.head? = some '_' then i.assignInner fields name value
  else if i.model.isFrozen then (.frozen ⟨i.model.name, [⟨[.key name], .frozen⟩]⟩, fields)
  else if i.model.computed.contains name then (.readOnly, fields)
  else if i.model.hiddenFields.contains name then (.done, fields)
  else if i.hasField name then (.done, Datum.setField name value fields)
  else (.noSuchField, fields)

/-- The present fields in their order; nothing where one of them is gone, or where the versions in a
report are no table. -/
def current? (i : Instance) (fields : List (String × Datum)) : Option (List (String × Datum)) :=
  i.fields.mapM fun p =>
    (Datum.field? fields p.1).bind fun d =>
      if p.1 = "registered" && !d.isRecord then none else some (p.1, d)

end Instance

/-- Whether the fields of a report, however they were set, list no diagnostic. -/
def Report.passedFields (fields : List (String × Datum)) : Bool :=
  match Datum.field? fields "diagnostics" with
  | some diagnostics => !diagnostics.counts
  | none => false

end SerialAudit

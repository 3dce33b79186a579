import SerialAudit.Validation.Scalar

/-! Candidates: resolved class declarations that are to be checked, with their annotations.

* `Argument` : the value of a named argument of an annotation, kept as it was given;
* `Attribute` : a metadata annotation on a declaration;
* `Candidate` : a declaration with its capabilities and annotations;
* `Classification` : whether a candidate is to be checked, and by which annotation.

Each of them has a reader of untyped data and a `toDatum` that writes it back. -/
namespace SerialAudit
set_option autoImplicit false

/-! ## Arguments -/

/-- The value of an argument. No conversion takes place: a boolean is never an integer, and a
value that is left open is `missing`. -/
inductive Argument where
  | text (s : String)
  | int (n : Int)
  | bool (b : Bool)
  | missing
  deriving DecidableEq, Repr

namespace Argument

/-- Anything but a text, an integer, a boolean or null is three findings, one for each kind that it
could have been. -/
def read : Reader Argument
  | .text s => .ok (.text s)
  | .int n => .ok (.int n)
  | .bool b => .ok (.bool b)
  | .null => .ok .missing
  | _ => .bad [⟨[.key "str"], .notText⟩, ⟨[.key "int"], .notInteger⟩, ⟨[.key "bool"], .notBoolean⟩]

def toDatum : Argument → Datum
  | text s => .text s
  | int n => .int n
  | bool b => .bool b
  | missing => .null

/-- The integer that a value counts as when values are compared: a boolean counts as one or zero. -/
def number? : Argument → Option Int
  | int n => some n
  | bool b => some (if b then 1 else 0)
  | _ => none

/-- Equality of values, under which a boolean equals the integer it counts as. -/
def same (a b : Argument) : Bool :=
  match a.number?, b.number? with
  | some m, some n => m = n
  | _, _ => a = b

end Argument

/-! ## Annotations -/

/-- An annotation: the name of its type and its named arguments in the order given. -/
structure Attribute where
  typeName : String
  arguments : List (String × Argument)
  deriving DecidableEq, Repr

namespace Attribute

def modelName : String := "Annotation"

def read : Reader Attribute :=
  Reader.recordOf modelName fun fields =>
    mk <$> Reader.required fields "type_name" Reader.text
      <*> Reader.optional fields "named_arguments" [] (Reader.dictionary Argument.read)

def toDatum (a : Attribute) : Datum :=
  .record [("type_name", .text a.typeName),
    ("named_arguments", .record (a.arguments.map fun p => (p.1, p.2.toDatum)))]

def argument? (a : Attribute) (name : String) : Option Argument := a.arguments.lookup name

/-- Whether every argument of one list has a counterpart of the same name and value in the other. -/
def covered (xs ys : List (String × Argument)) : Bool :=
  xs.all fun x => (ys.lookup x.1).any x.2.same

/-- Equality of annotations; the order of the arguments does not matter. -/
def same (a b : Attribute) : Bool :=
  a.typeName = b.typeName && covered a.arguments b.arguments && covered b.arguments a.arguments

end Attribute

/-! ## Candidates -/

inductive TypeKind where
  | «class»
  | interface
  | struct
  | enum
  | delegate
  deriving DecidableEq, Repr

namespace TypeKind

def all : List TypeKind := [.class, .interface, .struct, .enum, .delegate]

def name : TypeKind → String
  | .class => "class"
  | interface => "interface"
  | struct => "struct"
  | enum => "enum"
  | delegate => "delegate"

def read : Reader TypeKind := Reader.choice (all.map fun k => (k.name, k))

end TypeKind

def insertName (s : String) : List String → List String
  | [] => [s]
  | t :: ts => if s = t then t :: ts else if s < t then s :: t :: ts else t :: insertName s ts

def nameSet (names : List String) : List String := names.foldr insertName []

/-- A type declaration. The capabilities, inherited ones included, are a set and therefore stand in
ascending order without repetitions; the annotations are in the order of declaration. -/
structure Candidate where
  name : String
  capabilities : List String
  attributes : List Attribute
  kind : TypeKind
  isGenerated : Bool
  location : Option String
  deriving DecidableEq, Repr

namespace Candidate

def modelName : String := "CandidateClass"

def read : Reader Candidate :=
  Reader.recordOf modelName fun fields =>
    mk <$> Reader.required fields "name" Reader.text
      <*> Reader.optional fields "implemented_capabilities" []
        (fun d => (Reader.set Reader.text d).map nameSet)
      <*> Reader.optional fields "annotations" [] (Reader.tuple Attribute.read)
      <*> Reader.optional fields "kind" .class TypeKind.read
      <*> Reader.optional fields "is_generated" false Reader.boolean
      <*> Reader.optional fields "location" none Reader.optionalText

def toDatum (c : Candidate) : Datum :=
  .record [("name", .text c.name),
    ("implemented_capabilities", .list (c.capabilities.map .text)),
    ("annotations", .list (c.attributes.map Attribute.toDatum)),
    ("kind", .text c.kind.name), ("is_generated", .bool c.isGenerated),
    ("location", Datum.ofText? c.location)]

def sameList (xs ys : List Attribute) : Bool :=
  xs.length = ys.length && (xs.zip ys).all fun p => p.1.same p.2

def same (a b : Candidate) : Bool :=
  a.name = b.name && a.capabilities = b.capabilities && sameList a.attributes b.attributes &&
    a.kind = b.kind && a.isGenerated = b.isGenerated && a.location = b.location

end Candidate

/-! ## Classifications -/

inductive Classification.Status where
  | outOfScope
  | missingAttribute
  | hasAttribute
  deriving DecidableEq, Repr

namespace Classification.Status

def all : List Status := [.outOfScope, .missingAttribute, .hasAttribute]

def name : Status → String
  | outOfScope => "out_of_scope"
  | missingAttribute => "missing_annotation"
  | hasAttribute => "has_annotation"

def read : Reader Status := Reader.choice (all.map fun s => (s.name, s))

end Classification.Status

/-- Whether a candidate is checked at all, whether it carries the annotation, and which one. -/
structure Classification where
  status : Classification.Status
  attr : Option Attribute
  deriving DecidableEq, Repr

namespace Classification

def modelName : String := "Classification"

def readAttribute? : Reader (Option Attribute)
  | .null => .ok none
  | d => (Attribute.read d).map some

def read : Reader Classification :=
  Reader.recordOf modelName fun fields =>
    mk <$> Reader.required fields "status" Status.read
      <*> Reader.optional fields "annotation" none readAttribute?

def toDatum (c : Classification) : Datum :=
  .record [("status", .text c.status.name),
    ("annotation", (c.attr.map Attribute.toDatum).getD .null)]

def same (a b : Classification) : Bool :=
  a.status = b.status &&
    match a.attr, b.attr with
    | some x, some y => x.same y
    | none, none => true
    | _, _ => false

end Classification
end SerialAudit

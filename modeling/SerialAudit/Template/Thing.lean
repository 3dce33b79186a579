import SerialAudit.Template.Fault
import SerialAudit.Template.Kind
import SerialAudit.Template.Member.Basic
import SerialAudit.Template.Member.Function
import SerialAudit.Template.Member.Number
import SerialAudit.Template.Member.Text
import SerialAudit.Template.Path

/-! What a hole stands for on the way along its path: a text at first, then whatever members and
brackets lead to.

* `Thing` : the things that can be reached;
* `Kind.find?` : the member of a name in a kind or in one that it extends;
* `Thing.member?` : the member of a thing;
* `Thing.follow` : the thing one step further. -/
namespace SerialAudit.Template
set_option autoImplicit false

/-- What a tuple holds, or a kind is given in brackets. -/
inductive Item where
  | text (s : String)
  | number (n : Nat)
  | kind (k : Kind)
  deriving DecidableEq, Repr

/-- A thing. A `member` stands in the table of its owner and is `bound` where it is taken from a thing;
a `view` is the table of the members of a kind, and `generic` a kind with an argument. -/
inductive Thing where
  | item (i : Item)
  | truth (b : Bool)
  | nothing
  | tuple (items : List Item)
  | member (owner : Kind) (m : Member)
  | bound (self : Thing) (owner : Kind) (m : Member)
  | view (k : Kind)
  | generic (origin : Kind) (argument : Item)
  deriving DecidableEq, Repr

/-! ## Kinds and their members -/

namespace Kind

def members : Kind → List Member
  | text => textMembers
  | anything => anythingMembers
  | kind => kindMembers
  | integer => integerMembers
  | truth => truthMembers
  | nothing => nothingMembers
  | tuple => tupleMembers
  | function => functionMembers
  | boundOperation => boundOperationMembers
  | operation => operationMembers
  | method => methodMembers
  | kindMethod => kindMethodMembers
  | freeFunction => freeFunctionMembers
  | computed => computedMembers
  | stored => storedMembers
  | view => viewMembers
  | generic => genericMembers

/-- The member of a name that a kind has itself. -/
def own? (k : Kind) (name : String) : Option Member := k.members.find? (·.name = name)

/-- The member of a name in a kind or else in the ones that it extends, with the kind it is from. -/
def find? (k : Kind) (name : String) : Option (Kind × Member) :=
  k.line.findSome? fun owner => (owner.own? name).map (owner, ·)

end Kind

namespace Thing

abbrev text (s : String) : Thing := item (.text s)

abbrev number (n : Nat) : Thing := item (.number n)

abbrev kind (k : Kind) : Thing := item (.kind k)

def ofText? : Option String → Thing
  | some s => text s
  | none => nothing

def memberKind : Access → Kind
  | .operation => .operation
  | .method => .method
  | .kindMethod => .kindMethod
  | .free => .freeFunction
  | .maker => .function
  | .computed => .computed
  | .stored => .stored
  | .constant => .text

def kindOf : Thing → Kind
  | item (.text _) => .text
  | item (.number _) => .integer
  | item (.kind _) => .kind
  | truth _ => .truth
  | nothing => .nothing
  | tuple _ => .tuple
  | member _ m => memberKind m.access
  | bound _ _ m => if m.access = .operation then .boundOperation else .function
  | view _ => .view
  | generic _ _ => .generic

/-- A member as it stands in the table of its kind: makers and constants stand there as they are. -/
def entry (owner : Kind) (m : Member) : Thing :=
  match m.access with
  | .maker => bound (kind owner) owner m
  | .constant => ofText? m.description
  | _ => member owner m

/-! ## Values of members -/

/-- The kind that a bound member is named after: the thing itself if it is a kind, else its kind. -/
def namingKind : Thing → Kind
  | item (.kind k) => k
  | t => t.kindOf

/-- What a kind says of itself. Only the kind of kinds has a description that is not in its table; one
that is computed for its things is the member itself. -/
def ofKind? (k : Kind) : String → Option Thing
  | "__name__" | "__qualname__" => some (text k.name)
  | "__module__" => some (text k.home)
  | "__base__" => some ((k.base?.map kind).getD nothing)
  | "__bases__" => some (tuple (k.base?.map Item.kind).toList)
  | "__mro__" => some (tuple (k.line.map Item.kind))
  | "__basicsize__" => some (number k.traits.size)
  | "__itemsize__" => some (number k.traits.partSize)
  | "__dictoffset__" => some (number k.traits.fieldsAt)
  | "__weakrefoffset__" => some (number k.traits.referencesAt)
  | "__flags__" => some (number k.traits.flags)
  | "__dict__" => some (view k)
  | "__text_signature__" => some (ofText? k.signature?)
  | "__doc__" =>
    if k = .kind then
      some (text "type(object) -> the object's type\ntype(name, bases, dict, **kwds) -> a new type")
    else (k.own? "__doc__").map (entry k)
  | _ => none

def ofNumber? (n : Nat) : String → Option Thing
  | "real" | "numerator" => some (number n)
  | "imag" => some (number 0)
  | "denominator" => some (number 1)
  | _ => none

def ofMember? (owner : Kind) (m : Member) : String → Option Thing
  | "__objclass__" => some (kind owner)
  | "__name__" => some (text m.name)
  | "__qualname__" => some (text (owner.name ++ "." ++ m.name))
  | "__doc__" => some (ofText? m.description)
  | "__text_signature__" => some (ofText? m.signature)
  | "__func__" | "__wrapped__" => some (bound (kind owner) owner m)
  | "__isabstractmethod__" => some (truth false)
  | _ => none

/-- What a bound member says of itself. A free function is bound to nothing. -/
def ofBound? (self : Thing) (owner : Kind) (m : Member) : String → Option Thing
  | "__self__" => some (if m.access = .free then nothing else self)
  | "__module__" => some nothing
  | "__qualname__" =>
    let k := if m.access = .operation then owner else self.namingKind
    some (text (k.name ++ "." ++ m.name))
  | name => ofMember? owner m name

def ofGeneric? (origin : Kind) (argument : Item) : String → Option Thing
  | "__origin__" => some (kind origin)
  | "__args__" => some (tuple [argument])
  | "__parameters__" => some (tuple [])
  | "__unpacked__" => some (truth false)
  | "__typing_unpacked_tuple_args__" => some nothing
  | _ => none

def value? (t : Thing) (name : String) : Option Thing :=
  if name = "__class__" then some (kind t.kindOf)
  else
    match t with
    | item (.kind k) => ofKind? k name
    | item (.number n) => ofNumber? n name
    | truth b => ofNumber? b.toNat name
    | member owner m => ofMember? owner m name
    | bound self owner m => ofBound? self owner m name
    | generic origin argument => ofGeneric? origin argument name
    | _ => none

/-! ## Members of things -/

def take? (t : Thing) (owner : Kind) (m : Member) : Option Thing :=
  match m.access with
  | .operation | .method => some (bound t owner m)
  | .kindMethod => some (bound (kind t.kindOf) owner m)
  | .free => some (bound (kind owner) owner m)
  | .computed | .stored => t.value? m.name
  | .maker | .constant => some (entry owner m)

def takeFromKind (k owner : Kind) (m : Member) : Thing :=
  match m.access with
  | .kindMethod => bound (kind k) owner m
  | .free => bound (kind owner) owner m
  | _ => entry owner m

def plainMember? (t : Thing) (name : String) : Option Thing :=
  (t.kindOf.find? name).bind fun r => t.take? r.1 r.2

/-- The member of a kind. A value that kinds have counts before the members of the kind for its things,
and these count before what else every kind has. -/
def kindMember? (k : Kind) (name : String) : Option Thing :=
  let ofKinds := Kind.kind.find? name
  match ofKinds.filter (·.2.isValue) with
  | some (_, m) => (kind k).value? m.name
  | none =>
    match k.find? name with
    | some (owner, m) => some (takeFromKind k owner m)
    | none => ofKinds.bind fun r => (kind k).take? r.1 r.2

/-- The members that a kind with an argument has itself; for all others it stands for the kind. -/
def genericNames : List String :=
  ["__class__", "__bases__", "__origin__", "__args__", "__unpacked__", "__parameters__",
   "__typing_unpacked_tuple_args__", "__mro_entries__", "__reduce_ex__", "__reduce__",
   "__copy__", "__deepcopy__"]

def member? (t : Thing) (name : String) : Option Thing :=
  match t with
  | item (.kind k) => kindMember? k name
  | generic origin _ =>
    if genericNames.contains name then t.plainMember? name else kindMember? origin name
  | _ => t.plainMember? name

/-! ## Steps -/

/-- What stands at a position: a character of a text or an item of a tuple. A kind takes the number as
its argument. -/
def atIndex (n : Nat) : Thing → Except Fault Thing
  | item (.text s) =>
    match s.toList[n]? with
    | some c => .ok (text (String.ofList [c]))
    | none => .error (.beyondEnd n)
  | tuple items =>
    match items[n]? with
    | some i => .ok (item i)
    | none => .error (.beyondEnd n)
  | view _ => .error (.noSuchEntry (Text.decimal n))
  | item (.kind k) =>
    if k.takesArgument then .ok (generic k (.number n)) else .error .notSubscriptable
  | _ => .error .notSubscriptable

/-- What stands under a key in a table of members. A kind takes the text as its argument. -/
def atKey (key : String) : Thing → Except Fault Thing
  | view k =>
    match k.own? key with
    | some m => .ok (entry k m)
    | none => .error (.noSuchEntry key)
  | item (.kind k) =>
    if k.takesArgument then .ok (generic k (.text key)) else .error .notSubscriptable
  | _ => .error .notSubscriptable

def follow (t : Thing) : Step → Except Fault Thing
  | .member name =>
    match t.member? name with
    | some t' => .ok t'
    | none => .error (.noSuchMember name)
  | .index n => t.atIndex n
  | .key key => t.atKey key
  | .malformed => .error .malformed

def followAll (t : Thing) : List Step → Except Fault Thing
  | [] => .ok t
  | s :: steps =>
    match t.follow s with
    | .ok t' => t'.followAll steps
    | .error e => .error e

example : ((text "a").followAll [.member "__class__", .member "__mro__", .index 1]).toOption =
      some (kind .anything) ∧
    ((kind .kind).followAll [.key "a b", .member "__origin__"]).toOption = some (kind .kind) ∧
    ((text "a").followAll [.member "upper", .member "__name__", .index 4]).toOption =
      some (text "r") := by decide +kernel

end Thing
end SerialAudit.Template

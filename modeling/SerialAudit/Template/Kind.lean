/-! The kinds of things that a hole can lead to. A hole begins at a text, and from there reaches only
the kinds below, as many as there are; every kind is itself a thing, of the kind `kind`.

* `Kind` : the kinds;
* `Traits` : what a kind says about itself, in `Kind.traits`;
* `Kind.line` : a kind and the kinds that it extends, itself first. -/
namespace SerialAudit.Template
set_option autoImplicit false

/-- The kinds of things. A member of a kind is a thing too: `operation` to `stored` are the kinds of
members, `function` and `boundOperation` those of members taken from a thing. -/
inductive Kind where
  | text
  | anything
  | kind
  | integer
  | truth
  | nothing
  | tuple
  | function
  | boundOperation
  | operation
  | method
  | kindMethod
  | freeFunction
  | computed
  | stored
  | view
  | generic
  deriving DecidableEq, Repr

/-- What a kind says about itself: its name, the sizes of a thing and of each further part of it, where
its fields and the references to it are kept, and its flags. -/
structure Traits where
  name : String
  size : Nat
  partSize : Nat
  fieldsAt : Nat
  referencesAt : Nat
  flags : Nat
  deriving DecidableEq, Repr

namespace Kind

def traits : Kind → Traits
  | text => ⟨"str", 80, 0, 0, 0, 0x10481500⟩
  | anything => ⟨"object", 16, 0, 0, 0, 0x81500⟩
  | kind => ⟨"type", 904, 40, 264, 368, 0x80085D00⟩
  | integer => ⟨"int", 24, 4, 0, 0, 0x1481500⟩
  | truth => ⟨"bool", 32, 4, 0, 0, 0x1481100⟩
  | nothing => ⟨"NoneType", 16, 0, 0, 0, 0x81100⟩
  | tuple => ⟨"tuple", 24, 8, 0, 0, 0x4485520⟩
  | function => ⟨"builtin_function_or_method", 56, 0, 0, 40, 0x85980⟩
  | boundOperation => ⟨"method-wrapper", 32, 0, 0, 0, 0x85180⟩
  | operation => ⟨"wrapper_descriptor", 56, 0, 0, 0, 0xA5180⟩
  | method => ⟨"method_descriptor", 56, 0, 0, 0, 0xA5980⟩
  | kindMethod => ⟨"classmethod_descriptor", 56, 0, 0, 0, 0x85180⟩
  | freeFunction => ⟨"staticmethod", 32, 0, 24, 0, 0x85500⟩
  | computed => ⟨"getset_descriptor", 48, 0, 0, 0, 0x85180⟩
  | stored => ⟨"member_descriptor", 48, 0, 0, 0, 0x85180⟩
  | view => ⟨"mappingproxy", 24, 0, 0, 0, 0x85140⟩
  | generic => ⟨"GenericAlias", 64, 0, 0, 40, 0x85D00⟩

def name (k : Kind) : String := k.traits.name

def home : Kind → String
  | generic => "types"
  | _ => "builtins"

/-- The name under which a kind is shown. -/
def fullName : Kind → String
  | generic => "types.GenericAlias"
  | k => k.name

/-- The kind that a kind extends; every other kind extends `anything`, directly or not. -/
def base? : Kind → Option Kind
  | anything => none
  | truth => some integer
  | _ => some anything

def line : Kind → List Kind
  | anything => [anything]
  | truth => [truth, integer, anything]
  | k => [k, anything]

/-- How a thing of a kind is made, where the kind says so. -/
def signature? : Kind → Option String
  | anything => some "()"
  | tuple => some "(iterable=(), /)"
  | _ => none

def takesArgument : Kind → Bool
  | kind | tuple | view => true
  | _ => false

end Kind
end SerialAudit.Template

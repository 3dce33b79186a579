/-! Members of kinds: what a kind knows to do with its things, and what it knows about them.

* `Access` : how a member is taken from a thing;
* `Member` : a member with its name, its signature and its description;
* `operations` : the operations with signature and description, the same in every kind. -/
namespace SerialAudit.Template
set_option autoImplicit false

/-- How a member is taken from a thing: an operation or a method is bound to the thing, a method of
the kind and the maker of things to a kind, and a free function to nothing. A computed or a stored
member has a value for each thing, a constant the same for all. -/
inductive Access where
  | operation
  | method
  | kindMethod
  | free
  | maker
  | computed
  | stored
  | constant
  deriving DecidableEq, Repr

structure Member where
  name : String
  access : Access
  signature : Option String
  description : Option String
  deriving DecidableEq, Repr

def operations : List (String × String × String) :=
  [("__repr__", "($self, /)", "Return repr(self)."),
   ("__hash__", "($self, /)", "Return hash(self)."),
   ("__str__", "($self, /)", "Return str(self)."),
   ("__getattribute__", "($self, name, /)", "Return getattr(self, name)."),
   ("__lt__", "($self, value, /)", "Return self<value."),
   ("__le__", "($self, value, /)", "Return self<=value."),
   ("__eq__", "($self, value, /)", "Return self==value."),
   ("__ne__", "($self, value, /)", "Return self!=value."),
   ("__gt__", "($self, value, /)", "Return self>value."),
   ("__ge__", "($self, value, /)", "Return self>=value."),
   ("__iter__", "($self, /)", "Implement iter(self)."),
   ("__mod__", "($self, value, /)", "Return self%value."),
   ("__rmod__", "($self, value, /)", "Return value%self."),
   ("__len__", "($self, /)", "Return len(self)."),
   ("__getitem__", "($self, key, /)", "Return self[key]."),
   ("__add__", "($self, value, /)", "Return self+value."),
   ("__mul__", "($self, value, /)", "Return self*value."),
   ("__rmul__", "($self, value, /)", "Return value*self."),
   ("__contains__", "($self, key, /)", "Return key in self."),
   ("__setattr__", "($self, name, value, /)", "Implement setattr(self, name, value)."),
   ("__delattr__", "($self, name, /)", "Implement delattr(self, name)."),
   ("__init__", "($self, /, *args, **kwargs)",
    "Initialize self.  See help(type(self)) for accurate signature."),
   ("__call__", "($self, /, *args, **kwargs)", "Call self as a function."),
   ("__or__", "($self, value, /)", "Return self|value."),
   ("__ror__", "($self, value, /)", "Return value|self."),
   ("__radd__", "($self, value, /)", "Return value+self."),
   ("__sub__", "($self, value, /)", "Return self-value."),
   ("__rsub__", "($self, value, /)", "Return value-self."),
   ("__divmod__", "($self, value, /)", "Return divmod(self, value)."),
   ("__rdivmod__", "($self, value, /)", "Return divmod(value, self)."),
   ("__pow__", "($self, value, mod=None, /)", "Return pow(self, value, mod)."),
   ("__rpow__", "($self, value, mod=None, /)", "Return pow(value, self, mod)."),
   ("__neg__", "($self, /)", "-self"),
   ("__pos__", "($self, /)", "+self"),
   ("__abs__", "($self, /)", "abs(self)"),
   ("__bool__", "($self, /)", "True if self else False"),
   ("__invert__", "($self, /)", "~self"),
   ("__lshift__", "($self, value, /)", "Return self<<value."),
   ("__rlshift__", "($self, value, /)", "Return value<<self."),
   ("__rshift__", "($self, value, /)", "Return self>>value."),
   ("__rrshift__", "($self, value, /)", "Return value>>self."),
   ("__and__", "($self, value, /)", "Return self&value."),
   ("__rand__", "($self, value, /)", "Return value&self."),
   ("__xor__", "($self, value, /)", "Return self^value."),
   ("__rxor__", "($self, value, /)", "Return value^self."),
   ("__int__", "($self, /)", "int(self)"),
   ("__float__", "($self, /)", "float(self)"),
   ("__floordiv__", "($self, value, /)", "Return self//value."),
   ("__rfloordiv__", "($self, value, /)", "Return value//self."),
   ("__truediv__", "($self, value, /)", "Return self/value."),
   ("__rtruediv__", "($self, value, /)", "Return value/self."),
   ("__index__", "($self, /)",
    "Return self converted to an integer, if self is suitable for use as an index into a list."),
   ("__get__", "($self, instance, owner=None, /)",
    "Return an attribute of instance, which is of type owner."),
   ("__set__", "($self, instance, value, /)", "Set an attribute of instance to value."),
   ("__delete__", "($self, instance, /)", "Delete an attribute of instance."),
   ("__ior__", "($self, value, /)", "Return self|=value.")]

namespace Member

def op (name : String) : Member :=
  let entry := operations.lookup name
  ⟨name, .operation, entry.map (·.1), entry.map (·.2)⟩

def method (name : String) (signature description : Option String) : Member :=
  ⟨name, .method, signature, description⟩

def kindMethod (name : String) (signature description : Option String) : Member :=
  ⟨name, .kindMethod, signature, description⟩

def free (name : String) (signature description : Option String) : Member :=
  ⟨name, .free, signature, description⟩

def maker : Member :=
  ⟨"__new__", .maker, some "($type, *args, **kwargs)",
    some "Create and return a new object.  See help(type) for accurate signature."⟩

def computed (name : String) (description : Option String) : Member :=
  ⟨name, .computed, none, description⟩

def stored (name : String) : Member := ⟨name, .stored, none, none⟩

def constant (name : String) (value : Option String) : Member := ⟨name, .constant, none, value⟩

/-- Whether a member has a value for each thing, which then counts before everything else. -/
def isValue (m : Member) : Bool := m.access = .computed || m.access = .stored

end Member
end SerialAudit.Template

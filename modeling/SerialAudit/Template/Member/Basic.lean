import SerialAudit.Template.Member

/-! The members that every thing has, and those of kinds and of collections.

* `anythingMembers` : the members of all things;
* `kindMembers`, `genericMembers` : those of kinds, and of kinds with an argument;
* `nothingMembers`, `tupleMembers`, `viewMembers` : those of nothing, of tuples and of tables. -/
namespace SerialAudit.Template
set_option autoImplicit false
open Member

def anythingMembers : List Member :=
  [maker, op "__repr__", op "__hash__", op "__str__", op "__getattribute__", op "__setattr__",
   op "__delattr__", op "__lt__", op "__le__", op "__eq__", op "__ne__", op "__gt__",
   op "__ge__", op "__init__",
   method "__reduce_ex__" (some "($self, protocol, /)") (some "Helper for pickle."),
   method "__reduce__" (some "($self, /)") (some "Helper for pickle."),
   method "__getstate__" (some "($self, /)") (some "Helper for pickle."),
   kindMethod "__subclasshook__" none
      (some ("Abstract classes can override this to customize issubclass().\n\nThis is invoked " ++
             "early on by abc.ABCMeta.__subclasscheck__().\nIt should return True, False or " ++
             "NotImplemented.  If it returns\nNotImplemented, the normal algorithm is used.  " ++
             "Otherwise, it\noverrides the normal algorithm (and the outcome is cached).\n")),
   kindMethod "__init_subclass__" none
      (some ("This method is called when a class is subclassed.\n\nThe default implementation " ++
             "does nothing. It may be\noverridden to extend subclasses.\n")),
   method "__format__" (some "($self, format_spec, /)") (some "Default object formatter."),
   method "__sizeof__" (some "($self, /)") (some "Size of object in memory, in bytes."),
   method "__dir__" (some "($self, /)") (some "Default dir() implementation."),
   computed "__class__" (some "the object's class"),
   constant "__doc__"
      (some ("The base class of the class hierarchy.\n\nWhen called, it accepts no arguments " ++
             "and returns a new featureless\ninstance that has no instance attributes and " ++
             "cannot be given any.\n"))]

def kindMembers : List Member :=
  [maker, op "__repr__", op "__call__", op "__getattribute__", op "__setattr__",
   op "__delattr__", op "__init__", op "__or__", op "__ror__",
   method "mro" (some "($self, /)") (some "Return a type's method resolution order."),
   method "__subclasses__" (some "($self, /)") (some "Return a list of immediate subclasses."),
   kindMethod "__prepare__" none
      (some "__prepare__() -> dict\nused to create the namespace for the class statement"),
   method "__instancecheck__" (some "($self, instance, /)")
      (some "Check if an object is an instance."),
   method "__subclasscheck__" (some "($self, subclass, /)")
      (some "Check if a class is a subclass."),
   method "__dir__" (some "($self, /)") (some "Specialized __dir__ implementation for types."),
   method "__sizeof__" (some "($self, /)") (some "Return memory consumption of the type object."),
   stored "__basicsize__", stored "__itemsize__", stored "__flags__", stored "__weakrefoffset__",
   stored "__base__", stored "__dictoffset__", stored "__mro__", computed "__name__" none,
   computed "__qualname__" none, computed "__bases__" none, computed "__module__" none,
   computed "__abstractmethods__" none, computed "__dict__" none, computed "__doc__" none,
   computed "__text_signature__" none, computed "__annotations__" none]

def genericMembers : List Member :=
  [maker, op "__repr__", op "__hash__", op "__call__", op "__getattribute__", op "__lt__",
   op "__le__", op "__eq__", op "__ne__", op "__gt__", op "__ge__", op "__iter__", op "__or__",
   op "__ror__", op "__getitem__", method "__mro_entries__" none none,
   method "__instancecheck__" none none, method "__subclasscheck__" none none,
   method "__reduce__" none none, method "__dir__" none none, stored "__origin__",
   stored "__args__", stored "__unpacked__",
   computed "__parameters__" (some "Type variables in the GenericAlias."),
   computed "__typing_unpacked_tuple_args__" none,
   constant "__doc__"
      (some ("Represent a PEP 585 generic type\n\nE.g. for t = list[int], t.__origin__ is list " ++
             "and t.__args__ is (int,)."))]

def nothingMembers : List Member :=
  [maker, op "__repr__", op "__bool__", constant "__doc__" none]

def tupleMembers : List Member :=
  [maker, op "__repr__", op "__hash__", op "__getattribute__", op "__lt__", op "__le__",
   op "__eq__", op "__ne__", op "__gt__", op "__ge__", op "__iter__", op "__len__",
   op "__getitem__", op "__add__", op "__mul__", op "__rmul__", op "__contains__",
   method "__getnewargs__" (some "($self, /)") none,
   method "index" (some "($self, value, start=0, stop=sys.maxsize, /)")
      (some "Return first index of value.\n\nRaises ValueError if the value is not present."),
   method "count" (some "($self, value, /)") (some "Return number of occurrences of value."),
   kindMethod "__class_getitem__" none (some "See PEP 585"),
   constant "__doc__"
      (some ("Built-in immutable sequence.\n\nIf no argument is given, the constructor returns " ++
             "an empty tuple.\nIf iterable is specified the tuple is initialized from " ++
             "iterable's items.\n\nIf the argument is a tuple, the return value is the same " ++
             "object."))]

def viewMembers : List Member :=
  [maker, op "__repr__", op "__str__", op "__getattribute__", op "__lt__", op "__le__",
   op "__eq__", op "__ne__", op "__gt__", op "__ge__", op "__iter__", op "__or__", op "__ror__",
   op "__ior__", op "__len__", op "__getitem__", op "__contains__",
   method "get" none (some "D.get(k[,d]) -> D[k] if k in D, else d.  d defaults to None."),
   method "keys" none (some "D.keys() -> a set-like object providing a view on D's keys"),
   method "values" none (some "D.values() -> an object providing a view on D's values"),
   method "items" none (some "D.items() -> a set-like object providing a view on D's items"),
   method "copy" none (some "D.copy() -> a shallow copy of D"),
   kindMethod "__class_getitem__" none (some "See PEP 585"),
   method "__reversed__" none (some "D.__reversed__() -> reverse iterator"),
   constant "__doc__" none, constant "__hash__" none]

end SerialAudit.Template

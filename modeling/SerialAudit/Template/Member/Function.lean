import SerialAudit.Template.Member

/-! The members of members and of functions.

* `functionMembers`, `boundOperationMembers` : those of functions that are bound to a thing;
* `operationMembers` to `storedMembers` : those of members as they stand in their kind. -/
namespace SerialAudit.Template
set_option autoImplicit false
open Member

def functionMembers : List Member :=
  [op "__repr__", op "__hash__", op "__call__", op "__getattribute__", op "__lt__", op "__le__",
   op "__eq__", op "__ne__", op "__gt__", op "__ge__", method "__reduce__" none none,
   stored "__module__", computed "__doc__" none, computed "__name__" none,
   computed "__qualname__" none, computed "__self__" none, computed "__text_signature__" none]

def boundOperationMembers : List Member :=
  [op "__repr__", op "__hash__", op "__call__", op "__getattribute__", op "__lt__", op "__le__",
   op "__eq__", op "__ne__", op "__gt__", op "__ge__", method "__reduce__" none none,
   stored "__self__", computed "__objclass__" none, computed "__name__" none,
   computed "__qualname__" none, computed "__doc__" none, computed "__text_signature__" none]

def operationMembers : List Member :=
  [op "__repr__", op "__call__", op "__getattribute__", op "__get__",
   method "__reduce__" none none, stored "__objclass__", stored "__name__",
   computed "__doc__" none, computed "__qualname__" none, computed "__text_signature__" none]

def methodMembers : List Member :=
  [op "__repr__", op "__call__", op "__getattribute__", op "__get__",
   method "__reduce__" none none, stored "__objclass__", stored "__name__",
   computed "__doc__" none, computed "__qualname__" none, computed "__text_signature__" none]

def kindMethodMembers : List Member :=
  [op "__repr__", op "__call__", op "__getattribute__", op "__get__", stored "__objclass__",
   stored "__name__", computed "__doc__" none, computed "__qualname__" none,
   computed "__text_signature__" none]

def freeFunctionMembers : List Member :=
  [maker, op "__repr__", op "__call__", op "__get__", op "__init__", stored "__func__",
   stored "__wrapped__", computed "__isabstractmethod__" none, computed "__dict__" none,
   constant "__doc__"
      (some ("staticmethod(function) -> method\n\nConvert a function to be a static method.\n\n" ++
             "A static method does not receive an implicit first argument.\nTo declare a static " ++
             "method, use this idiom:\n\n     class C:\n         @staticmethod\n         def " ++
             "f(arg1, arg2, argN):\n             ...\n\nIt can be called either on the class " ++
             "(e.g. C.f()) or on an instance\n(e.g. C().f()). Both the class and the instance " ++
             "are ignored, and\nneither is passed implicitly as the first argument to the " ++
             "method.\n\nStatic methods in Python are similar to those found in Java or C++.\n" ++
             "For a more advanced concept, see the classmethod builtin."))]

def computedMembers : List Member :=
  [op "__repr__", op "__getattribute__", op "__get__", op "__set__", op "__delete__",
   stored "__objclass__", stored "__name__", computed "__doc__" none,
   computed "__qualname__" none]

def storedMembers : List Member :=
  [op "__repr__", op "__getattribute__", op "__get__", op "__set__", op "__delete__",
   method "__reduce__" none none, stored "__objclass__", stored "__name__",
   computed "__doc__" none, computed "__qualname__" none]

end SerialAudit.Template

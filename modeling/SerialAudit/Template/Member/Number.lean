import SerialAudit.Template.Member

/-! The members of numbers and truth values.

* `integerMembers` : the members of whole numbers;
* `truthMembers` : what truth values do in another way. -/
namespace SerialAudit.Template
set_option autoImplicit false
open Member

def integerMembers : List Member :=
  [maker, op "__repr__", op "__hash__", op "__getattribute__", op "__lt__", op "__le__",
   op "__eq__", op "__ne__", op "__gt__", op "__ge__", op "__add__", op "__radd__", op "__sub__",
   op "__rsub__", op "__mul__", op "__rmul__", op "__mod__", op "__rmod__", op "__divmod__",
   op "__rdivmod__", op "__pow__", op "__rpow__", op "__neg__", op "__pos__", op "__abs__",
   op "__bool__", op "__invert__", op "__lshift__", op "__rlshift__", op "__rshift__",
   op "__rrshift__", op "__and__", op "__rand__", op "__xor__", op "__rxor__", op "__or__",
   op "__ror__", op "__int__", op "__float__", op "__floordiv__", op "__rfloordiv__",
   op "__truediv__", op "__rtruediv__", op "__index__",
   method "conjugate" none (some "Returns self, the complex conjugate of any int."),
   method "bit_length" (some "($self, /)")
      (some ("Number of bits necessary to represent self in binary.\n\n>>> bin(37)\n'0b100101'\n" ++
             ">>> (37).bit_length()\n6")),
   method "bit_count" (some "($self, /)")
      (some ("Number of ones in the binary representation of the absolute value of self.\n\n" ++
             "Also known as the population count.\n\n>>> bin(13)\n'0b1101'\n>>> " ++
             "(13).bit_count()\n3")),
   method "to_bytes" (some "($self, /, length=1, byteorder='big', *, signed=False)")
      (some ("Return an array of bytes representing an integer.\n\n  length\n    Length of " ++
             "bytes object to use.  An OverflowError is raised if the\n    integer is not " ++
             "representable with the given number of bytes.  Default\n    is length 1.\n  " ++
             "byteorder\n    The byte order used to represent the integer.  If byteorder is " ++
             "'big',\n    the most significant byte is at the beginning of the byte array.  If\n" ++
             "    byteorder is 'little', the most significant byte is at the end of the\n    " ++
             "byte array.  To request the native byte order of the host system, use\n    " ++
             "\x60sys.byteorder' as the byte order value.  Default is to use 'big'.\n  signed\n " ++
             "   Determines whether two's complement is used to represent the integer.\n    If " ++
             "signed is False and a negative integer is given, an OverflowError\n    is raised.")),
   kindMethod "from_bytes" (some "($type, /, bytes, byteorder='big', *, signed=False)")
      (some ("Return the integer represented by the given array of bytes.\n\n  bytes\n    Holds " ++
             "the array of bytes to convert.  The argument must either\n    support the buffer " ++
             "protocol or be an iterable object producing bytes.\n    Bytes and bytearray are " ++
             "examples of built-in objects that support the\n    buffer protocol.\n  byteorder\n" ++
             "    The byte order used to represent the integer.  If byteorder is 'big',\n    " ++
             "the most significant byte is at the beginning of the byte array.  If\n    " ++
             "byteorder is 'little', the most significant byte is at the end of the\n    byte " ++
             "array.  To request the native byte order of the host system, use\n    " ++
             "\x60sys.byteorder' as the byte order value.  Default is to use 'big'.\n  signed\n " ++
             "   Indicates whether two's complement is used to represent the integer.")),
   method "as_integer_ratio" (some "($self, /)")
      (some ("Return integer ratio.\n\nReturn a pair of integers, whose ratio is exactly equal " ++
             "to the original int\nand with a positive denominator.\n\n>>> " ++
             "(10).as_integer_ratio()\n(10, 1)\n>>> (-10).as_integer_ratio()\n(-10, 1)\n>>> " ++
             "(0).as_integer_ratio()\n(0, 1)")),
   method "__trunc__" none (some "Truncating an Integral returns itself."),
   method "__floor__" none (some "Flooring an Integral returns itself."),
   method "__ceil__" none (some "Ceiling of an Integral returns itself."),
   method "__round__" (some "($self, ndigits=<unrepresentable>, /)")
      (some ("Rounding an Integral returns itself.\n\nRounding with an ndigits argument also " ++
             "returns an integer.")),
   method "__getnewargs__" (some "($self, /)") none,
   method "__format__" (some "($self, format_spec, /)") none,
   method "__sizeof__" (some "($self, /)") (some "Returns size in memory, in bytes."),
   computed "real" (some "the real part of a complex number"),
   computed "imag" (some "the imaginary part of a complex number"),
   computed "numerator" (some "the numerator of a rational number in lowest terms"),
   computed "denominator" (some "the denominator of a rational number in lowest terms"),
   constant "__doc__"
      (some ("int([x]) -> integer\nint(x, base=10) -> integer\n\nConvert a number or string to " ++
             "an integer, or return 0 if no arguments\nare given.  If x is a number, return " ++
             "x.__int__().  For floating point\nnumbers, this truncates towards zero.\n\nIf x " ++
             "is not a number or if base is given, then x must be a string,\nbytes, or " ++
             "bytearray instance representing an integer literal in the\ngiven base.  The " ++
             "literal can be preceded by '+' or '-' and be surrounded\nby whitespace.  The base " ++
             "defaults to 10.  Valid bases are 0 and 2-36.\nBase 0 means to interpret the base " ++
             "from the string as an integer literal.\n>>> int('0b100', base=0)\n4"))]

/-- The members of truth values; the others are those of numbers. -/
def truthMembers : List Member :=
  [maker, op "__repr__", op "__and__", op "__rand__", op "__xor__", op "__rxor__", op "__or__",
   op "__ror__",
   constant "__doc__"
      (some ("bool(x) -> bool\n\nReturns True when the argument x is true, False otherwise.\n" ++
             "The builtins True and False are the only two instances of the class bool.\nThe " ++
             "class bool is a subclass of the class int, and cannot be subclassed."))]

end SerialAudit.Template

/-! Letter case, as far as names in ASCII letters are looked up without regard to it. The tables
hold every character outside ASCII whose other case consists of ASCII letters only.

* `lower` : the lower-case form, by which names of settings are compared;
* `upper` : the upper-case form, by which names of levels are compared. -/
namespace SerialAudit.Text
set_option autoImplicit false

/-- The lower-case form of a character; the Kelvin sign is a `k`. -/
def lowerChar (c : Char) : Char := if c = '\u212A' then 'k' else c.toLower

/-- Characters outside ASCII whose upper-case form is made of ASCII letters. -/
def upperForms : List (Char × List Char) :=
  [('ß', ['S', 'S']), ('ı', ['I']), ('ſ', ['S']), ('ﬀ', ['F', 'F']), ('ﬁ', ['F', 'I']),
   ('ﬂ', ['F', 'L']), ('ﬃ', ['F', 'F', 'I']), ('ﬄ', ['F', 'F', 'L']), ('ﬅ', ['S', 'T']),
   ('ﬆ', ['S', 'T'])]

def upperChar (c : Char) : List Char := (upperForms.lookup c).getD [c.toUpper]

def lower (s : String) : String := String.ofList (s.toList.map lowerChar)

def upper (s : String) : String := String.ofList (s.toList.flatMap upperChar)

example : lower "Max_Workers" = "max_workers" ∧ upper "ınfo" = "INFO" := by decide +kernel

end SerialAudit.Text

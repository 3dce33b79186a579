/-! Templates by their segments, and how these are written.

* `Segment` : a literal text, or one of the two names;
* `Segment.written` : a segment as it stands in a template, with the braces of literals doubled;
* `Segment.text` : what a segment stands for. -/
namespace SerialAudit.Template
set_option autoImplicit false

inductive Segment where
  | literal (text : List Char)
  | className
  | fieldName
  deriving DecidableEq, Repr

namespace Segment

/-- A character of a literal; a brace is doubled. -/
def writtenChar (c : Char) : List Char :=
  if c = '{' ∨ c = '}' then [c, c] else [c]

def written : Segment → List Char
  | literal text => text.flatMap writtenChar
  | className => '{' :: "class_name".toList ++ ['}']
  | fieldName => '{' :: "field_name".toList ++ ['}']

/-- What a segment stands for, given the names of a class and of a field. -/
def text (className fieldName : String) : Segment → List Char
  | literal text => text
  | .className => className.toList
  | .fieldName => fieldName.toList

def template (segments : List Segment) : String := String.ofList (segments.flatMap written)

example : template [.literal "a\x7b".toList, .className] = "a\x7b\x7b\x7bclass_name\x7d" := by
  decide +kernel

end Segment
end SerialAudit.Template

import SerialAudit.Text.Numeral

/-! Findings of validation. A finding has a place, from the outermost record inwards, and a cause.

* `Issue.Step` : one step of a place, a key or a position;
* `Issue.Cause` : what is wrong at a place, with its code and its wording;
* `Issue` : a cause at a place;
* `Rejection` : all findings on one input, and the text that reports them.

Of each finding the text gives the place, the wording and the code. What else such reports go on to
print is left out: the parts `input_value` and `input_type` that show the input once more, and the line
that says where to read further. A message that quotes a report is shorter by these parts. -/
namespace SerialAudit
set_option autoImplicit false

inductive Issue.Step where
  | key (name : String)
  | index (position : Nat)
  deriving DecidableEq, Repr

inductive Issue.Cause where
  | missing
  | notText
  | undecodableText
  | notBoolean
  | unclearBoolean
  | notInteger
  | unclearInteger
  | oversizedInteger
  | fractionalInteger
  | infiniteInteger
  | notList
  | notTuple
  | notSet
  | notDictionary
  | notRecord (model : String)
  | notOneOf (allowed : List String)
  | belowMinimum (least : Int)
  | notPath
  | unexpected
  | frozen
  deriving DecidableEq, Repr

/-- The names of a choice, quoted, with commas between them and `or` before the last. -/
def Issue.alternatives : List String → String
  | [] => ""
  | [a] => "'" ++ a ++ "'"
  | [a, b] => "'" ++ a ++ "' or '" ++ b ++ "'"
  | a :: rest => "'" ++ a ++ "', " ++ alternatives rest

namespace Issue.Cause

def code : Cause → String
  | missing => "missing"
  | notText => "string_type"
  | undecodableText => "string_unicode"
  | notBoolean => "bool_type"
  | unclearBoolean => "bool_parsing"
  | notInteger => "int_type"
  | unclearInteger => "int_parsing"
  | oversizedInteger => "int_parsing_size"
  | fractionalInteger => "int_from_float"
  | infiniteInteger => "finite_number"
  | notList => "list_type"
  | notTuple => "tuple_type"
  | notSet => "frozen_set_type"
  | notDictionary => "dict_type"
  | notRecord _ => "model_type"
  | notOneOf _ => "literal_error"
  | belowMinimum _ => "greater_than_equal"
  | notPath => "path_type"
  | unexpected => "extra_forbidden"
  | frozen => "frozen_instance"

def message : Cause → String
  | missing => "Field required"
  | notText => "Input should be a valid string"
  | undecodableText => "Input should be a valid string, unable to parse raw data as a unicode string"
  | notBoolean => "Input should be a valid boolean"
  | unclearBoolean => "Input should be a valid boolean, unable to interpret input"
  | notInteger => "Input should be a valid integer"
  | unclearInteger => "Input should be a valid integer, unable to parse string as an integer"
  | oversizedInteger => "Unable to parse input string as an integer, exceeded maximum size"
  | fractionalInteger => "Input should be a valid integer, got a number with a fractional part"
  | infiniteInteger => "Input should be a finite number"
  | notList => "Input should be a valid list"
  | notTuple => "Input should be a valid tuple"
  | notSet => "Input should be a valid frozenset"
  | notDictionary => "Input should be a valid dictionary"
  | notRecord model => "Input should be a valid dictionary or instance of " ++ model
  | notOneOf allowed => "Input should be " ++ alternatives allowed
  | belowMinimum least => "Input should be greater than or equal to " ++ Text.signed least
  | notPath => "Input is not a valid path for <class 'pathlib.Path'>"
  | unexpected => "Extra inputs are not permitted"
  | frozen => "Instance is frozen"

end Issue.Cause

structure Issue where
  place : List Issue.Step
  cause : Issue.Cause
  deriving DecidableEq, Repr

namespace Issue

def here (cause : Cause) : Issue := ⟨[], cause⟩

/-- The finding, seen from one record or list further out. -/
def under (step : Step) (issue : Issue) : Issue := { issue with place := step :: issue.place }

/-- A step in a report: a key with a point in it is put between back quotes. -/
def Step.label : Step → String
  | .key name => if name.toList.contains '.' then "\x60" ++ name ++ "\x60" else name
  | .index position => Text.decimal position

/-- The lines that report a finding; a finding about the whole input has no line for its place. -/
def lines (issue : Issue) : List String :=
  let what := "  " ++ issue.cause.message ++ " [type=" ++ issue.cause.code ++ "]"
  if issue.place.isEmpty then [what]
  else [String.intercalate "." (issue.place.map Step.label), what]

end Issue

structure Rejection where
  model : String
  issues : List Issue
  deriving DecidableEq, Repr

/-- The report: how many findings there are, then the lines of each. -/
def Rejection.report (r : Rejection) : String :=
  let count := r.issues.length
  let head := Text.decimal count ++ (if count = 1 then " validation error for " else
    " validation errors for ") ++ r.model
  String.intercalate "\n" (head :: r.issues.flatMap Issue.lines)

end SerialAudit

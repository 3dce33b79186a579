import SerialAudit.Rulebook.Folder

/-! The standard rules, as the text of a rules file. -/
namespace SerialAudit
set_option autoImplicit false

namespace Folder

/-- The definition of a standard rule; they differ in rule, title and message. -/
def standardEntry (rule title message : String) : String :=
  "  - rule: " ++ rule ++ "\n    diagnostic_id: MigratableAnalyzer\n" ++
  "    title: Class implementing IMigratable " ++ title ++ "\n" ++
  "    message_format: \"Class '\x7bclass_name\x7d' " ++ message ++ ".\"\n" ++
  "    severity: error\n    category: Naming\n    enabled_by_default: true\n"

def standardText : String :=
  "rules:\n" ++
  standardEntry "missing_annotation" "needs to have SerializedIdAttribute"
    "needs to have the serialized-id annotation" ++
  "\n" ++
  standardEntry "missing_field" "has missing parameters for SerializedIdAttribute"
    "has missing annotation parameter \x7bfield_name\x7d" ++
  "\n" ++
  standardEntry "invalid_field" "has incorrect parameters for SerializedIdAttribute"
    "has incorrect annotation parameter \x7bfield_name\x7d" ++
  "\n" ++
  standardEntry "duplicate_version" "has duplicate version for SerializedIdAttribute"
    "has duplicate version for the serialized-id annotation"

def standard : Folder := ofText standardText

end Folder
end SerialAudit

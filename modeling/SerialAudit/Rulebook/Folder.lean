import SerialAudit.Document.Pages

/-! The configuration directory, as far as the rules are concerned: what stands in it under the name
of the rules file.

* `Folder` : the states of the directory;
* `Folder.filePath` : the path of the rules file in a directory;
* `Folder.source?` : the text of the rules file. -/
namespace SerialAudit
set_option autoImplicit false

/-- What stands under the name of the rules file: nothing, a file, or a directory. The last state is
that of a directory which is itself a file. -/
inductive Folder where
  | absent
  | file (octets : List UInt8)
  | directory
  | notDirectory
  deriving DecidableEq, Repr

namespace Folder

inductive Fault where
  | absent
  | directory
  | notDirectory
  deriving DecidableEq, Repr

def fileName : String := "diagnostic-rules.yaml"

def filePath (directory : String) : String :=
  if directory = "." then fileName
  else if directory.toList.getLast? = some '/' then directory ++ fileName
  else directory ++ "/" ++ fileName

def source? : Folder → Except Fault Document.Source
  | absent => .error .absent
  | directory => .error .directory
  | notDirectory => .error .notDirectory
  | file octets => .ok (Document.Source.ofOctets octets)

def ofText (s : String) : Folder := file (Text.Utf8.encode s.toList)

end Folder
end SerialAudit

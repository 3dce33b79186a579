import SerialAudit.Access.Wire
import SerialAudit.Server

/-! The command: sets the server up from the environment and answers the requests on its standard
input, each a first line, header lines and an empty line. -/
namespace SerialAudit.Main
set_option autoImplicit false

/-- The directory with the rules, where the environment names none. -/
def standardDirectory : String := "config"

def environment : IO (List (String × String)) := do
  let names := Settings.fieldNames.map fun n => Settings.variableLead ++ Text.upper n
  names.filterMapM fun n => do
    return (← IO.getEnv n).map (n, ·)

def setupMessage : SetupFault → String
  | .settings rejection => rejection.report
  | .unknownLogLevel name => "Unknown level: " ++ Text.quoted name

/-- Answers the requests of a stream; `lines` are those of the present request, in reverse. -/
partial def serve (s : Server) (input output : IO.FS.Stream) (lines : List String) : IO Unit := do
  let line ← input.getLine
  let content := Text.strip line
  if content = "" then
    match Wire.request? lines.reverse with
    | some r =>
      for l in Wire.responseLines ((s.handle r).getD .failed) do
        output.putStr (l ++ "\r\n")
      output.flush
    | none => pure ()
    if line.isEmpty then pure () else serve s input output []
  else serve s input output (content :: lines)

def run : IO UInt32 := do
  match Server.ofEnvironment standardDirectory (← environment) with
  | .error fault =>
    (← IO.getStderr).putStrLn (setupMessage fault)
    return 1
  | .ok s =>
    serve s (← IO.getStdin) (← IO.getStdout) []
    return 0

end SerialAudit.Main

def main : IO UInt32 := SerialAudit.Main.run

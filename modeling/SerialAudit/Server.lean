import SerialAudit.Access.Gate
import SerialAudit.Log
import SerialAudit.Service
import SerialAudit.Settings

/-! The server as it is set up from its settings.

* `Server` : where it listens, what it logs, its gate and its service;
* `Server.ofSettings` : the server of some settings;
* `Server.routed` : the answers behind the gate;
* `Server.handle` : the answer to a request. -/
namespace SerialAudit
set_option autoImplicit false

/-- A server: host and port, the least weight of the lines it logs, its gate and its service. -/
structure Server where
  host : String
  port : Int
  logLevel : Nat
  gate : Gate
  service : Service

inductive SetupFault where
  | settings (rejection : Rejection)
  | unknownLogLevel (name : String)
  deriving DecidableEq, Repr

namespace Server

/-- The server of some settings; the name of the log level is known in any letter case. -/
def ofSettings (s : Settings) : Except SetupFault Server :=
  match Log.threshold? (Text.upper s.logLevel) with
  | none => .error (.unknownLogLevel s.logLevel)
  | some level =>
    .ok ⟨s.host, s.port, level, Gate.ofToken s.urlToken,
      ⟨Catalog.ofDirectory s.configDir, s.maxWorkers⟩⟩

def ofEnvironment (directory : String) (environment : List (String × String)) :
    Except SetupFault Server :=
  match (Settings.read directory environment).toExcept Settings.modelName with
  | .error rejection => .error (.settings rejection)
  | .ok s => ofSettings s

/-! ## Routes -/

def toolsPath : String := "/mcp"

def routes : List String := [Gate.healthPath, toolsPath]

/-- The route that a path leads to; one line break at its end does not matter. -/
def route? (path : List Char) : Option String :=
  routes.find? fun r => path = r.toList || path = r.toList ++ ['\n']

/-- A path as it may have been meant: without the slashes at its end, or with one if there is none. -/
def otherPath (path : List Char) : List Char :=
  if path.getLast? = some '/' then (path.reverse.dropWhile (· = '/')).reverse else path ++ ['/']

/-- The answers behind the gate: how the server is, to those who only ask. A path that would lead
somewhere in its other form is answered by the address of that form, for which the request has to have
an address. The conversations of clients with the tools are not answers of this kind. -/
def routed (r : Request) : Option Response :=
  match route? r.path.toList with
  | some path =>
    if path ≠ Gate.healthPath then some .notFound
    else if r.method = "GET" ∨ r.method = "HEAD" then some .healthy
    else some .methodNotAllowed
  | none =>
    if r.path ≠ "/" ∧ (route? (otherPath r.path.toList)).isSome then
      if r.hasAddress then some .redirected else none
    else some .notFound

def handle (s : Server) (r : Request) : Option Response := s.gate.handle routed r

end Server
end SerialAudit

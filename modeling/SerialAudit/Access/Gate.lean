import SerialAudit.Access.Request

/-! The gate in front of the server. Where a token is set, only requests that carry it get through,
apart from those for certain paths.

* `Body`, `Response` : what is answered to a request;
* `Gate` : the token and the paths that need none;
* `Gate.admitsBy`, `Gate.admits` : whether a request gets through;
* `Gate.handleBy`, `Gate.handle` : what is answered to a request, by the server behind the gate or by the
  gate. -/
namespace SerialAudit
set_option autoImplicit false

/-- The body of an answer: an object of texts, or a plain text. -/
inductive Body where
  | object (fields : List (String × String))
  | plain (text : String)
  deriving DecidableEq, Repr

structure Response where
  status : Nat
  body : Body
  deriving DecidableEq, Repr

namespace Response

def unauthorized : Response :=
  ⟨401, .object [("error", "Unauthorized"), ("message", "Invalid or missing token")]⟩

def healthy : Response := ⟨200, .object [("status", "ok")]⟩

def notFound : Response := ⟨404, .plain "Not Found"⟩

def methodNotAllowed : Response := ⟨405, .plain "Method Not Allowed"⟩

/-- The answer to a request whose path leads somewhere but for its last slashes. -/
def redirected : Response := ⟨307, .plain ""⟩

def failed : Response := ⟨500, .plain "Internal Server Error"⟩

end Response

/-- A token, or the empty text where none is set, and the paths that need no token. -/
structure Gate where
  token : String
  openPaths : List String
  deriving DecidableEq, Repr

namespace Gate

def healthPath : String := "/health"

def ofToken (token : String) : Gate := ⟨token, [healthPath]⟩

/-- Whether a request gets through. A token in front of it has to be asked for the address, and a
request without one does not get through. -/
def admitsBy (v : Request.View) (g : Gate) (r : Request) : Bool :=
  !r.isHttp || g.token = "" ||
    (r.pathBy v).any fun path => g.openPaths.contains path || r.token = g.token

/-- What is answered to a request. One that does not get through is refused, or has no answer if it
has no address. -/
def handleBy (v : Request.View) (g : Gate) (server : Request → Option Response) (r : Request) :
    Option Response :=
  if g.admitsBy v r then server r
  else if (r.pathBy v).isSome then some .unauthorized
  else none

def admits (g : Gate) (r : Request) : Bool := g.admitsBy .escaped r

def handle (g : Gate) (server : Request → Option Response) (r : Request) : Option Response :=
  g.handleBy .escaped server r

end Gate
end SerialAudit

import SerialAudit.Access.Query
import SerialAudit.Text.Blank
import SerialAudit.Text.Case

/-! Requests, and what they say about who sends them.

* `Request` : a request with its path, query and headers;
* `Request.header?` : the first header of a name;
* `Request.urlPath` : the path of the address that was requested;
* `Request.hasAddress` : whether the request has an address at all;
* `Splitting`, `Splitting.path?` : addresses that are put together from the host and the path and then
  taken apart, and the path that comes out;
* `Request.View`, `Request.pathBy` : the two ways to come by the path of an address;
* `Request.token` : the token that a request carries. -/
namespace SerialAudit
set_option autoImplicit false

/-- A request. Its path has its escapes resolved; each character of its query stands for an octet.
A request that does not belong to the web protocol itself, such as the opening of a socket, has
`isHttp` false. -/
structure Request where
  isHttp : Bool
  method : String
  path : String
  query : String
  headers : List (String × String)
  deriving DecidableEq, Repr

namespace Request

def header? (r : Request) (name : String) : Option String :=
  (r.headers.find? fun h => Text.lower h.1 = name).map (·.2)

/-! ## Addresses -/

/-- A character of a path as an address has it: what would end the path, or be taken for a slash, is
escaped, and what no address holds is left out. -/
def addressed (c : Char) : List Char :=
  if c = '?' then ['%', '3', 'F']
  else if c = '#' then ['%', '2', '3']
  else if c = '\\' then ['%', '5', 'C']
  else if c = '\t' || c = '\r' || c = '\n' then []
  else [c]

def rooted : List Char → List Char
  | [] => []
  | c :: cs => if c = '/' then c :: cs else '/' :: c :: cs

/-- The path of the address that was requested. The host that the request names has no part in it. -/
def urlPath (r : Request) : String := String.ofList ((rooted r.path.toList).flatMap addressed)

/-- The query as it stands in an address. -/
def queryText? (r : Request) : Option (List Char) :=
  Text.Utf8.decode? (r.query.toList.map fun c => UInt8.ofNat c.toNat)

/-- Whether the request has an address: its query is the text of some characters. -/
def hasAddress (r : Request) : Bool := r.queryText?.isSome

end Request

/-! ## Addresses that are taken apart

In another version of the library an address is a single text, in which nothing is escaped, and what
comes before its path ends where a delimiter first occurs. -/

/-- What is left open about such addresses: the authority of a request that names no host, and the
authorities that are refused, such as those with a bracket that is not closed. -/
structure Splitting where
  server : String
  refuses : List Char → Bool

namespace Splitting

def isKept (c : Char) : Bool := c ≠ '\t' && c ≠ '\r' && c ≠ '\n'

def endsAuthority (c : Char) : Bool := c = '/' || c = '?' || c = '#'

def endsPath (c : Char) : Bool := c = '?' || c = '#'

def authority (s : Splitting) (r : Request) : List Char := ((r.header? "host").getD s.server).toList

/-- What stands after the scheme and its slashes. -/
def address (s : Splitting) (r : Request) (query : List Char) : List Char :=
  (s.authority r ++ r.path.toList ++ if query = [] then [] else '?' :: query).filter isKept

def path? (s : Splitting) (r : Request) : Option String :=
  r.queryText?.bind fun query =>
    let cs := s.address r query
    if s.refuses (cs.takeWhile fun c => !endsAuthority c) then none
    else some (String.ofList ((cs.dropWhile fun c => !endsAuthority c).takeWhile fun c => !endsPath c))

end Splitting

namespace Request

inductive View where
  | escaped
  | joined (s : Splitting)

/-- The path of the address, unless the address cannot be made or taken apart. -/
def pathBy : View → Request → Option String
  | .escaped, r => if r.hasAddress then some r.urlPath else none
  | .joined s, r => s.path? r

/-! ## Tokens -/

def bearerScheme : String := "Bearer "

def bearer? (authorization : String) : Option String :=
  if bearerScheme.toList.isPrefixOf authorization.toList then
    some (Text.strip (String.ofList (authorization.toList.drop bearerScheme.length)))
  else none

/-- The token of a request: that of its authorization header, or of its query where that has none. -/
def token (r : Request) : String :=
  match (r.header? "authorization").bind bearer? with
  | some t => t
  | none => (Query.last? r.query "token").getD ""

end Request
end SerialAudit

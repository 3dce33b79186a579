import SerialAudit.Access.Gate

/-! Requests and answers as lines of text.

* `Wire.request?` : the request that some lines describe;
* `Wire.responseLines` : the lines of an answer. -/
namespace SerialAudit.Wire
set_option autoImplicit false

/-! ## Requests -/

def header (line : String) : String × String :=
  let (name, value) := Text.splitFirst ':' line.toList
  (Text.strip (String.ofList name), Text.strip (String.ofList value))

/-- The request that its first line and the header lines after it describe. -/
def request? : List String → Option Request
  | first :: headers =>
    match Text.splitAll ' ' (Text.strip first).toList with
    | [method, target, _] =>
      let (path, query) := Text.splitFirst '?' target
      some ⟨true, String.ofList method, String.ofList (Query.unescaped path), String.ofList query,
        headers.map header⟩
    | _ => none
  | [] => none

/-! ## Answers -/

def quotedChar (c : Char) : List Char :=
  if c = '"' ∨ c = '\\' then ['\\', c]
  else if c.toNat < 0x20 then '\\' :: 'u' :: (Text.hex 4 c.toNat).toList
  else [c]

def quoted (s : String) : String := "\"" ++ String.ofList (s.toList.flatMap quotedChar) ++ "\""

def bodyText : Body → String
  | .object fields =>
    "\x7b" ++ String.intercalate "," (fields.map fun f => quoted f.1 ++ ":" ++ quoted f.2) ++ "\x7d"
  | .plain text => text

def contentType : Body → String
  | .object _ => "application/json"
  | .plain _ => "text/plain; charset=utf-8"

def responseLines (r : Response) : List String :=
  ["HTTP/1.1 " ++ Text.decimal r.status, "content-type: " ++ contentType r.body,
   "content-length: " ++ Text.decimal (bodyText r.body).utf8ByteSize, "", bodyText r.body]

example : bodyText Response.healthy.body = "\x7b\"status\":\"ok\"\x7d" := by decide +kernel

example : (request? ["GET /a%20b?token=x HTTP/1.1", "Host: h"]).map (·.path) = some "/a b" := by
  decide +kernel

end SerialAudit.Wire

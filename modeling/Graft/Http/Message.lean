import Graft.Json.Basic
import Graft.Text.Search
import Graft.Text.Utf8

/-!
Messages of HTTP, as far as a client that posts JSON needs them.
-/

namespace Graft.Http

open Graft.Text

/-- A request that posts a JSON value. The names of headers are written in lower case. -/
structure Request where
  target : String
  headers : List (String × String)
  body : Json
  deriving Inhabited

def Request.line (request : Request) : String := s!"POST {request.target} HTTP/1.1"

structure Response where
  status : Nat
  body : Bytes
  /-- How many more bytes the server announces than it sends. -/
  missing : Nat
  deriving Repr, DecidableEq, Inhabited

def phrases : List (Nat × String) :=
  [(100, "Continue"), (101, "Switching Protocols"), (102, "Processing"), (103, "Early Hints"),
    (200, "OK"), (201, "Created"), (202, "Accepted"), (203, "Non Authoritative Information"),
    (204, "No Content"), (205, "Reset Content"), (206, "Partial Content"), (207, "Multi-Status"),
    (208, "Already Reported"), (226, "IM Used"), (300, "Multiple Choices"),
    (301, "Moved Permanently"), (302, "Found"), (303, "See Other"), (304, "Not Modified"),
    (305, "Use Proxy"), (307, "Temporary Redirect"), (308, "Permanent Redirect"),
    (400, "Bad Request"), (401, "Unauthorized"), (402, "Payment Required"), (403, "Forbidden"),
    (404, "Not Found"), (405, "Method Not Allowed"), (406, "Not Acceptable"),
    (407, "Proxy Authentication Required"), (408, "Request Timeout"), (409, "Conflict"),
    (410, "Gone"), (411, "Length Required"), (412, "Precondition Failed"),
    (413, "Payload Too Large"), (414, "URI Too Long"), (415, "Unsupported Media Type"),
    (416, "Range Not Satisfiable"), (417, "Expectation Failed"), (418, "I'm a teapot"),
    (421, "Misdirected Request"), (422, "Unprocessable Entity"), (423, "Locked"),
    (424, "Failed Dependency"), (425, "Too Early"), (426, "Upgrade Required"),
    (428, "Precondition Required"), (429, "Too Many Requests"),
    (431, "Request Header Fields Too Large"), (451, "Unavailable For Legal Reasons"),
    (500, "Internal Server Error"), (501, "Not Implemented"), (502, "Bad Gateway"),
    (503, "Service Unavailable"), (504, "Gateway Timeout"), (505, "HTTP Version Not Supported"),
    (506, "Variant Also Negotiates"), (507, "Insufficient Storage"), (508, "Loop Detected"),
    (510, "Not Extended"), (511, "Network Authentication Required")]

namespace Response

def statusLine (response : Response) : String :=
  s!"{response.status} {(phrases.lookup response.status).getD unknownPhrase}"
where
  /-- What stands for the phrase of a code that has none. -/
  unknownPhrase : String := "<unknown status code>"

def isSuccess (response : Response) : Bool := 200 ≤ response.status && response.status < 300

def isBodiless (response : Response) : Bool := response.status == 204 || response.status == 304

/-- The text of the body; nothing when the server broke off before its end. -/
def text? (response : Response) : Option String :=
  if response.isBodiless then some ""
  else if response.missing = 0 then some (decodeLossy response.body)
  else none

end Response

/-- The host, with its number if there is one, and the path that a plain address leads to. -/
def address? (url : String) : Option (String × String) := do
  let rest ← dropHead? "http://".toList url.toList
  let (host, path) := rest.span (· != '/')
  return (String.ofList host, if path.isEmpty then "/" else String.ofList path)

/-- A server at an address, the answers that it is still to give, and the requests that it got. -/
structure Server where
  host : String
  pending : List Response
  requests : List Request
  deriving Inhabited

/-- The answer of a server to a request; one that has no more answers is unavailable. -/
def Server.exchange (server : Server) (request : Request) : Response × Server :=
  let requests := server.requests ++ [request]
  match server.pending with
  | response :: rest => (response, { server with pending := rest, requests })
  | [] => (⟨503, encode "no reply queued", 0⟩, { server with requests })

end Graft.Http

import Graft.Generation.Request

/-!
A service that answers from a list and keeps the requests that it was given.
-/

namespace Graft.Generation

/-- Reads a reply: an object whose one member says what kind of reply it is. -/
def Reply.decode : Json.Decoder Reply
  | .object [("ok", .string text)] => some (.answer (.ok text))
  | .object [("service", .string message)] => some (.answer (.error (.service message)))
  | .object [("rejected", .string message)] => some (.answer (.error (.rejected message)))
  | .object [("hang", _)] => some .silence
  | _ => none

/-- The replies that are still to come, the one that is given when there are none, and the requests
so far. -/
structure Script where
  pending : List Reply
  fallback : Option Reply
  requests : List Request
  deriving Inhabited

namespace Script

def calls (script : Script) : Nat := script.requests.length

def next (script : Script) (request : Request) : Reply × Script :=
  let requests := script.requests ++ [request]
  match script.pending with
  | reply :: rest => (reply, { script with pending := rest, requests })
  | [] => (script.fallback.getD (.answer (.error (.service "script exhausted"))), { script with requests })

end Script

end Graft.Generation

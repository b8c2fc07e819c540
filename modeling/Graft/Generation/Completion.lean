import Graft.Generation.Reply
import Graft.Generation.Request
import Graft.Generation.Settings
import Graft.Http.Message
import Graft.Json.Printer
import Graft.Json.Reader
import Graft.Text.Place

/-!
Asking a service for a completion of a chat. The system message says what is wanted, the user message
holds the function and, for a repair, the earlier candidate with what was wrong with it. The first
choice of the completion holds the code, unless the service declines.
-/

namespace Graft.Generation

open Graft.Json Graft.Text

def agent : String := "splice/0.3.1"

/-- How many bytes of a body a message may quote. -/
def maxQuoted : Nat := 200

/-- The beginning of a text, at most so many bytes and whole characters. -/
def cutBytes : Nat → List Char → List Char
  | _, [] => []
  | room, c :: rest => if c.utf8Size ≤ room then c :: cutBytes (room - c.utf8Size) rest else []

def excerpt (body : String) : String := String.ofList (cutBytes maxQuoted body.toList)

def systemMessage (language : String) : String :=
  s!"You are an expert {language} programmer. Rewrite the given {language} function so that it " ++
    "keeps the same name, signature and observable behavior. Reply with the complete " ++
    "function only, inside a single fenced code block."

/-- A text between fences on lines of their own. -/
def fenced (text : String) : String := "\x60\x60\x60\n" ++ text ++ "\n\x60\x60\x60\n"

/-- The function, and for a repair the candidate that failed and why. -/
def userMessage (request : Request) : String :=
  let function := "Function \x60" ++ request.functionName ++ "\x60:\n" ++ fenced request.definedText
  match request.priorAttempt, request.failureReason with
  | none, _ => function
  | some prior, none => function ++ "\nYour previous rewrite:\n" ++ fenced prior
  | some prior, some reason =>
      function ++ "\nYour previous rewrite:\n" ++ fenced prior ++
        s!"\nIt failed validation with:\n{reason}\n\nFix the rewrite so it passes.\n"

structure Client where
  settings : Settings
  model : String
  key : Option String
  deriving Repr, DecidableEq, Inhabited

namespace Client

def ofSettings (settings : Settings) (model : String) (environment : List (String × String)) :
    Client :=
  ⟨settings, model, environment.lookup settings.keyVariable⟩

def body (client : Client) (request : Request) : Json :=
  let message (role content : String) : Json :=
    .object [("role", .string role), ("content", .string content)]
  .object ([("model", .string client.model),
    ("messages", .array [message "system" (systemMessage request.language),
      message "user" (userMessage request)]),
    ("temperature", single client.settings.temperature), ("top_p", single client.settings.topP)] ++
    optionalMember "max_tokens" nat client.settings.maxTokens)

def message (client : Client) (request : Request) (target : String) : Http.Request :=
  let authorization := match client.key with
    | some key => [("authorization", trimmed s!"Bearer {key}")]
    | none => []
  ⟨target, authorization ++ [("content-type", "application/json"), ("user-agent", agent)],
    client.body request⟩

end Client

/-- What the first choice of a completion says. -/
structure Choice where
  content : Option String
  refusal : Option String
  deriving Repr, DecidableEq, Inhabited

def decodeChoices : Decoder (List Choice) :=
  let choice : Decoder Choice := record do
    required "message" (record do
      return ⟨← optional "content" .string, ← optional "refusal" .string⟩)
  record do required "choices" (.list choice)

/-- The code in the body of a completion. A refusal that says something wins over the content. -/
def readCompletion (body : String) : Except GenerationError String :=
  match (Json.read? body).bind decodeChoices with
  | none => .error (.service s!"malformed completion: unexpected form: {excerpt body}")
  | some [] => .error (.service "completion has no choices")
  | some (choice :: _) =>
      match choice.refusal.filter fun refusal => !refusal.toList.all isBlank with
      | some refusal => .error (.rejected refusal)
      | none =>
          match choice.content.bind extractCode with
          | some code => .ok code
          | none => .error (.service "completion has no code")

/-- Whether another call with the same request may not help. -/
def isFinal (status : Nat) : Bool := [400, 401, 403, 404, 422].contains status

def readResponse (response : Http.Response) : Except GenerationError String :=
  match response.text? with
  | none => .error (.service "error decoding response body")
  | some body =>
      if response.isSuccess then readCompletion body
      else
        let detail := s!"HTTP {response.statusLine}: {excerpt body}"
        .error (if isFinal response.status then .rejected detail else .service detail)

/-- Asks a server for a candidate. A service at another address cannot be reached. -/
def Client.ask (client : Client) (request : Request) (server : Option Http.Server) :
    Except GenerationError String × Option Http.Server :=
  let url := client.settings.endpoint
  match server, Http.address? url with
  | some server, some (host, target) =>
      if host = server.host then
        let (response, server) := server.exchange (client.message request target)
        (readResponse response, some server)
      else (.error (.service s!"error sending request for url ({url})"), some server)
  | server, _ => (.error (.service s!"error sending request for url ({url})"), server)

end Graft.Generation

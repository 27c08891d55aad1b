import HeuristicEvolution.Candidate.Basic
import HeuristicEvolution.Chat.Service
import HeuristicEvolution.Chat.Status
import HeuristicEvolution.Json.Parser

/-!
# What goes over the wire

A request carries the whole conversation, the newest message last, in the form of the service that
is asked. A reply is read from the body of the answer; what else the body holds is not looked at.

## Main definitions

* `Message`: one message of a conversation.
* `Endpoint.request`: the request for a list of messages.
* `Endpoint.readReply`: the reply in the body of an answer.
* `Network`: how requests are answered.
-/

namespace HeuristicEvolution

/-- Who wrote a message. -/
inductive Author where
  | user
  | model
  deriving DecidableEq, Repr, Inhabited

/-- One message of a conversation. -/
structure Message where
  author : Author
  text : String
  deriving DecidableEq, Repr, Inhabited

/-- A request that is posted to a service. -/
structure HttpRequest where
  host : String
  path : String
  headers : List (String × String)
  body : Json
  deriving Inhabited

/-- What comes back for a request. -/
inductive HttpOutcome where
  | answered (status : Nat) (body : String)
  /-- There is no connection, or it breaks before the answer is complete. -/
  | dropped
  /-- Nothing came within the time allowed for a request. -/
  | silent
  deriving DecidableEq, Repr, Inhabited

/-- A network: its answer to a request, after the requests that were sent before, in order. -/
abbrev Network := (earlier : List HttpRequest) → HttpRequest → HttpOutcome

/-- The network on which nothing is reached. -/
def Network.unreachable : Network := fun _ _ => .dropped

namespace Json

/-- The value under a token: a member of that name, or the item that the token counts to. Counts
have no zeros before them. -/
def child? (token : String) : Json → Option Json
  | .arr xs => do
    let cs := token.toList
    if cs.isEmpty || !cs.all Char.isDigit || (cs.length > 1 && cs.head? = some '0') then none
    else xs[(← token.toNat?)]?
  | j => j.get? token

/-- The value at the end of a way from token to token. -/
def follow? (tokens : List String) (j : Json) : Option Json :=
  tokens.foldlM (fun j token => j.child? token) j

/-- The count at the end of a way; zero if there is none. -/
def tokenCount (tokens : List String) (j : Json) : Nat :=
  ((j.follow? tokens).bind (nat? (Nat.pow 2 64))).getD 0

end Json

namespace Service

/-- What the service calls an author. -/
def authorName : Service → Author → String
  | _, .user => "user"
  | .openAI, .model => "assistant"
  | .gemini, .model => "model"

/-- A message as the service wants it. -/
def message (service : Service) (m : Message) : Json :=
  let role := ("role", Json.str (service.authorName m.author))
  match service with
  | .openAI => .ofMembers [role, ("content", .str m.text)]
  | .gemini => .ofMembers [role, ("parts", .arr [.ofMembers [("text", .str m.text)]])]

end Service

namespace Endpoint

/-- The request for a list of messages. -/
def request (e : Endpoint) (messages : List Message) : HttpRequest :=
  let written := Json.arr (messages.map e.service.message)
  let contentType := ("content-type", "application/json")
  match e.service with
  | .openAI =>
    { host := "api.openai.com", path := "/v1/chat/completions"
      headers := [("authorization", "Bearer " ++ e.key), contentType]
      body := .ofMembers [("model", .str e.model), ("messages", written)] }
  | .gemini =>
    { host := "generativelanguage.googleapis.com"
      path := "/v1beta/models/" ++ e.model ++ ":generateContent"
      headers := [("x-goog-api-key", e.key), contentType]
      body := .ofMembers [("contents", written)] }

/-- The failure of a request that was not granted. -/
def refused (e : Endpoint) (status : Nat) (body : String) : Failure :=
  let what := match e.service with
    | .openAI => "OpenAI chat API error ("
    | .gemini => "Gemini API error ("
  .other (what ++ Status.text status ++ "): " ++ body)

/-- The text of a reply: the content of the first choice, or all parts of the first candidate. -/
def replyText (service : Service) (j : Json) : Except Failure String :=
  match service with
  | .openAI =>
    match (j.follow? ["choices", "0", "message", "content"]).bind Json.str? with
    | some text => .ok text
    | none => .error (.other "OpenAI API response missing content")
  | .gemini =>
    match (j.follow? ["candidates", "0", "content", "parts"]).bind Json.arr? with
    | some parts =>
      .ok (String.join (parts.filterMap fun part => (part.get? "text").bind Json.str?))
    | none => .error (.other "Gemini API response missing candidate parts")

/-- What a reply has cost. -/
def usage (e : Endpoint) (j : Json) : Usage :=
  match e.service with
  | .openAI =>
    ⟨(j.get? "model").bind Json.str?, j.tokenCount ["usage", "prompt_tokens"],
      j.tokenCount ["usage", "completion_tokens"]⟩
  | .gemini =>
    ⟨some (((j.get? "modelVersion").bind Json.str?).getD e.model),
      j.tokenCount ["usageMetadata", "promptTokenCount"],
      j.tokenCount ["usageMetadata", "candidatesTokenCount"]⟩

/-- The reply in an answer. -/
def readReply (e : Endpoint) (status : Nat) (body : String) : Except Failure (String × Usage) :=
  if Status.isSuccess status then
    match Json.parse? body with
    | none => .error .transport
    | some j => (replyText e.service j).map fun text => (text, e.usage j)
  else .error (e.refused status body)

end Endpoint

end HeuristicEvolution

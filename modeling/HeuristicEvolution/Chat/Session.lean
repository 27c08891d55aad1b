import HeuristicEvolution.Chat.Wire
import HeuristicEvolution.Evolution.Conversation

/-!
# Chat sessions

A session holds the messages of a conversation so far. It grows by a message and its reply when a
reply comes; whatever else comes of a request leaves it as it is, so a message that is sent again
is in the request once.

## Main definitions

* `ChatSession.request`: the request for the next message.
* `ChatSession.receive`: what an answer makes of the session.
-/

namespace HeuristicEvolution

/-- The messages of one conversation with a model. -/
structure ChatSession where
  endpoint : Endpoint
  history : List Message
  deriving Inhabited

namespace ChatSession

/-- A session without messages. -/
def start (e : Endpoint) : ChatSession := ⟨e, []⟩

/-- The messages of a request: the history and the new message. -/
def messages (s : ChatSession) (text : String) : List Message := s.history ++ [⟨.user, text⟩]

/-- The request for the next message. -/
def request (s : ChatSession) (text : String) : HttpRequest := s.endpoint.request (s.messages text)

/-- What comes of the request for a message, and the session after it. -/
def receive (s : ChatSession) (text : String) : HttpOutcome → Exchange × ChatSession
  | .answered status body =>
    match s.endpoint.readReply status body with
    | .ok (reply, usage) =>
      (.reply reply usage, { s with history := s.messages text ++ [⟨.model, reply⟩] })
    | .error e => (.failed e, s)
  | .dropped => (.failed .transport, s)
  | .silent => (.silent, s)

end ChatSession

end HeuristicEvolution

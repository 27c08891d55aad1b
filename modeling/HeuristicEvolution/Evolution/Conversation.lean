import HeuristicEvolution.Candidate.Basic
import HeuristicEvolution.Failure

/-!
# Conversations with a model

Each candidate is worked out in a conversation of its own. A prompt that gets no reply is sent
again as often as the policy allows; what was not answered is no turn of the conversation.

## Main definitions

* `Exchange`: what comes of one request.
* `Conversation.send`: a prompt with its retries.
-/

namespace HeuristicEvolution

/-- What comes of one request to a model. -/
inductive Exchange where
  | reply (text : String) (usage : Usage)
  | failed (e : Failure)
  /-- Nothing came within the time allowed for a request. -/
  | silent
  deriving DecidableEq, Repr, Inhabited

/-- How a conversation deals with requests that fail. Times are in seconds. -/
structure Policy where
  retries : Nat
  requestTimeout : Nat
  backoff : Nat
  deriving DecidableEq, Repr, Inhabited

namespace Policy

/-- The seconds that a request may take unless another limit is set. -/
def standardTimeout : Nat := 600

/-- No retries, the standard time, and five seconds more before each further try. -/
def standard : Policy := ⟨0, standardTimeout, 5⟩

end Policy

/-- Why a request got no reply, in words. -/
def Exchange.fault (policy : Policy) : Exchange → String
  | .reply _ _ => ""
  | .failed e => e.message
  | .silent => "no reply within " ++ toString policy.requestTimeout ++ "s"

/-- A conversation: the state of the outside world and the number of turns so far. -/
structure Conversation (σ : Type) where
  world : σ
  turns : Nat
  deriving Inhabited

namespace Conversation

variable {σ : Type}

/-- Sends a prompt once, and again after each failure while tries are left. -/
def request (ask : String → σ → Exchange × σ) (policy : Policy) (prompt : String) :
    (retries : Nat) → σ → Except String (String × Usage) × σ
  | retries, s =>
    match ask prompt s with
    | (.reply text usage, s) => (.ok (text, usage), s)
    | (fault, s) =>
      match retries with
      | 0 => (.error (fault.fault policy), s)
      | retries + 1 => request ask policy prompt retries s

/-- Sends a prompt and parts the reply. Only a reply is a turn; when no try brings one, the last
fault is reported. -/
def send (ask : String → σ → Exchange × σ) (policy : Policy) (prompt : String) :
    EStateM Failure (Conversation σ) Response := fun c =>
  match request ask policy prompt policy.retries c.world with
  | (.ok (text, usage), s) => .ok (.ofReply text usage) ⟨s, c.turns + 1⟩
  | (.error fault, s) => .error (.generation fault) ⟨s, c.turns⟩

end Conversation

end HeuristicEvolution

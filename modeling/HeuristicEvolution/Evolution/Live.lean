import HeuristicEvolution.Chat.Session
import HeuristicEvolution.Evolution.Basic
import HeuristicEvolution.Task.Basic

/-!
# The live laboratory

The laboratory of a real run: a service is asked over a network, and the backend of a task builds
code and measures it with the commands of a host.

## Main definitions

* `Surroundings`: the world, the network and the sessions that were opened.
* `Surroundings.laboratory`: the laboratory in it.
-/

namespace HeuristicEvolution

/-- What a live run finds around it, and what it has opened there. -/
structure Surroundings where
  world : World
  network : Network
  /-- The requests that were sent, in order. -/
  sent : List HttpRequest
  /-- All chat sessions, by their numbers. -/
  sessions : List ChatSession

namespace Surroundings

/-- Surroundings in which nothing was sent yet. -/
def start (world : World) (network : Network) : Surroundings := ⟨world, network, [], []⟩

/-- A new session with an endpoint, and its number. -/
def openSession (e : Endpoint) (s : Surroundings) : Nat × Surroundings :=
  (s.sessions.length, { s with sessions := s.sessions ++ [.start e] })

/-- Sends a message in a session; one that was never opened cannot be reached. -/
def ask (session : Nat) (text : String) (s : Surroundings) : Exchange × Surroundings :=
  match s.sessions[session]? with
  | none => (.failed .transport, s)
  | some chat =>
    let request := chat.request text
    let (exchange, chat) := chat.receive text (s.network s.sent request)
    (exchange,
      { s with sent := s.sent ++ [request], sessions := s.sessions.set session chat })

/-- Does something in the world. Nobody outside gives a call of a live run up; should a host do so,
the run fails. -/
def perform (body : Action α) (s : Surroundings) : Except Failure α × Surroundings :=
  match body s.world with
  | .ok a w => (.ok a, { s with world := w })
  | .error (.failed e) w => (.error e, { s with world := w })
  | .error .abandoned w => (.error (.other "the call was given up"), { s with world := w })

/-- The laboratory of an endpoint and a backend. -/
def laboratory (e : Endpoint) (b : Backend) : Laboratory Surroundings where
  model := e.model
  openSession _ := openSession e
  ask _ := ask
  initialPrompt _ s := (b.initialPrompt, s)
  mutationPrompt _ codes s := (b.mutationPrompt codes, s)
  repairPrompt := Prompt.repair
  build _ code := perform (b.build code)
  experiment _ := perform b.experiment

end Surroundings

end HeuristicEvolution

import HeuristicEvolution.Evolution.Conversation
import HeuristicEvolution.Prompt.Basic

/-!
# The build-repair cycle

The code of a reply is built; when the build fails, its logs go back to the model, and the code of
the next reply is built. The number of attempts is bounded. A reply without code is an attempt
without a build. Nothing is sent after the last attempt.

## Main definitions

* `repair`: the cycle from a first prompt and its reply.
-/

namespace HeuristicEvolution

/-- What the cycle comes to: whether the last attempt was built, the code of the last build, and
all attempts in order. -/
structure RepairResult where
  built : Bool
  finalCode : Option String
  revisions : List Revision
  deriving DecidableEq, Repr, Inhabited

namespace Repair

variable {σ : Type}

/-- What the cycle talks to: a model within one conversation, and a build. -/
structure Tools (σ : Type) where
  ask : String → σ → Exchange × σ
  build : String → σ → Except Failure BuildResult × σ
  repairPrompt : (stdout stderr : String) → String
  policy : Policy

/-- One build, with the world threaded through. -/
def buildStep (tools : Tools σ) (code : String) : EStateM Failure (Conversation σ) BuildResult :=
  fun c =>
    match tools.build code c.world with
    | (.ok result, s) => .ok result { c with world := s }
    | (.error e, s) => .error e { c with world := s }

/-- The attempt that a reply leads to, the code that was built for it, and the prompt that would
follow. -/
def attempt (tools : Tools σ) (number : Nat) (prompt : String) (response : Response) :
    EStateM Failure (Conversation σ) (Revision × Option String × String) := do
  match response.primaryCode with
  | some code =>
    let result ← buildStep tools code
    return (⟨number, result.success, result.stdout, result.stderr, prompt, response⟩, some code,
      tools.repairPrompt result.stdout result.stderr)
  | none =>
    return (⟨number, false, Prompt.noCodeDiagnostic, "", prompt, response⟩, none,
      Prompt.noCodeReprompt)

/-- The cycle from an attempt number on, with `left` attempts to go. `lastCode` is the code of the
last build so far. -/
def cycle (tools : Tools σ) : (left number : Nat) → (lastCode : Option String) →
    (prompt : String) → Response → EStateM Failure (Conversation σ) RepairResult
  | 0, _, lastCode, _, _ => pure ⟨false, lastCode, []⟩
  | left + 1, number, lastCode, prompt, response => do
    let (revision, code, next) ← attempt tools number prompt response
    let lastCode := code.or lastCode
    if revision.built || left = 0 then return ⟨revision.built, lastCode, [revision]⟩
    else
      let reply ← Conversation.send tools.ask tools.policy next
      let rest ← cycle tools left (number + 1) lastCode next reply
      return { rest with revisions := revision :: rest.revisions }

/-- The build-repair cycle with at most `bound` attempts. -/
def run (tools : Tools σ) (bound : Nat) (prompt : String) (response : Response) :
    EStateM Failure (Conversation σ) RepairResult :=
  cycle tools bound 0 none prompt response

end Repair

end HeuristicEvolution

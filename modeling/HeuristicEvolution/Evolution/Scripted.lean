import HeuristicEvolution.Evolution.Basic

/-!
# A scripted laboratory

A model that gives prepared replies in order, over all conversations, and a backend whose builds
and experiments come out as prepared. When the script runs out, the model fails, builds succeed
and experiments score one half. All calls are noted.

## Main definitions

* `Script`: what is prepared, and what was called.
* `Script.laboratory`: the laboratory that follows the script.
-/

namespace HeuristicEvolution

/-- A prepared answer to one request. -/
inductive ScriptedReply where
  | text (s : String)
  | error (message : String)
  | hang
  deriving DecidableEq, Repr, Inhabited

/-- What is prepared for the model and the backend, and the calls so far, the last one first. -/
structure Script where
  replies : List ScriptedReply := []
  builds : List (Except Failure BuildResult) := []
  outcomes : List (Except Failure Outcome) := []
  prompts : List String := []
  /-- The turns that each conversation has had, by its number. -/
  turns : List Nat := []
  built : List String := []
  mutations : List (List String) := []
  experiments : Nat := 0
  deriving Inhabited

namespace Script

/-- A build that goes as it should. -/
def goodBuild : BuildResult := ⟨true, "ok", ""⟩

/-- A build that stops at a mistake in the code. -/
def badBuild : BuildResult := .failed "" "error: expected ';'"

/-- An experiment with the given score. -/
def scored (x : Float) : Outcome :=
  ⟨true, .ofMembers [("score", .ofFloat x)], .ofMembers [("stdout", .str "")]⟩

/-- An experiment that crashes. -/
def crashed : Outcome := ⟨false, .empty, .ofMembers [("stderr", .str "segfault")]⟩

/-- The experiment of a script that has run out. -/
def unprepared : Outcome := ⟨true, .ofMembers [("score", .float 0.5)], .empty⟩

/-- A new conversation without turns. -/
def openSession (s : Script) : Nat × Script :=
  (s.turns.length, { s with turns := s.turns ++ [0] })

/-- One request. The tokens of a prompt are its bytes, once for every turn of its conversation;
the tokens of a reply are its bytes. -/
def ask (session : Nat) (prompt : String) (s : Script) : Exchange × Script :=
  let s := { s with prompts := prompt :: s.prompts }
  match s.replies with
  | [] => (.failed (.other "scripted provider has no replies left"), s)
  | .error message :: rest =>
    (.failed (.other ("scripted transport error: " ++ message)), { s with replies := rest })
  | .hang :: rest => (.silent, { s with replies := rest })
  | .text text :: rest =>
    let turn := s.turns.getD session 0 + 1
    (.reply text ⟨some "scripted", prompt.utf8ByteSize * turn, text.utf8ByteSize⟩,
      { s with replies := rest, turns := s.turns.set session turn })

/-- One build. -/
def build (code : String) (s : Script) : Except Failure BuildResult × Script :=
  let s := { s with built := code :: s.built }
  match s.builds with
  | [] => (.ok goodBuild, s)
  | b :: rest => (b, { s with builds := rest })

/-- One experiment. -/
def experiment (s : Script) : Except Failure Outcome × Script :=
  let s := { s with experiments := s.experiments + 1 }
  match s.outcomes with
  | [] => (.ok unprepared, s)
  | o :: rest => (o, { s with outcomes := rest })

/-- The plain request for a repair. -/
def repairPrompt (stdout stderr : String) : String :=
  "fix it\nstdout: " ++ stdout ++ "\nstderr: " ++ stderr

/-- The mutation prompt, which is noted. -/
def mutationPrompt (codes : List String) (s : Script) : String × Script :=
  ("improve on:\n" ++ "\n---\n".intercalate codes, { s with mutations := codes :: s.mutations })

/-- What the backend says about itself. -/
def runInfo : Json := .ofMembers [("task_args", .ofMembers [("scripted", .bool true)])]

/-- The laboratory that follows a script. -/
def laboratory (repairPrompt : String → String → String) : Laboratory Script where
  model := "scripted"
  openSession _ := openSession
  ask _ := ask
  initialPrompt _ s := ("write a heuristic", s)
  mutationPrompt _ := mutationPrompt
  repairPrompt := repairPrompt
  build _ := build
  experiment _ := experiment

end Script

end HeuristicEvolution

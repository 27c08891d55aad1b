import HeuristicEvolution.Json.Basic
import HeuristicEvolution.Reply.Fence

/-!
# Candidates

A *candidate* is what one slot of a run came to. A slot is an iteration and a sample number; its
candidate holds every exchange with the model that produced a build attempt, the code that was
built last, and the outcome of the experiment on it.

## Main definitions

* `Response`, `Revision`: a reply with its parts, and the build attempt that it led to.
* `Candidate`: the record of a slot.
* `Candidate.eligible`, `Candidate.score`: what decides whether it becomes a parent.
* `Candidate.check`: the invariants that hold of every record that is kept.
-/

namespace HeuristicEvolution

/-- Token counts that a model reports for one exchange. -/
structure Usage where
  model : Option String
  promptTokens : Nat
  replyTokens : Nat
  deriving DecidableEq, Repr, Inhabited

/-- A reply, whole and in parts. -/
structure Response where
  full : String
  text : List String
  code : List String
  languages : List String
  usage : Usage
  deriving DecidableEq, Repr, Inhabited

/-- The response made of a reply. -/
def Response.ofReply (reply : String) (usage : Usage) : Response :=
  let parts := Segments.ofReply reply
  ⟨reply, parts.text, parts.code, parts.languages, usage⟩

/-- The code that is built: the first block, if anything stands in it. -/
def Response.primaryCode (r : Response) : Option String :=
  r.code.head?.filter fun code => !code.isEmpty

/-- One build attempt, and the exchange that its code came from. -/
structure Revision where
  attempt : Nat
  built : Bool
  stdout : String
  stderr : String
  prompt : String
  response : Response
  deriving DecidableEq, Repr, Inhabited

/-- What a build says. -/
structure BuildResult where
  success : Bool
  stdout : String
  stderr : String
  deriving DecidableEq, Repr, Inhabited

/-- A build that failed with the given logs. -/
def BuildResult.failed (stdout stderr : String) : BuildResult := ⟨false, stdout, stderr⟩

/-- The number under `score` in the results of an experiment. -/
def scoreOf (results : Json) : Option Float := (results.get? "score").bind Json.number?

/-- What an experiment comes to. -/
structure Outcome where
  executed : Bool
  results : Json
  logs : Json
  deriving Inhabited

/-- The score that an experiment reports. -/
def Outcome.score (o : Outcome) : Option Float := scoreOf o.results

/-- The parents of a generation, best first. Position by position the lists speak of one parent. -/
structure Parents where
  sourceIter : Nat
  ids : List Int
  codes : List String
  scores : List Float
  deriving Inhabited

/-- The score of the best parent. -/
def Parents.bestScore (p : Parents) : Option Float := p.scores.head?

/-- The record of a slot. A field is absent as long as the step that fills it was not reached. -/
structure Candidate where
  iter : Nat
  sample : Nat
  finalCode : Option String
  buildStatus : Option Bool
  execStatus : Option Bool
  results : Option Json
  logs : Option Json
  revisions : List Revision
  parentIds : Option (List Int)
  parentCodes : Option (List String)
  deriving Inhabited

namespace Candidate

/-- The record names its parents. -/
def withParents (c : Candidate) (p : Parents) : Candidate :=
  { c with parentIds := some p.ids, parentCodes := some p.codes }

/-- The score of the experiment, if there was one and it reported a number. -/
def score (c : Candidate) : Option Float := c.results.bind scoreOf

/-- A candidate that was built and ran to the end can become a parent. -/
def eligible (c : Candidate) : Bool := c.buildStatus == some true && c.execStatus == some true

/-! ## Consistency -/

/-- What may be wrong with a record. -/
inductive Flaw where
  | noRevisions
  | tooManyRevisions (count bound : Nat)
  | statusDiffers (status : Option Bool) (last : Bool)
  | evaluationDiffers (present built : Bool)
  | noCode
  deriving DecidableEq, Repr

/-- The flaw of a record that is not to be kept when builds were tried at most `bound` times. -/
def flaw? (c : Candidate) (bound : Nat) : Option Flaw :=
  match c.revisions.getLast? with
  | none => some .noRevisions
  | some last =>
    if bound < c.revisions.length then some (.tooManyRevisions c.revisions.length bound)
    else if c.buildStatus ≠ some last.built then some (.statusDiffers c.buildStatus last.built)
    else if last.built ≠ c.results.isSome || last.built ≠ c.execStatus.isSome then
      some (.evaluationDiffers c.results.isSome last.built)
    else if last.built && c.finalCode.isNone then some .noCode
    else none

/-- How an optional truth value is written in a message. -/
def statusText : Option Bool → String
  | none => "None"
  | some b => "Some(" ++ toString b ++ ")"

/-- The wording of a flaw. -/
def Flaw.text : Flaw → String
  | .noRevisions => "record has no revisions"
  | .tooManyRevisions n bound =>
    toString n ++ " revisions exceed retry bound " ++ toString bound
  | .statusDiffers status last =>
    "build_status " ++ statusText status ++ " does not match last revision ("
      ++ toString last ++ ")"
  | .evaluationDiffers present built =>
    "evaluation fields present=" ++ toString present ++ " but build_status=" ++ toString built
  | .noCode => "built candidate has no final_code"

/-- A flaw with the slot in which it was found. -/
def flawMessage (c : Candidate) (f : Flaw) : String :=
  "iter=" ++ toString c.iter ++ " sample=" ++ toString c.sample ++ ": " ++ f.text

end Candidate

/-- What a run is: who asked for it, and when. It is written once. -/
structure RunInfo where
  runId : String
  task : String
  model : String
  createdAt : String
  info : Json
  deriving Inhabited

/-- A candidate as the ledger hands it out: with its id and the time at which it was recorded. -/
structure Stored where
  id : Int
  recordedAt : String
  record : Candidate
  deriving Inhabited

end HeuristicEvolution

import HeuristicEvolution.Config.Basic
import HeuristicEvolution.Evolution.Conversation

/-!
# Requests for runs

What one call that works on a run is asked for. What the caller states goes before the
configuration, and where both are silent there are defaults.

## Main definitions

* `Overrides`: what the caller states.
* `RunRequest.resolve`: the request in full, if it makes sense.
* `readArgument`: an argument of a task as a caller writes it.
-/

namespace HeuristicEvolution

/-- What the caller of a run states. -/
structure Overrides where
  task : Option String
  model : Option String
  workdir : Option String
  db : Option String
  preferences : Preferences
  arguments : List (String × Json)
  deriving Inhabited

/-- A request for a run in full. -/
structure RunRequest where
  task : String
  model : String
  workdir : String
  db : String
  runId : Option String
  start : Nat
  stop : Nat
  samples : Nat
  buildAttempts : Nat
  parents : Nat
  policy : Policy
  arguments : Json
  deriving Inhabited

namespace RunRequest

/-- The place of the ledger unless another one is chosen. -/
def standardLedger : String := ".evoforge/ledger.db"

/-- What is wrong with a request, if anything is. -/
def fault? (r : RunRequest) : Option String :=
  if r.stop ≤ r.start then
    some ("end_iter (" ++ toString r.stop ++ ") must be greater than start_iter ("
      ++ toString r.start ++ ")")
  else if r.runId.isNone && r.start ≠ 0 then
    some "a fresh run must start at iteration 0; pass --run-id to continue a run"
  else if r.samples = 0 then some "n_samples must be at least 1"
  else if r.buildAttempts = 0 then some "build_retries must be at least 1"
  else if r.parents = 0 then some "num_snippets must be at least 1"
  else if r.policy.requestTimeout = 0 then some "request_timeout_seconds must be at least 1"
  else none

/-- The request of a task and a model. -/
def fill (c : Configuration) (o : Overrides) (task model : String) (start stop : Nat)
    (runId : Option String) : RunRequest :=
  let mine := o.preferences
  let theirs := c.preferences
  { task, model, runId, start, stop
    workdir := (o.workdir.or c.workdir).getD "."
    db := (o.db.or c.db).getD standardLedger
    samples := (mine.samples.or theirs.samples).getD 25
    buildAttempts := (mine.buildAttempts.or theirs.buildAttempts).getD 3
    parents := (mine.parents.or theirs.parents).getD 2
    policy := { Policy.standard with
      retries := (mine.retries.or theirs.retries).getD 0
      requestTimeout := (mine.requestSeconds.or theirs.requestSeconds).getD Policy.standardTimeout }
    arguments := o.arguments.foldl (fun j (k, v) => j.insert k v) c.arguments }

/-- The request in full. A task and a model have to be chosen, and the rest has to make sense. -/
def resolve (c : Configuration) (o : Overrides) (start stop : Nat) (runId : Option String) :
    Except Failure RunRequest :=
  match o.task.or c.task, o.model.or c.model with
  | none, _ => .error (.configuration "no task selected (--task or \x60task:\x60)")
  | some _, none => .error (.configuration "no model selected (--model or \x60model:\x60)")
  | some task, some model =>
    let r := fill c o task model start stop runId
    match r.fault? with
    | some message => .error (.configuration message)
    | none => .ok r

end RunRequest

/-- The key of an argument: trimmed, without dashes in pairs at its head, and with underscores for
dashes. -/
def argumentKey (cs : List Char) : List Char :=
  (dropPairs (Text.trimList cs)).map fun c => if c = '-' then '_' else c
where
  /-- Dashes at the head go in pairs. -/
  dropPairs : List Char → List Char
    | '-' :: '-' :: rest => dropPairs rest
    | cs => cs

/-- Reads an argument, a key and a value with an equality sign between them. The value is read as a
document; if it is none, it is a text. -/
def readArgument (raw : String) : Except Failure (String × Json) :=
  let cs := raw.toList
  if !cs.contains '=' then .error (.configuration ("task arg '" ++ raw ++ "' is not key=value"))
  else
    let key := argumentKey (cs.takeWhile (· ≠ '='))
    let value := String.ofList ((cs.dropWhile (· ≠ '=')).drop 1)
    if key.isEmpty then .error (.configuration ("task arg '" ++ raw ++ "' has an empty key"))
    else .ok (String.ofList key, (Yaml.readValue? value).getD (.str value))

end HeuristicEvolution

import HeuristicEvolution.Failure
import HeuristicEvolution.Prompt.Basic
import HeuristicEvolution.Task.Argument
import HeuristicEvolution.World.Action

/-!
# Tasks

A task is a family of heuristics: priorities of a cache, or congestion control in a kernel module
or behind a probe. Its backend says what a model is asked, builds code and runs experiments.

## Main definitions

* `Task`: the tasks and their names.
* `Backend`: what a run drives for every candidate.
-/

namespace HeuristicEvolution

/-- The tasks. -/
inductive Task where
  /-- Eviction priorities in a cache simulator. -/
  | cache
  /-- Congestion control in a kernel module. -/
  | kernelModule
  /-- Congestion control behind a kernel probe. -/
  | probe
  deriving DecidableEq, Repr, Inhabited

namespace Task

/-- All tasks. -/
def all : List Task := [.cache, .kernelModule, .probe]

/-- The name under which a task is asked for. -/
def name : Task → String
  | .cache => "webcache"
  | .kernelModule => "tcp"
  | .probe => "tcpbpf"

/-- The task of a name. -/
def ofName (name : String) : Except Failure Task :=
  match all.find? fun t => t.name == name with
  | some t => .ok t
  | none =>
    .error (.configuration ("unknown task '" ++ name ++ "' (known: "
      ++ ", ".intercalate (all.map Task.name) ++ ")"))

/-- Arguments of a task; without any, the defaults count. -/
def readArguments (task : Task) (read : Json → Except ArgumentFault α) (j : Json) :
    Except Failure α :=
  let j := match j with
    | .null => .empty
    | j => j
  (read j).mapError fun fault =>
    .configuration ("invalid task_args for " ++ task.name ++ ": " ++ fault.message)

end Task

/-- What a run drives for every candidate. Builds that fail, commands that hang and experiments
that crash are results; a failure means that the surroundings are broken. -/
structure Backend where
  name : String
  initialPrompt : String
  mutationPrompt : (codes : List String) → String
  build : (code : String) → Action BuildResult
  experiment : Action Outcome
  /-- What is kept with a run. -/
  info : Json

namespace Backend

/-- A path below a directory. -/
def below (directory : String) (names : List String) : String := names.foldl Path.append directory

/-- The result of a build command; `late` is added to the log of one that ran out of time. -/
def buildResult (late : String) (r : CommandResult) : BuildResult :=
  if r.timedOut then .failed r.stdout (r.stderr ++ "\n" ++ late) else ⟨r.success, r.stdout, r.stderr⟩

/-- Something that has to be there before a run. -/
def needs (fs : Files) (path message : String) : Except Failure Unit :=
  if fs.exists? path then .ok () else .error (.configuration message)

/-- Several things that have to be there before a run. -/
def needsAll (fs : Files) (paths : List String) : Except Failure Unit :=
  paths.forM fun path => needs fs path (path ++ " not found")

end Backend

end HeuristicEvolution

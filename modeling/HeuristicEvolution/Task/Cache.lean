import HeuristicEvolution.Task.Basic
import HeuristicEvolution.Task.CacheScore

/-!
# The cache simulator

The code is put into the tree of the simulator, which is built afresh for every candidate and run
over a trace.

## Main definitions

* `Cache.build`, `Cache.experiment`, `Cache.backend`
-/

namespace HeuristicEvolution.Cache

/-- The tree of the simulator. -/
def directory (root : String) : String := Path.append root "webcache"

/-- The directory in which the simulator is built. -/
def buildDirectory (root : String) : String := Path.append (directory root) "build"

/-- The file in which the simulator expects the code. -/
def source (root : String) : String :=
  Path.append (directory root) "libCacheSim/libCacheSim/cache/eviction/PQEvolve/LLMCode.h"

/-- The directory of the traces, seen from the tree of the simulator. -/
def traces : String := "libCacheSim/data"

/-- The trace that is asked for. -/
def trace (root : String) (a : CacheArguments) : String :=
  Path.append (Path.append (directory root) traces) a.trace

/-- Empties the directory in which the simulator is built. -/
def clearBuild (root : String) : Action Unit := do
  if ← Action.files fun fs => fs.exists? (buildDirectory root) then
    Action.change (some "failed to clear build directory") fun fs =>
      fs.removeTree (buildDirectory root)
  Action.change (some "failed to create build directory") fun fs =>
    fs.makeDirectories (buildDirectory root)

/-- Builds the simulator with the code. -/
def build (root code : String) : Action BuildResult := do
  Action.change (some "failed to write candidate into the simulator tree") fun fs =>
    fs.writeText (source root) code
  clearBuild root
  let configured ← Action.run "cmake ../" (buildDirectory root)
  if configured.success then
    return Backend.buildResult "build timed out" (← Action.run "make -j" (buildDirectory root))
  else Action.fail (.other ("cmake configuration failed: " ++ configured.stderr))

/-- The script that runs the simulator over all sizes. -/
def script (a : CacheArguments) : String :=
  "./run_multiple_sizes.o ../" ++ traces ++ "/" ++ a.trace ++ (if a.percent then " percent " else " mb ")
    ++ " ".intercalate (a.sizes.map CacheArguments.sizeText)

/-- Runs the simulator. -/
def experiment (root : String) (a : CacheArguments) : Action Outcome := do
  return a.outcome (← Action.run (script a) (buildDirectory root))

/-- The backend of some arguments in a tree, if they make sense and the trace is there. -/
def backend (a : CacheArguments) (root : String) (fs : Files) : Except Failure Backend := do
  a.check
  Backend.needs fs (trace root a) ("trace " ++ trace root a ++ " not found")
  return {
    name := Task.cache.name
    initialPrompt := Prompt.initial Prompt.cacheContext "cpp" Prompt.replyPlan
    mutationPrompt := fun codes =>
      Prompt.mutation Prompt.cacheContext "cpp" codes Prompt.cachePlaceholder
    build := build root
    experiment := experiment root a
    info := .ofMembers [("task_args", a.toJson)] }

end HeuristicEvolution.Cache

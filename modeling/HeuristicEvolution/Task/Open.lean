import HeuristicEvolution.Task.Cache
import HeuristicEvolution.Task.KernelModule
import HeuristicEvolution.Task.Probe

/-!
# Opening a backend

The backend of a task is opened with arguments in a tree of files. Whatever keeps it from running,
an unknown task, arguments that make no sense or a tree without what it needs, is found here, before
a run begins.
-/

namespace HeuristicEvolution

/-- Opens the backend of a task. -/
def Task.backend (task : Task) (arguments : Json) (root : String) (fs : Files) :
    Except Failure Backend :=
  match task with
  | .cache => do Cache.backend (← task.readArguments CacheArguments.ofJson arguments) root fs
  | .kernelModule => do KernelModule.backend (← task.readArguments Link.ofJson arguments) root fs
  | .probe => do Probe.backend (← task.readArguments Link.ofJson arguments) root fs

/-- The paths that the backend of a task needs; none if its arguments make no sense. -/
def Task.needed (task : Task) (arguments : Json) (root : String) : List String :=
  let paths : Except Failure (List String) := match task with
    | .cache => do return [Cache.trace root (← task.readArguments CacheArguments.ofJson arguments)]
    | .kernelModule => do
      return KernelModule.needed ⟨← task.readArguments Link.ofJson arguments, root⟩
    | .probe => do return Probe.needed ⟨← task.readArguments Link.ofJson arguments, root⟩
  paths.toOption.getD []

/-- Opens the backend of the task of a name. -/
def Backend.open? (name : String) (arguments : Json) (root : String) (fs : Files) :
    Except Failure Backend := do
  (← Task.ofName name).backend arguments root fs

end HeuristicEvolution

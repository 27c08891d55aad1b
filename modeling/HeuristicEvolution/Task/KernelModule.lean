import HeuristicEvolution.Task.Emulation

/-!
# Congestion control in a kernel module

The code is put behind a template and compiled to a module. The kernel holds one such module at a
time: it is loaded for an experiment and unloaded afterwards, also when the flow fails or the call
is given up.

## Main definitions

* `KernelModule.experiment`: a flow with the module loaded.
* `KernelModule.backend`
-/

namespace HeuristicEvolution.KernelModule

/-- The directory in which the module is built. -/
def directory (root : String) : String := Path.append root "tcp_cc/kern_mod"

/-- The template that the code is put behind. -/
def template (root : String) : String := Path.append (directory root) "tcp_heuristic.template"

/-- The source of the module. -/
def source (root : String) : String := Path.append (directory root) "tcp_heuristic.c"

/-- The script that loads the module. -/
def loadScript : String := "sudo insmod tcp_heuristic.ko"

/-- The script that unloads the module. -/
def unloadScript : String := "sudo rmmod tcp_heuristic"

/-- Code behind a template, after a blank line. -/
def splice (template code : String) : String := template ++ "\n\n" ++ code ++ "\n"

/-- Compiles the code. -/
def build (root code : String) : Action BuildResult := do
  let text ← Action.readText "failed to read module template" (template root)
  Action.change (some "failed to write module source") fun fs =>
    fs.writeText (source root) (splice text code)
  return Backend.buildResult "build timed out" (← Action.run "make" (directory root))

/-- Runs a flow with the module loaded. A module that a broken run has left is unloaded first; one
that cannot be loaded is a failed experiment. -/
def experiment (e : Emulation) : Action Outcome := do
  let directory := directory e.root
  let _ ← Action.run unloadScript directory
  let load ← Action.run loadScript directory
  if load.success then
    let unload : Action Unit := do
      let _ ← Action.run unloadScript directory
    let report ← Action.ifAbandoned (Action.attempt e.runFlow) unload
    unload
    return (← Action.ofExcept report).outcome .empty
  else return ⟨false, .empty, .ofMembers [("insmod_logs", load.toJson)]⟩

/-- What has to be there. -/
def needed (e : Emulation) : List String := template e.root :: e.needed

/-- The backend of a link in a tree, if everything that it needs is there. -/
def backend (link : Link) (root : String) (fs : Files) : Except Failure Backend := do
  let e : Emulation := ⟨link, root⟩
  Backend.needsAll fs (needed e)
  return {
    name := Task.kernelModule.name
    initialPrompt := Prompt.initial Prompt.congestionContext "c" Prompt.replyPlan
    mutationPrompt := fun codes =>
      Prompt.mutation Prompt.congestionContext "c" codes Prompt.congestionPlaceholder
    build := build root
    experiment := experiment e
    info := .ofMembers [("task_args", link.toJson)] }

end HeuristicEvolution.KernelModule

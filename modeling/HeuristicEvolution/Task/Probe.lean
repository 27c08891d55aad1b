import HeuristicEvolution.Task.Emulation

/-!
# Congestion control behind a kernel probe

The code is compiled into a scaffold and attached by a loader that runs with the rights of the
system, so it is reached by name only and not through the helper that started it. A build clears
what an earlier candidate has left, compiles in up to three tries and attaches the result once as a
test.

## Main definitions

* `Probe.build`, `Probe.experiment`, `Probe.backend`
-/

namespace HeuristicEvolution.Probe

/-- The directory of the scaffold. -/
def directory (root : String) : String := Path.append root "tcp_cc/bpf_scaffolding"

/-- The file in which the scaffold expects the code. -/
def source (root : String) : String := Path.append (directory root) "LLMCode.h"

/-- The script that ends all loaders. -/
def killScript : String :=
  "ps aux | grep logi[c].py | tr -s ' ' | cut -d ' ' -f2 | xargs -r sudo kill -9"

/-- The script of the loader. -/
def loaderScript : String := "sudo python3 logic.py"

/-- The script that attaches the program as a test. -/
def testScript : String := "sudo python3 logic.py test"

/-- The scripts that take down what an earlier candidate has left. -/
def cleanupScripts : List String :=
  [killScript, "make clean", "sudo pkill iperf3", "sudo pkill mm-link", "sudo pkill mm-delay"]

/-- How often compiling is tried. -/
def tries : Nat := 3

/-- Takes down what an earlier candidate has left, whatever the commands say. -/
def cleanup (root : String) : Action Unit := do
  cleanupScripts.forM fun script => do
    let _ ← Action.run script (directory root)
  Action.tryChange fun fs => fs.removeFile (source root)

/-- Compiles, in several tries; after each failure a module that may block the build is unloaded.
`last` is the result of the try before. The result is absent if a try succeeded. -/
def compile (root : String) : (tries : Nat) → (last : CommandResult) → Action (Option CommandResult)
  | 0, last => return some last
  | tries + 1, _ => do
    let r ← Action.run "make" (directory root)
    if r.success then return none
    else
      let _ ← Action.run "sudo rmmod tcp_heuristic" (directory root)
      compile root tries r

/-- Compiles the code and attaches it as a test. -/
def build (root code : String) : Action BuildResult := do
  cleanup root
  Action.change (some "failed to write candidate into the bpf scaffold") fun fs =>
    fs.writeText (source root) code
  match ← compile root tries ⟨none, "", "", false⟩ with
  | some r => return .failed r.stdout r.stderr
  | none =>
    return Backend.buildResult "probe test timed out" (← Action.run testScript (directory root))

/-- Runs a flow with the program attached. The loader is ended before its output is taken, and the
failures of the flow and of the listing are looked at last. -/
def experiment (e : Emulation) : Action Outcome := do
  let directory := directory e.root
  let loader ← Action.startHelper "bpf-probe" loaderScript directory
  let report ← Action.attempt e.runFlow
  let listing ← Action.attempt (Action.run "sudo bpftool prog show" directory)
  let _ ← Action.run killScript directory
  let loaded ← loader.stop
  let report ← Action.ofExcept report
  let listing ← Action.ofExcept listing
  return report.outcome
    (.ofMembers [("bpf_logs", loaded.toJson), ("bpftool_logs", .str listing.stdout)])

/-- What has to be there. -/
def needed (e : Emulation) : List String := directory e.root :: e.needed

/-- The backend of a link in a tree, if everything that it needs is there. -/
def backend (link : Link) (root : String) (fs : Files) : Except Failure Backend := do
  let e : Emulation := ⟨link, root⟩
  Backend.needsAll fs (needed e)
  return {
    name := Task.probe.name
    initialPrompt := Prompt.initial Prompt.probeContext "c" Prompt.replyPlan
    mutationPrompt := fun codes =>
      Prompt.mutation Prompt.probeContext "c" codes Prompt.probePlaceholder
    build := build root
    experiment := experiment e
    info := .ofMembers [("task_args", link.toJson)] }

end HeuristicEvolution.Probe

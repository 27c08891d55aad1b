import HeuristicEvolution.Text.Utf8
import HeuristicEvolution.World.Command

/-!
# Actions

What a task does with files and commands. An action reads and changes the world, and may fail or be
given up; what it did until then stays done. Every command that was started is on record.

A command that is waited for has a time limit. One that is still running when the limit passes is
killed with all that it started, and its output so far is its result: running out of time is no
failure.

A call can be given up wherever it waits: for a command, for the end of a helper, or for the files.
What was asked of the files is done all the same, for nobody takes it back.

## Main definitions

* `World`, `Action`: the world, and steps that change it.
* `Action.change`, `Action.tryChange`, `Action.readText`: working with the files.
* `Action.run`: a command with a time limit.
* `Helper`, `Action.startHelper`, `Helper.stop`: a command that runs beside others.
* `Action.attempt`, `Action.ifAbandoned`: failures as values, and what is done when a call is given
  up.
-/

namespace HeuristicEvolution

/-- Files, the host that answers commands, and the commands started so far, in order. -/
structure World where
  files : Files
  host : Host
  started : List Command := []
  /-- How many times the call still waits for the files before it is given up in such a wait; it is
  absent if it never is. Whether it is given up in the wait for a command, the host tells. -/
  patience : Option Nat := none

/-- Why an action ends before its end. -/
inductive Halt where
  | failed (e : Failure)
  /-- The call was given up while it waited. -/
  | abandoned
  deriving DecidableEq, Repr, Inhabited

/-- Steps that change the world and keep what they changed when they halt. -/
abbrev Action (α : Type) := EStateM Halt World α

/-- What a command that has ended leaves. -/
structure CommandResult where
  code : Option Nat
  stdout : String
  stderr : String
  timedOut : Bool
  deriving DecidableEq, Repr, Inhabited

namespace CommandResult

/-- The command ended in time and without a complaint. -/
def success (r : CommandResult) : Bool := !r.timedOut && r.code == some 0

/-- The members under which a result is logged. -/
def toJson (r : CommandResult) : Json :=
  .ofMembers [("returncode", (r.code.map Json.ofNat).getD .null), ("stdout", .str r.stdout),
    ("stderr", .str r.stderr), ("timed_out", .bool r.timedOut)]

/-- A result with trimmed output. -/
def ofReaction (r : Reaction) (code : Option Nat) (timedOut : Bool) : CommandResult :=
  ⟨code, Text.trim r.stdout, Text.trim r.stderr, timedOut⟩

end CommandResult

namespace Action

/-- Fails. -/
def fail (e : Failure) : Action α := throw (.failed e)

/-- The outcome of an action as a value; only giving up goes on. -/
def attempt (body : Action α) : Action (Except Failure α) := fun w =>
  match body w with
  | .ok a w => .ok (.ok a) w
  | .error (.failed e) w => .ok (.error e) w
  | .error .abandoned w => .error .abandoned w

/-- An outcome that goes on as it is. -/
def ofExcept : Except Failure α → Action α
  | .ok a => pure a
  | .error e => fail e

/-- What is done when an action is given up. -/
def ifAbandoned (body : Action α) (release : Action Unit) : Action α := fun w =>
  match body w with
  | .error .abandoned w =>
    match release w with
    | .ok _ w | .error _ w => .error .abandoned w
  | r => r

/-! ## Files -/

/-- Looks at the files. -/
def files (look : Files → α) : Action α := fun w => .ok (look w.files) w

/-- Waits for the files. -/
def pause : Action Unit := fun w =>
  match w.patience with
  | none => .ok () w
  | some 0 => .error .abandoned w
  | some (left + 1) => .ok () { w with patience := some left }

/-- Does something to the files if that can be done, and waits for it. -/
def edit (op : Files → Except FileFault Files) : Action (Except FileFault Unit) := do
  let done ← modifyGet fun w =>
    let done := op w.files
    (done.map fun _ => (), { w with files := done.toOption.getD w.files })
  pause
  return done

/-- Changes the files, or fails with the given context. -/
def change (context : Option String) (op : Files → Except FileFault Files) : Action Unit := do
  match ← edit op with
  | .ok _ => return
  | .error _ => fail (.system context)

/-- Changes the files if that can be done. -/
def tryChange (op : Files → Except FileFault Files) : Action Unit := do
  let _ ← edit op

/-- The text of a file, or a failure with the given context. -/
def readText (context path : String) : Action String := do
  let text ← files fun fs => fs.readText path
  pause
  match text with
  | .ok s => return s
  | .error _ => fail (.system (some context))

/-! ## Commands -/

/-- Starts a command in its directory, which has to be there, and lets it do what it does. A script
cannot be handed over with a zero byte in it. -/
def start (context : String) (c : Command) : Action Reaction := fun w =>
  if w.files.isDirectory c.directory && !c.script.toUTF8.data.toList.contains 0 then
    let r := w.host w.started c w.files
    .ok r { w with files := r.edits.foldl Edit.apply w.files, started := w.started ++ [c] }
  else .error (.failed (.system (some context))) w

/-- Waits for a command until its limit. -/
def wait (r : Reaction) : Action CommandResult :=
  match r.ending with
  | .exits code => pure (.ofReaction r (some code) false)
  | .dies => pure (.ofReaction r none false)
  | .hangs | .serves _ | .deaf => pure (.ofReaction r none true)
  | .abandons => throw .abandoned

/-- Waits for a command without a limit. One that does not end is waited for until the call is
given up. -/
def waitForEnd (r : Reaction) : Action CommandResult :=
  match r.ending with
  | .exits code => pure (.ofReaction r (some code) false)
  | .dies => pure (.ofReaction r none false)
  | .hangs | .serves _ | .deaf | .abandons => throw .abandoned

/-- Starts a script in a directory. -/
def startScript (script directory : String) : Action Reaction :=
  start "failed to spawn subprocess" ⟨.script, script, directory⟩

/-- Runs a script in a directory within a time limit. -/
def run (script directory : String) : Action CommandResult := do
  wait (← startScript script directory)

/-- Runs a script in a directory to its end. -/
def runToEnd (script directory : String) : Action CommandResult := do
  waitForEnd (← startScript script directory)

end Action

/-! ## Helpers -/

/-- A command that runs beside others. Whoever holds it has to stop it; it is killed when the call
that holds it ends in any other way. -/
structure Helper where
  reaction : Reaction
  deriving Inhabited

/-- Starts a helper under a label, and does not wait for it. -/
def Action.startHelper (label script directory : String) : Action Helper := do
  return ⟨← Action.start ("failed to spawn " ++ label) ⟨.helper, script, directory⟩⟩

namespace Helper

/-- Interrupts a helper and waits for its end. One that ignores the interrupt is killed after a
time of grace and has no exit code. -/
def stop (h : Helper) : Action CommandResult :=
  match h.reaction.ending with
  | .exits code | .serves code => pure (.ofReaction h.reaction (some code) false)
  | .dies | .hangs | .deaf => pure (.ofReaction h.reaction none false)
  | .abandons => throw .abandoned

/-- Whether letting a helper go kills it: one that has ended before is left alone. -/
def killedOnRelease (h : Helper) : Bool :=
  match h.reaction.ending with
  | .exits _ | .dies => false
  | .hangs | .serves _ | .deaf | .abandons => true

end Helper

end HeuristicEvolution

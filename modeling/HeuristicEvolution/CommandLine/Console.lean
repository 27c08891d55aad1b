import HeuristicEvolution.Evolution.Live
import HeuristicEvolution.World.Checkout
import HeuristicEvolution.World.LedgerFile

/-!
# The console

What a command prints, and how a failure of a command is reported. Results go to the standard
output and reports to the standard error. A failure is reported with its causes, and its kind
decides the exit code: two for what lies in how the program was asked, and one for all else.

## Main definitions

* `Console`, `Job`: what a command works with, and its steps.
* `Fault`: a failure with its causes.
-/

namespace HeuristicEvolution.CommandLine

/-- A failure as a command reports it: what could not be done, and the causes, the nearest first. -/
structure Fault where
  message : String
  causes : List String
  isConfiguration : Bool
  deriving DecidableEq, Repr, Inhabited

namespace Fault

/-- A failure that is its own cause. -/
def ofFailure (e : Failure) : Fault := ⟨e.message, [], e.isConfiguration⟩

/-- A refusal of the system. -/
def ofFileFault (e : FileFault) : Fault := ⟨e.message, [], false⟩

/-- A ledger that cannot be opened. One that holds something else is found out only when it is
looked into, and then its place is not reported. -/
def ofLedgerFault (path : String) (e : LedgerFault) : Fault :=
  let (message, causes) := e.chain
  match e with
  | .notLedger => ⟨message, causes, false⟩
  | .noDirectory _ _ | .unopened _ =>
    ⟨"failed to open ledger " ++ path, message :: causes, false⟩

/-- A cause, indented by a margin; its further lines stand below the first. -/
def indented (first others cause : String) : String :=
  first ++ ("\n" ++ others).intercalate (cause.splitOn "\n")

/-- The causes as they are listed; several are numbered. -/
def listed : List String → String
  | [] => ""
  | [cause] => "\n\nCaused by:\n" ++ indented "    " "    " cause
  | causes =>
    "\n\nCaused by:" ++ String.join (causes.mapIdx fun i cause =>
      let number := toString i
      "\n" ++ indented ("".pushn ' ' (5 - number.length) ++ number ++ ": ") "       " cause)

/-- The report of a failure. -/
def report (e : Fault) : String := "fatal: " ++ e.message ++ listed e.causes ++ "\n"

/-- The exit code of a failed command. -/
def exitCode (e : Fault) : Nat := if e.isConfiguration then 2 else 1

end Fault

/-- What a command works with: its surroundings, and what it has printed so far. -/
structure Console where
  surroundings : Surroundings
  stdout : String
  stderr : String

/-- Steps of a command. -/
abbrev Job (α : Type) := EStateM Fault Console α

namespace Job

/-- Prints a text as a result. -/
def print (text : String) : Job Unit := modify fun c => { c with stdout := c.stdout ++ text }

/-- Prints a text as a report. -/
def note (text : String) : Job Unit := modify fun c => { c with stderr := c.stderr ++ text }

/-- An outcome that goes on as it is. -/
def ofExcept : Except Failure α → Job α
  | .ok a => pure a
  | .error e => throw (.ofFailure e)

/-- Looks at the files. -/
def files (look : Files → α) : Job α := return look (← get).surroundings.world.files

/-- Puts other files in place. -/
def setFiles (fs : Files) : Job Unit :=
  modify fun c =>
    { c with surroundings :=
        { c.surroundings with world := { c.surroundings.world with files := fs } } }

/-- Changes the files. -/
def change (edit : Files → Except FileFault Files) : Job Unit := do
  match ← files edit with
  | .ok fs => setFiles fs
  | .error e => throw (.ofFileFault e)

/-- Makes the directory in which a file lies. -/
def makeDirectoryOf (path : String) : Job Unit :=
  match Path.parentText? path with
  | none => pure ()
  | some parent => change fun fs => fs.makeDirectories parent

/-- Opens a ledger. -/
def openLedger (path : String) : Job Ledger := do
  match ← files fun fs => fs.openLedger path with
  | .ok (l, fs) =>
    setFiles fs
    return l
  | .error e => throw (.ofLedgerFault path e)

/-- Keeps a ledger in its file. -/
def keepLedger (path : String) (l : Ledger) : Job Unit := do
  setFiles (← files fun fs => fs.keepLedger path l)

/-- The source revision of the current directory. -/
def checkout : Job (Option Evolution.Checkout) := do
  let c ← get
  let (found, s) :=
    c.surroundings.perform (Action.checkout c.surroundings.world.files.currentDirectory)
  set { c with surroundings := s }
  return (found.toOption).join

end Job

end HeuristicEvolution.CommandLine

import HeuristicEvolution.Json.Stored
import HeuristicEvolution.Ledger.Column

/-!
# The ledger

Runs, the calls that worked on them, and their candidates. The ledger only grows: rows are added
at the end and none is changed or taken away by a run. Within a run each slot has at most one
candidate, and ids are handed out in ascending order over all runs.

## Main definitions

* `Constraint`, `Ledger.putRun`, `Ledger.putInvocation`, `Ledger.putCandidate`: the tables and what
  they refuse.
* `Ledger.addRun`, `Ledger.recordInvocation`, `Ledger.insert`: the three ways in which it grows.
* `Ledger.freshRunId`: the first unused name of a run.
* `Ledger.run?`, `Ledger.runInfo?`, `Ledger.row?`, `Ledger.holds`: looking up.
-/

namespace HeuristicEvolution

/-- One call that worked on a run. -/
structure Invocation where
  runId : String
  start : Nat
  stop : Nat
  samples : Nat
  model : String
  commit : Option String
  dirty : Option Bool
  deriving DecidableEq, Repr, Inhabited

/-- A candidate as it is kept: its place, what queries look at, and columns with the rest. -/
structure Row where
  id : Int
  runId : String
  iter : Nat
  sample : Nat
  finalCode : Option String
  buildStatus : Option Bool
  execStatus : Option Bool
  score : Option Float
  results : Column
  logs : Column
  revisions : Column
  parentIds : Column
  parentCodes : Column
  recordedAt : String
  deriving Inhabited

namespace Row

/-- The row of a candidate. The score is kept beside the results so that queries can rank by it;
a zero is kept without its sign. -/
def ofCandidate (id : Int) (runId recordedAt : String) (c : Candidate) : Row where
  id := id
  runId := runId
  iter := c.iter
  sample := c.sample
  finalCode := c.finalCode
  buildStatus := c.buildStatus
  execStatus := c.execStatus
  score := c.score.map Binary.dropZeroSign
  results := .ofValue (c.results.map Json.asStored)
  logs := .ofValue (c.logs.map Json.asStored)
  revisions := .value (.arr (c.revisions.map Revision.toJson))
  parentIds := .ofValue (c.parentIds.map fun ids => .arr (ids.map .int))
  parentCodes := .ofValue (c.parentCodes.map .ofTexts)
  recordedAt := recordedAt

/-- The candidate of a row. -/
def candidate (r : Row) : Except Failure Stored := do
  let results ← r.results.read fun j => some j.sorted
  let logs ← r.logs.read fun j => some j.sorted
  let revisions ← r.revisions.read (Json.listOf? Revision.ofJson?)
  let parentIds ← r.parentIds.read (Json.listOf? Json.int64?)
  let parentCodes ← r.parentCodes.read Json.texts?
  return { id := r.id, recordedAt := r.recordedAt,
           record := { iter := r.iter, sample := r.sample, finalCode := r.finalCode,
                       buildStatus := r.buildStatus, execStatus := r.execStatus, results, logs,
                       revisions := revisions.getD [], parentIds, parentCodes } }

/-- The row stands in the given slot of the given run. -/
def isAt (r : Row) (runId : String) (iter sample : Nat) : Bool :=
  r.runId == runId && r.iter == iter && r.sample == sample

end Row

/-- A constraint of a table that a new row would violate. -/
inductive Constraint where
  /-- There is a row with this key. -/
  | primaryKey
  /-- There is a row with these values, of which no two rows may have the same. -/
  | unique
  /-- There is no row that the new one could refer to. -/
  | foreignKey
  deriving DecidableEq, Repr, Inhabited

/-- The number by which the database names a violation. -/
def Constraint.code : Constraint → Nat
  | .primaryKey => 1555
  | .unique => 2067
  | .foreignKey => 787

/-- Runs, calls and candidates, each in the order in which they were added, and the id that the
next candidate gets. -/
structure Ledger where
  runs : List RunInfo
  invocations : List Invocation
  rows : List Row
  nextId : Int
  deriving Inhabited

namespace Ledger

/-- A ledger in which nothing is recorded. -/
def empty : Ledger := ⟨[], [], [], 1⟩

/-- The run of a name. -/
def run? (l : Ledger) (runId : String) : Option RunInfo := l.runs.find? (·.runId == runId)

/-- The run of a name with what is kept about it, which may be too deep to be read. -/
def runInfo? (l : Ledger) (runId : String) : Except Failure (Option RunInfo) :=
  match l.run? runId with
  | none => .ok none
  | some run => if run.info.depth ≤ Json.depthLimit then .ok (some run) else .error .badColumn

/-- The row of a slot. -/
def row? (l : Ledger) (runId : String) (iter sample : Nat) : Option Row :=
  l.rows.find? (·.isAt runId iter sample)

/-- The slot has a candidate. -/
def holds (l : Ledger) (runId : String) (iter sample : Nat) : Bool :=
  l.rows.any (·.isAt runId iter sample)

/-- The name of the `n`-th run of a task. -/
def runName (task : String) (n : Nat) : String := task ++ "_" ++ toString n

/-- The first name of a task's runs that is not in use. With `k` runs in the ledger, one of the
first `k + 1` names is free. -/
def freshRunId (l : Ledger) (task : String) : String :=
  runName task <| ((List.range (l.runs.length + 1)).find? fun n =>
    (l.run? (runName task n)).isNone).getD l.runs.length

/-! ### Tables -/

/-- Puts a row into the table of runs, in which names are keys. -/
def putRun (l : Ledger) (run : RunInfo) : Except Constraint Ledger :=
  if (l.run? run.runId).isSome then .error .primaryKey
  else .ok { l with runs := l.runs ++ [run] }

/-- Puts a row into the table of calls, each of which refers to a run. -/
def putInvocation (l : Ledger) (call : Invocation) : Except Constraint Ledger :=
  if (l.run? call.runId).isNone then .error .foreignKey
  else .ok { l with invocations := l.invocations ++ [call] }

/-- Puts a row into the table of candidates. No two of them stand in one slot, which is checked
first, and each refers to a run. A row that is refused uses no id. -/
def putCandidate (l : Ledger) (runId recordedAt : String) (c : Candidate) :
    Except Constraint (Int × Ledger) :=
  if l.holds runId c.iter c.sample then .error .unique
  else if (l.run? runId).isNone then .error .foreignKey
  else
    .ok (l.nextId, { l with
      rows := l.rows ++ [Row.ofCandidate l.nextId runId recordedAt c]
      nextId := l.nextId + 1 })

/-! ### What is reported -/

/-- Adds a run under a name of its own. Its information is kept as text. -/
def addRun (l : Ledger) (run : RunInfo) : Except Failure Ledger :=
  (l.putRun { run with info := run.info.asStored }).mapError fun _ =>
    .ledger (some ("failed to create run " ++ run.runId))

/-- Notes a call that works on a run of the ledger. -/
def recordInvocation (l : Ledger) (call : Invocation) : Except Failure Ledger :=
  (l.putInvocation call).mapError fun _ => .ledger none

/-- Why a candidate was not added. Only a slot that is filled has a report of its own, and it is
told by the number of the violation. -/
def insertFailure (runId : String) (c : Candidate) (violated : Constraint) : Failure :=
  if violated.code = Constraint.unique.code then .duplicateRecord runId c.iter c.sample
  else .ledger (some "failed to insert candidate")

/-- Adds the candidate of a free slot, and gives its id. A slot is filled once. -/
def insert (l : Ledger) (runId recordedAt : String) (c : Candidate) :
    Except Failure (Int × Ledger) :=
  (l.putCandidate runId recordedAt c).mapError (insertFailure runId c)

end Ledger

end HeuristicEvolution

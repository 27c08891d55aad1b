import HeuristicEvolution.Ledger.Basic

/-!
# Questions to the ledger

Listings, counts and rankings. Scores are compared as numbers, the higher one first; equal scores
keep the order in which the candidates were recorded.

## Main definitions

* `Ledger.candidates`: all candidates of a run by slot.
* `Ledger.eligible`, `Ledger.top`: rankings.
* `Ledger.listing`, `Ledger.counts`: overviews of runs and of the iterations of one run.
-/

namespace HeuristicEvolution

namespace Row

/-- Slots are ordered by iteration, then by sample. -/
def slotLE (a b : Row) : Bool := a.iter < b.iter || (a.iter == b.iter && a.sample ≤ b.sample)

/-- The order key of a row's score; only rows with a score are ranked. -/
def scoreKey (r : Row) : Int := (r.score.map Binary.key).getD 0

/-- The better score goes first, and of equal ones the lower id. -/
def rankLE (a b : Row) : Bool :=
  b.scoreKey < a.scoreKey || (a.scoreKey == b.scoreKey && a.id ≤ b.id)

/-- The candidate was built and ran to the end. -/
def succeeded (r : Row) : Bool := r.buildStatus == some true && r.execStatus == some true

/-- The candidate succeeded and has a score. -/
def ranked (r : Row) : Bool := r.succeeded && r.score.isSome

end Row

/-- The best of some scores. -/
def bestScore : List Float → Option Float
  | [] => none
  | x :: xs => some (xs.foldl (fun best s => if Binary.key best < Binary.key s then s else best) x)

/-- What a listing of runs says about one of them. -/
structure RunListing where
  runId : String
  task : String
  model : String
  createdAt : String
  candidates : Nat
  bestScore : Option Float
  deriving Inhabited

/-- What came of one iteration of a run. -/
structure IterationCounts where
  iter : Nat
  recorded : Nat
  built : Nat
  evaluated : Nat
  bestScore : Option Float
  deriving Inhabited

/-- The counts of an iteration as they are written. -/
def IterationCounts.toJson (c : IterationCounts) : Json :=
  .obj [("iter", .ofNat c.iter), ("recorded", .ofNat c.recorded), ("built", .ofNat c.built),
    ("evaluated", .ofNat c.evaluated), ("best_score", (c.bestScore.map Json.ofFloat).getD .null)]

namespace Ledger

/-- The rows of a run in the order in which they were recorded. -/
def rowsOf (l : Ledger) (runId : String) : List Row := l.rows.filter (·.runId == runId)

/-- How many calls have worked on a run. -/
def invocationCount (l : Ledger) (runId : String) : Nat :=
  l.invocations.countP (·.runId == runId)

/-- The candidate of a slot. -/
def candidate? (l : Ledger) (runId : String) (iter sample : Nat) :
    Except Failure (Option Stored) :=
  match l.row? runId iter sample with
  | none => .ok none
  | some r => r.candidate.map some

/-- The candidates of a run in the order of their slots. -/
def candidates (l : Ledger) (runId : String) : Except Failure (List Stored) :=
  ((l.rowsOf runId).mergeSort Row.slotLE).mapM Row.candidate

/-- The rows of a run up to an iteration that can be parents, best first: they succeeded, have a
score, and their code is known. -/
def eligible (l : Ledger) (runId : String) (maxIter : Nat) : List Row :=
  ((l.rowsOf runId).filter fun r => r.iter ≤ maxIter && r.ranked && r.finalCode.isSome).mergeSort
    Row.rankLE

/-- The best candidates of a run. -/
def top (l : Ledger) (runId : String) (limit : Nat) : Except Failure (List Stored) :=
  ((((l.rowsOf runId).filter Row.ranked).mergeSort Row.rankLE).take limit).mapM Row.candidate

/-- The best score among rows that succeeded. -/
def bestOf (rows : List Row) : Option Float :=
  HeuristicEvolution.bestScore ((rows.filter Row.succeeded).filterMap Row.score)

/-- All runs by the time of their creation, then by name. -/
def listing (l : Ledger) : List RunListing :=
  let before (a b : RunInfo) : Bool :=
    a.createdAt < b.createdAt || (a.createdAt == b.createdAt && a.runId ≤ b.runId)
  (l.runs.mergeSort before).map fun run =>
    let rows := l.rowsOf run.runId
    { runId := run.runId, task := run.task, model := run.model, createdAt := run.createdAt,
      candidates := rows.length, bestScore := bestOf rows }

/-- The iterations of a run that have a candidate, in ascending order. -/
def iterations (l : Ledger) (runId : String) : List Nat :=
  (((l.rowsOf runId).map Row.iter).eraseDups).mergeSort

/-- What came of each iteration of a run. -/
def counts (l : Ledger) (runId : String) : List IterationCounts :=
  (l.iterations runId).map fun iter =>
    let rows := (l.rowsOf runId).filter (·.iter == iter)
    { iter, recorded := rows.length, built := rows.countP (·.buildStatus == some true),
      evaluated := rows.countP (·.execStatus == some true), bestScore := bestOf rows }

end Ledger

end HeuristicEvolution

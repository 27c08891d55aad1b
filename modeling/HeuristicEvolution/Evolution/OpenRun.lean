import HeuristicEvolution.Evolution.Basic

/-!
# Opening a run

A run is continued under its name, or a fresh one is made. A fresh run carries what the backend
says about itself, its own name and the source revision.
-/

namespace HeuristicEvolution.Evolution

/-- The source revision as it is kept with a run; `null` outside a repository. -/
def Checkout.toJson : Option Checkout → Json
  | none => .null
  | some c => .ofMembers [("commit", .str c.commit), ("dirty", .bool c.dirty),
      ("status", .str c.status)]

/-- What is kept with a run: an object of the backend's own, or its value under `backend`, and in
either case the run's name and the source revision. -/
def runMetadata (runId : String) (backend : Json) (checkout : Option Checkout) : Json :=
  let base := match backend with
    | .obj _ => backend
    | other => .ofMembers [("backend", other)]
  (base.insert "run_id" (.str runId)).insert "git" (Checkout.toJson checkout)

/-- A run that is continued has to exist, can be read, and has to be of the same task. -/
def continueRun (l : Ledger) (task runId : String) : Except Failure String := do
  match ← l.runInfo? runId with
  | none => .error (.unknownRun runId)
  | some run => if run.task = task then .ok runId else .error (.taskMismatch runId run.task task)

/-- Makes a run under the first free name of its task. -/
def freshRun (l : Ledger) (task model now : String) (backend : Json)
    (checkout : Option Checkout) : Except Failure (String × Ledger) :=
  let runId := l.freshRunId task
  (l.addRun ⟨runId, task, model, now, runMetadata runId backend checkout⟩).map fun l => (runId, l)

/-- Opens the requested run, or a fresh one if none is requested. -/
def openRun (l : Ledger) (task model now : String) (requested : Option String) (backend : Json)
    (checkout : Option Checkout) : Except Failure (String × Ledger) :=
  match requested with
  | some runId => (continueRun l task runId).map fun runId => (runId, l)
  | none => freshRun l task model now backend checkout

end HeuristicEvolution.Evolution

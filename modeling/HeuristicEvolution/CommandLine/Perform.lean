import HeuristicEvolution.CommandLine.Console
import HeuristicEvolution.CommandLine.Order
import HeuristicEvolution.Evolution.OpenRun
import HeuristicEvolution.Json.Printer
import HeuristicEvolution.Report
import HeuristicEvolution.Task.Open

/-!
# Doing what is ordered

Commands that only read a ledger never make one: without a file there are no runs. A run settles
everything that its configuration decides (settings, service, task and its tree) before it touches
the ledger.

## Main definitions

* `Order.perform`: an order in its surroundings.
* `respond`: the answer to the words of a command line.
* `Result`: what a command leaves.
-/

namespace HeuristicEvolution.CommandLine

/-- What a command leaves. -/
structure Result where
  exitCode : Nat
  stdout : String
  stderr : String
  deriving DecidableEq, Repr, Inhabited

/-- The version of the program. -/
def programVersion : String := "0.4.0"

namespace Order

/-! ## A first configuration -/

/-- The file that names what version control should pass over. -/
def ignoreFile : String := ".gitignore"

/-- What version control should pass over. -/
def ignored : String := "/.evoforge/\n*.db-shm\n*.db-wal\n"

/-- Writes a configuration to begin with, unless there is one. -/
def prepareConfig (config : String) : Job Unit := do
  if ← Job.files fun fs => fs.exists? config then
    Job.note ("note: " ++ config ++ " already exists\n")
  else
    Job.makeDirectoryOf config
    Job.setFiles (← Job.ofExcept (← Job.files fun fs => Configuration.writeSample fs config))
    Job.note ("created " ++ config ++ "\n")

/-- Writes a list of what version control should pass over, unless there is one. -/
def prepareIgnoreFile : Job Unit := do
  if ← Job.files fun fs => fs.exists? ignoreFile then
    Job.note ("note: " ++ ignoreFile ++ " already exists (skipped)\n")
  else
    Job.change fun fs => fs.writeText ignoreFile ignored
    Job.note ("created " ++ ignoreFile ++ "\n")

/-! ## Reading a ledger -/

/-- The ledger at a path, if there is one. -/
def existingLedger? (path : String) : Job (Option Ledger) := do
  if ← Job.files fun fs => fs.exists? path then return some (← Job.openLedger path)
  else return none

/-- The ledger that holds a run, and the run. -/
def runIn (path runId : String) : Job (Ledger × RunInfo) := do
  match ← existingLedger? path with
  | none => Job.ofExcept (.error (.unknownRun runId))
  | some l =>
    match ← Job.ofExcept (l.runInfo? runId) with
    | none => Job.ofExcept (.error (.unknownRun runId))
    | some info => return (l, info)

/-- Lists the runs of a ledger. -/
def listRuns (path : String) : Job Unit := do
  let runs := ((← existingLedger? path).map Ledger.listing).getD []
  if runs.isEmpty then Job.note ("no runs in " ++ path ++ "\n")
  else Job.print (String.join (runs.map Report.listingLine))

/-- Sums up a run. -/
def summarizeRun (path runId : String) (top : Nat) (json : Bool) : Job Unit := do
  let (l, info) ← runIn path runId
  let counts := l.counts runId
  let best ← Job.ofExcept (l.top runId top)
  if json then
    let document := Json.ofMembers [("run", info.toJson),
      ("iterations", .arr (counts.map IterationCounts.toJson)),
      ("top", .arr (best.map Stored.toJson))]
    Job.print (document.sorted.pretty ++ "\n")
  else Job.note (Report.run info counts (best.map Stored.record))

/-- Prints one candidate, or only its code. -/
def printCandidate (path runId : String) (iter sample : Nat) (codeOnly : Bool) : Job Unit := do
  let (l, _) ← runIn path runId
  match ← Job.ofExcept (l.candidate? runId iter sample) with
  | none =>
    Job.ofExcept (.error (.other ("no record for iteration " ++ toString iter ++ " sample "
      ++ toString sample ++ " in run '" ++ runId ++ "'")))
  | some stored =>
    if codeOnly then
      match stored.record.finalCode with
      | some code => Job.print (code ++ "\n")
      | none =>
        Job.ofExcept (.error (.other ("record " ++ toString iter ++ "/" ++ toString sample
          ++ " of run '" ++ runId ++ "' has no code")))
    else Job.print (stored.toJson.pretty ++ "\n")

/-! ## Runs -/

/-- The configuration of a run: the named file, or the one at the usual place if it is there, and
then the environment. -/
def configuration (o : RunOrder) (lookup : String → Option String) (fs : Files) :
    Except Failure Configuration := do
  let fromFile ← match o.config with
    | some path => Configuration.load fs path o.strict
    | none =>
      if fs.exists? standardConfig then Configuration.load fs standardConfig o.strict
      else .ok .empty
  match fromFile.applyEnvironment lookup with
  | (.ok (), c) => return c
  | (.error e, _) => throw e

/-- The request of a run in full. -/
def request (o : RunOrder) (lookup : String → Option String) (fs : Files) :
    Except Failure RunRequest := do
  let c ← configuration o lookup fs
  let arguments ← o.arguments.mapM readArgument
  RunRequest.resolve c { o.overrides with arguments } o.start o.stop o.runId

/-- Everything that is settled before a run touches its ledger. -/
def settle (o : RunOrder) (lookup : String → Option String) (fs : Files) :
    Except Failure (RunRequest × Endpoint × Backend) := do
  let r ← request o lookup fs
  let endpoint ← Endpoint.ofShortName lookup r.model
  let backend ← Backend.open? r.task r.arguments r.workdir fs
  return (r, endpoint, backend)

/-- Opens the run of a request in a ledger. -/
def openRun (r : RunRequest) (backend : Backend) (now : String) (l : Ledger) :
    Job (String × Ledger) := do
  let checkout ← if r.runId.isNone then Job.checkout else pure none
  Job.ofExcept (Evolution.openRun l r.task r.model now r.runId backend.info checkout)

/-- Works on a run; the ledger is kept as far as it has come. -/
def workOn (r : RunRequest) (endpoint : Endpoint) (backend : Backend) (runId now : String)
    (l : Ledger) : Job Evolution.Summary := do
  let checkout ← Job.checkout
  let settings : Evolution.Settings := ⟨r.samples, r.buildAttempts, r.parents, r.policy⟩
  let c ← get
  match Evolution.evolve (Surroundings.laboratory endpoint backend) runId now settings r.start
      r.stop checkout ⟨l, c.surroundings⟩ with
  | .ok summary s =>
    set { c with surroundings := s.world }
    Job.keepLedger r.db s.ledger
    return summary
  | .error e s =>
    set { c with surroundings := s.world }
    Job.keepLedger r.db s.ledger
    throw (.ofFailure e)

/-- Runs or continues an evolution. -/
def carryOut (o : RunOrder) (lookup : String → Option String) (now : String) : Job Unit := do
  let (r, endpoint, backend) ← Job.ofExcept (← Job.files (settle o lookup))
  let l ← Job.openLedger r.db
  let (runId, l) ← openRun r backend now l
  Job.keepLedger r.db l
  Job.note ("run: " ++ runId ++ " (ledger " ++ r.db ++ ")\n")
  let summary ← workOn r endpoint backend runId now l
  Job.note (Report.evolution summary ++ "\n")

/-! ## All orders -/

/-- The files that an order reads or writes before anything else is known. -/
def ownFiles : Order → List String
  | .evolve o => [o.config.getD standardConfig]
  | .prepare config _ => [config, ignoreFile]
  | .list ledger | .summarize ledger _ _ _ | .print ledger _ _ _ _ => [ledger]
  | .version => []

/-- With its own files at hand, the ledger that an order works on. -/
def ledgerFile? (order : Order) (lookup : String → Option String) (fs : Files) : Option String :=
  match order with
  | .evolve o => (request o lookup fs).toOption.map RunRequest.db
  | _ => none

/-- With its own files at hand, the paths that have to be there for an order. -/
def neededPaths (order : Order) (lookup : String → Option String) (fs : Files) : List String :=
  match order with
  | .evolve o =>
    match request o lookup fs with
    | .ok r => ((Task.ofName r.task).toOption.map fun t => t.needed r.arguments r.workdir).getD []
    | .error _ => []
  | _ => []

/-- The steps of an order. -/
def job (order : Order) (lookup : String → Option String) (now : String) : Job Unit := do
  match order with
  | .evolve o => carryOut o lookup now
  | .prepare config ignore =>
    prepareConfig config
    if ignore then prepareIgnoreFile
  | .list path => listRuns path
  | .summarize path runId top json => summarizeRun path runId top json
  | .print path runId iter sample codeOnly => printCandidate path runId iter sample codeOnly
  | .version => Job.print (programVersion ++ "\n")

/-- Does what is ordered, with an environment and a time, and gives what it leaves and the
surroundings after it. -/
def perform (order : Order) (lookup : String → Option String) (now : String) (s : Surroundings) :
    Result × Surroundings :=
  match job order lookup now ⟨s, "", ""⟩ with
  | .ok _ c => (⟨0, c.stdout, c.stderr⟩, c.surroundings)
  | .error e c => (⟨e.exitCode, c.stdout, c.stderr ++ e.report⟩, c.surroundings)

end Order

/-! ## The whole program -/

/-- What a refusal prints: answers to questions, or how to ask. -/
def Refusal.result (r : Refusal) : Result :=
  match r with
  | .help => ⟨r.exitCode, Order.helpText, ""⟩
  | .version => ⟨r.exitCode, "evoforge " ++ programVersion ++ "\n", ""⟩
  | .usage => ⟨r.exitCode, "", Order.helpText⟩

/-- What the program answers to the words of a command line, and the surroundings that it leaves. -/
def respond (lookup : String → Option String) (now : String) (words : List String)
    (s : Surroundings) : Result × Surroundings :=
  match Order.ofWords lookup words with
  | .error refusal => (refusal.result, s)
  | .ok order => order.perform lookup now s

end HeuristicEvolution.CommandLine

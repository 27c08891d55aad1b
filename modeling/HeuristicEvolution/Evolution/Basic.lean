import HeuristicEvolution.Evolution.Repair
import HeuristicEvolution.Ledger.Selection

/-!
# Evolution

Iterations are run in order, and the samples of an iteration one after another. A slot that has a
candidate is passed over without any call. Otherwise a prompt is sent (for iteration zero the
first prompt, later one that shows the parents of the generation), the code is built and repaired,
and a build that succeeds is measured. The finished record goes into the ledger before the next
slot is looked at, so a run that is cut short loses the candidate in flight and no other.

The parents of a generation are chosen once, when its first open slot is reached.

## Main definitions

* `Laboratory`: the model and the backend as a machine over states of the outside world.
* `Evolution.evolve`: one call that works on a run.
-/

namespace HeuristicEvolution

/-- The place of a candidate in a run. -/
structure Slot where
  iter : Nat
  sample : Nat
  deriving DecidableEq, Repr, Inhabited

/-- A model and a backend. Every call may change the state of the outside world, also one that
fails. Calls are marked with the slot for which they are made. -/
structure Laboratory (σ : Type) where
  model : String
  /-- Opens a conversation and gives its number. -/
  openSession : Slot → σ → Nat × σ
  ask : Slot → (session : Nat) → (prompt : String) → σ → Exchange × σ
  initialPrompt : Slot → σ → String × σ
  mutationPrompt : Slot → List String → σ → String × σ
  repairPrompt : (stdout stderr : String) → String
  build : Slot → (code : String) → σ → Except Failure BuildResult × σ
  experiment : Slot → σ → Except Failure Outcome × σ

namespace Evolution

variable {σ : Type}

/-- What one call that works on a run goes by. -/
structure Settings where
  samples : Nat
  buildAttempts : Nat
  parents : Nat
  policy : Policy
  deriving DecidableEq, Repr, Inhabited

/-- What one call has done. -/
structure Summary where
  runId : String
  recorded : Nat
  skipped : Nat
  built : Nat
  evaluated : Nat
  bestScore : Option Float
  deriving Inhabited

namespace Summary

/-- Nothing is done yet. -/
def start (runId : String) : Summary := ⟨runId, 0, 0, 0, 0, none⟩

/-- One more slot was found filled. -/
def skip (s : Summary) : Summary := { s with skipped := s.skipped + 1 }

/-- One more candidate was recorded. Its score counts if it can be a parent. -/
def add (s : Summary) (c : Candidate) : Summary :=
  { s with
    recorded := s.recorded + 1
    built := if c.buildStatus = some true then s.built + 1 else s.built
    evaluated := if c.execStatus = some true then s.evaluated + 1 else s.evaluated
    bestScore :=
      if c.eligible then HeuristicEvolution.bestScore (s.bestScore.toList ++ c.score.toList)
      else s.bestScore }

end Summary

/-- The ledger and the outside world. -/
structure State (σ : Type) where
  ledger : Ledger
  world : σ
  deriving Inhabited

/-- Steps that change the ledger and the outside world, and keep what they changed on failure. -/
abbrev Run (σ α : Type) := EStateM Failure (State σ) α

/-- A step of the outside world. -/
def outside (step : σ → α × σ) : Run σ α := fun s =>
  let (a, w) := step s.world
  .ok a { s with world := w }

/-- A step of the outside world that may fail. -/
def outsideExcept (step : σ → Except Failure α × σ) : Run σ α := fun s =>
  match step s.world with
  | (.ok a, w) => .ok a { s with world := w }
  | (.error e, w) => .error e { s with world := w }

/-- Steps of a conversation that starts now. -/
def converse (talk : EStateM Failure (Conversation σ) α) : Run σ α := fun s =>
  match talk ⟨s.world, 0⟩ with
  | .ok a c => .ok a { s with world := c.world }
  | .error e c => .error e { s with world := c.world }

/-- The record of a slot: everything from the first prompt to the measured outcome. -/
def runSlot (lab : Laboratory σ) (settings : Settings) (slot : Slot) (parents : Option Parents) :
    Run σ Candidate := do
  let prompt ← match parents with
    | none => outside (lab.initialPrompt slot)
    | some p => outside (lab.mutationPrompt slot p.codes)
  let session ← outside (lab.openSession slot)
  let tools : Repair.Tools σ :=
    { ask := lab.ask slot session, build := lab.build slot, repairPrompt := lab.repairPrompt,
      policy := settings.policy }
  let repaired ← converse do
    let response ← Conversation.send tools.ask tools.policy prompt
    Repair.run tools settings.buildAttempts prompt response
  let record : Candidate :=
    { iter := slot.iter, sample := slot.sample, finalCode := repaired.finalCode,
      buildStatus := some repaired.built, execStatus := none, results := none, logs := none,
      revisions := repaired.revisions, parentIds := parents.map Parents.ids,
      parentCodes := parents.map Parents.codes }
  if repaired.built then
    let outcome ← outsideExcept (lab.experiment slot)
    return { record with execStatus := some outcome.executed, results := some outcome.results,
                         logs := some outcome.logs }
  else return record

/-- Puts a finished record into the ledger, unless something is wrong with it. -/
def record (runId now : String) (bound : Nat) (c : Candidate) : Run σ Unit := fun s =>
  match c.flaw? bound with
  | some flaw => .error (.inconsistent (c.flawMessage flaw)) s
  | none =>
    match s.ledger.insert runId now c with
    | .ok (_, ledger) => .ok () { s with ledger }
    | .error e => .error e s

/-- The parents for a slot: none in iteration zero, the ones already chosen for the generation,
or the best of the ledger as it stands. -/
def parentsFor (runId : String) (settings : Settings) (iter : Nat) (chosen : Option Parents) :
    Run σ (Option Parents) := fun s =>
  if iter = 0 then .ok none s
  else
    match chosen with
    | some p => .ok (some p) s
    | none =>
      match s.ledger.selectParents runId iter settings.parents with
      | .ok p => .ok (some p) s
      | .error e => .error e s

/-- The slots of one iteration from a list of samples, with the parents chosen so far. -/
def runSamples (lab : Laboratory σ) (runId now : String) (settings : Settings) (iter : Nat) :
    List Nat → Option Parents → Summary → Run σ Summary
  | [], _, summary => pure summary
  | sample :: rest, chosen, summary => do
    if (← get).ledger.holds runId iter sample then
      runSamples lab runId now settings iter rest chosen summary.skip
    else
      let parents ← parentsFor runId settings iter chosen
      let c ← runSlot lab settings ⟨iter, sample⟩ parents
      record runId now settings.buildAttempts c
      runSamples lab runId now settings iter rest parents (summary.add c)

/-- Iterations in order. -/
def runIterations (lab : Laboratory σ) (runId now : String) (settings : Settings) :
    List Nat → Summary → Run σ Summary
  | [], summary => pure summary
  | iter :: rest, summary => do
    let summary ← runSamples lab runId now settings iter (List.range settings.samples) none summary
    runIterations lab runId now settings rest summary

/-- The source revision of a tree. -/
structure Checkout where
  commit : String
  dirty : Bool
  status : String
  deriving DecidableEq, Repr, Inhabited

/-- One call that works on a run: it is noted, and then the iterations from `start` to before
`stop` are run. -/
def evolve (lab : Laboratory σ) (runId now : String) (settings : Settings) (start stop : Nat)
    (checkout : Option Checkout) : Run σ Summary := do
  let call : Invocation :=
    { runId, start, stop, samples := settings.samples, model := lab.model,
      commit := checkout.map Checkout.commit, dirty := checkout.map Checkout.dirty }
  let state ← get
  match state.ledger.recordInvocation call with
  | .error e => throw e
  | .ok ledger =>
    set { state with ledger }
    runIterations lab runId now settings (List.range' start (stop - start)) (.start runId)

end Evolution

end HeuristicEvolution

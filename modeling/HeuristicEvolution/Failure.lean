/-!
# What stops a run

Everything that makes a command or a call fail, by cause. Whatever goes wrong with one candidate
(a build that fails, a simulator that crashes, a command that hangs) is no failure but part of the
candidate's record.

## Main definitions

* `Failure`: the causes.
* `Failure.message`: their wording.
* `Failure.isConfiguration`: the causes that lie in how a run was asked for.
-/

namespace HeuristicEvolution

/-- A cause of failure. -/
inductive Failure where
  /-- The configuration, the arguments or the source tree do not allow the run. -/
  | configuration (message : String)
  /-- Too few candidates of earlier iterations can be parents. -/
  | insufficientParents (iter found : Nat)
  /-- A record is not consistent in itself. -/
  | inconsistent (message : String)
  /-- The slot already has a record. -/
  | duplicateRecord (runId : String) (iter sample : Nat)
  /-- The model could not be reached, or did not answer in time. -/
  | generation (message : String)
  | unknownRun (runId : String)
  | taskMismatch (runId stored requested : String)
  /-- The ledger refused an operation; `context` says which, where that is known. -/
  | ledger (context : Option String)
  /-- A stored column does not hold what it should. -/
  | badColumn
  /-- A file or a process could not be used; `context` says for what, where that is known. -/
  | system (context : Option String)
  /-- A request to the model did not come through, or its answer is no JSON. -/
  | transport
  /-- A condition with a wording of its own. -/
  | other (message : String)
  deriving DecidableEq, Repr, Inhabited

namespace Failure

/-- The wording of a failure. -/
def message : Failure → String
  | .configuration m => "config error: " ++ m
  | .insufficientParents iter found =>
    "expected at least 2 successful candidates up to iter=" ++ toString iter ++ ", found "
      ++ toString found
  | .inconsistent m => "internal consistency violation: " ++ m
  | .duplicateRecord runId iter sample =>
    "ledger already holds a record for run=" ++ runId ++ " iter=" ++ toString iter ++ " sample="
      ++ toString sample
  | .generation m => "generation transport failed: " ++ m
  | .unknownRun runId => "run '" ++ runId ++ "' does not exist in the ledger"
  | .taskMismatch runId stored requested =>
    "run '" ++ runId ++ "' was created for task '" ++ stored ++ "', not '" ++ requested ++ "'"
  | .ledger context => context.getD ""
  | .badColumn => "stored column does not parse"
  | .system context => context.getD ""
  | .transport => "request failed"
  | .other m => m

/-- A failure of the configuration: the caller asked for something that cannot be run. -/
def isConfiguration : Failure → Bool
  | .configuration _ | .unknownRun _ | .taskMismatch _ _ _ => true
  | _ => false

end Failure

end HeuristicEvolution

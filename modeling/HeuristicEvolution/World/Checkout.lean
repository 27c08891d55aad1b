import HeuristicEvolution.Evolution.Basic
import HeuristicEvolution.World.Action

/-!
# Source revisions

The revision of the tree that drives a run, as the version control tool tells it. Outside a
repository there is none. A tree is dirty when the tool lists changes.
-/

namespace HeuristicEvolution.Action

/-- Asks the version control tool; the output is that of a call that succeeded. -/
def askVersionControl (script directory : String) : Action (Option String) := do
  match ← attempt (start "" ⟨.versionControl, script, directory⟩) with
  | .error _ => return none
  | .ok r =>
    match r.ending with
    | .exits 0 => return some r.stdout
    | .abandons => throw .abandoned
    | _ => return none

/-- The revision of a directory. -/
def checkout (directory : String) : Action (Option Evolution.Checkout) := do
  match ← askVersionControl "git rev-parse HEAD" directory with
  | none => return none
  | some head =>
    let status := (← askVersionControl "git status --porcelain" directory).getD ""
    return some ⟨Text.trim head, !(Text.trim status).isEmpty, status⟩

end HeuristicEvolution.Action

import HeuristicEvolution.Ledger.Query

/-!
# Selection of parents

A generation is bred from the best candidates of all earlier iterations. At least two have to be
eligible, however many are asked for.
-/

namespace HeuristicEvolution.Ledger

/-- The parents of the generation `iter`: the best `k` of the eligible rows of iterations before
it, best first. -/
def selectParents (l : Ledger) (runId : String) (iter k : Nat) : Except Failure Parents :=
  let sourceIter := iter - 1
  let eligible := l.eligible runId sourceIter
  if eligible.length < 2 then .error (.insufficientParents sourceIter eligible.length)
  else
    let best := eligible.take k
    .ok { sourceIter, ids := best.map Row.id, codes := best.filterMap Row.finalCode,
          scores := best.filterMap Row.score }

end HeuristicEvolution.Ledger

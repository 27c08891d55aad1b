import HeuristicEvolution.Proofs.Ledger.Ranking

/-!
# Ledgers without times

Two runs of the same work are never recorded at the same time, and a run that was interrupted has
more calls to its name. To compare ledgers for what they hold, both are left out: `Ledger.untimed`
keeps the runs, the rows up to their times, and the id that comes next.

Nothing that a call reads from a ledger depends on what is left out, so each lemma here moves
`untimed` past one of the things that a call does with a ledger.

## Main definitions

* `Row.untimed`, `Ledger.untimed`

## Main results

* `Ledger.untimed_append`, `Ledger.untimed_of_recordInvocation`: writing.
* `Ledger.selectParents_untimed`: selection.
-/

namespace HeuristicEvolution

/-- The row without the time at which it was recorded. -/
def Row.untimed (r : Row) : Row := { r with recordedAt := "" }

@[simp] theorem Row.place_untimed (r : Row) : r.untimed.place = r.place := rfl

@[simp] theorem Row.untimed_ofCandidate (id : Int) (runId now : String) (c : Candidate) :
    (Row.ofCandidate id runId now c).untimed = Row.ofCandidate id runId "" c := rfl

namespace Ledger

variable {l l' : Ledger} {runId : String}

/-- What the ledger holds, without times and without the calls that worked on it. -/
def untimed (l : Ledger) : Ledger :=
  { l with invocations := [], rows := l.rows.map Row.untimed }

/-! ## Looking up and writing -/

theorem hasRun_untimed_iff : l.untimed.HasRun runId ↔ l.HasRun runId := Iff.rfl

theorem hasCandidate_untimed_iff {iter sample : Nat} :
    l.untimed.HasCandidate runId iter sample ↔ l.HasCandidate runId iter sample := by
  simp [HasCandidate, untimed]

theorem untimed_append (l : Ledger) (runId now : String) (c : Candidate) :
    (l.append runId now c).untimed = l.untimed.append runId "" c := by
  simp [append, untimed]

theorem untimed_of_recordInvocation {call : Invocation} (h : l.recordInvocation call = .ok l') :
    l'.untimed = l.untimed := by
  obtain ⟨-, rfl⟩ := recordInvocation_eq_ok_iff.mp h
  rfl

/-! ## Selection -/

theorem eligible_untimed (l : Ledger) (runId : String) (maxIter : Nat) :
    l.untimed.eligible runId maxIter = (l.eligible runId maxIter).map Row.untimed := by
  have hrows : l.untimed.candidatesForParents runId maxIter
      = (l.candidatesForParents runId maxIter).map Row.untimed := by
    simp only [candidatesForParents, rowsOf, untimed, List.filter_map]
    rfl
  have hrank : ∀ a b : Row, a.rankLE b = a.untimed.rankLE b.untimed := fun _ _ => rfl
  rw [eligible_eq, eligible_eq, hrows]
  exact (List.map_mergeSort fun a _ b _ => hrank a b).symm

/-- A choice of parents does not look at times. -/
theorem selectParents_untimed (l : Ledger) (runId : String) (iter k : Nat) :
    l.untimed.selectParents runId iter k = l.selectParents runId iter k := by
  have hids : Row.id ∘ Row.untimed = Row.id := rfl
  have hcodes : Row.finalCode ∘ Row.untimed = Row.finalCode := rfl
  have hscores : Row.score ∘ Row.untimed = Row.score := rfl
  rw [selectParents, selectParents]
  simp only [eligible_untimed, List.length_map, ← List.map_take, List.map_map, List.filterMap_map,
    hids, hcodes, hscores]

end Ledger

end HeuristicEvolution

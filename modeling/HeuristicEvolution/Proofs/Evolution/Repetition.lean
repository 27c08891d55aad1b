import HeuristicEvolution.Evolution.Scripted
import HeuristicEvolution.Proofs.Evolution.SlotOrder
import HeuristicEvolution.Proofs.Evolution.Watching
import Mathlib

/-!
# Calls that are repeated

Work that is done is not done again. A call whose slots are all filled finds nothing to do, and
does nothing but note itself: it makes no call of its laboratory, so the laboratory may be broken,
and it chooses no parents, so there need not be any. After a call that came to its end, all slots
of its range are filled; so a call may be repeated at no cost, however often.

## Main definitions

* `Ledger.Settled`: all slots of a range are filled.

## Main results

* `Evolution.settled_of_evolve`: a call that succeeds settles its range.
* `Evolution.evolve_of_settled`: what a call does when its range is settled.
* `Evolution.repeated_call_is_idle`
-/

namespace HeuristicEvolution

/-- The run exists, and all slots of a range of it are filled. -/
structure Ledger.Settled (l : Ledger) (runId : String) (start stop samples : Nat) : Prop where
  hasRun : l.HasRun runId
  filled : ∀ slot : Slot, slot.Within start stop samples →
    l.HasCandidate runId slot.iter slot.sample

namespace Evolution

variable {σ : Type} {lab : Laboratory σ} {runId now : String} {settings : Settings}
  {start stop : Nat} {checkout : Option Checkout}

/-- A call that succeeds settles its range. -/
theorem settled_of_evolve {s s' : State σ} {summary : Summary}
    (h : evolve lab runId now settings start stop checkout s = .ok summary s') :
    s'.ledger.Settled runId start stop settings.samples := by
  rw [evolve_eq] at h
  cases hnoted : s.ledger.recordInvocation (noteOf lab runId settings start stop checkout) with
  | error e =>
    rw [hnoted] at h
    exact nomatch h
  | ok l =>
    rw [hnoted] at h
    have hall : visitAll lab runId now settings (slots start stop settings.samples) (.start runId)
      { s with ledger := l } = .ok summary s' := h
    have hrun : l.HasRun runId := by
      obtain ⟨hrun, rfl⟩ := Ledger.recordInvocation_eq_ok_iff.mp hnoted
      exact hrun
    exact ⟨(extends_of_visitAll hall).hasRun hrun,
      fun slot hslot => hasCandidate_of_visitAll hall slot (mem_slots_iff.mpr hslot)⟩

/-- A call that finds its range settled notes itself and counts what it finds. -/
theorem evolve_of_settled {s : State σ}
    (h : s.ledger.Settled runId start stop settings.samples) :
    evolve lab runId now settings start stop checkout s =
      .ok { runId, recorded := 0, skipped := (stop - start) * settings.samples, built := 0,
            evaluated := 0, bestScore := none }
        { s with ledger :=
            { s.ledger with
              invocations :=
                s.ledger.invocations ++ [noteOf lab runId settings start stop checkout] } } := by
  have hnoted : s.ledger.recordInvocation (noteOf lab runId settings start stop checkout) = .ok _ :=
    Ledger.recordInvocation_eq_ok_iff.mpr ⟨h.hasRun, rfl⟩
  rw [evolve_eq, hnoted]
  refine (visitAll_of_held ?_ _).trans ?_
  · exact fun slot hslot => h.filled slot (mem_slots_iff.mp hslot)
  · rw [length_slots, Summary.start, Nat.zero_add]

/-- **A repeated call is idle.** After a call for some iterations that succeeds, whatever its
laboratory and its settings, all slots of these iterations are filled. And a call that finds all
its slots filled, whatever they hold and whoever filled them, succeeds in every laboratory; it

* makes no call of the laboratory and leaves the outside world as it is;
* leaves runs, candidates and the next id as they are, and adds one note of itself;
* reports that it recorded, built and evaluated nothing, that it has no score, and that it passed
  over every slot.

Nothing is asked of the rows of the ledger, so it does not matter whether there are parents. -/
theorem repeated_call_is_idle (runId : String) (start stop : Nat) :
    (∀ {τ : Type} (earlier : Laboratory τ) (now : String) (settings : Settings)
        (checkout : Option Checkout) (t t' : State τ) (summary : Summary),
      evolve earlier runId now settings start stop checkout t = .ok summary t' →
        t'.ledger.Settled runId start stop settings.samples) ∧
    ∀ {σ : Type} (lab : Laboratory σ) (now : String) (settings : Settings)
        (checkout : Option Checkout) (s : State σ),
      s.ledger.Settled runId start stop settings.samples →
        callsOf lab runId now settings start stop checkout s = [] ∧
        evolve lab runId now settings start stop checkout s =
          .ok { runId, recorded := 0, skipped := (stop - start) * settings.samples, built := 0,
                evaluated := 0, bestScore := none }
            ⟨{ runs := s.ledger.runs
               invocations :=
                s.ledger.invocations ++ [noteOf lab runId settings start stop checkout]
               rows := s.ledger.rows
               nextId := s.ledger.nextId }, s.world⟩ := by
  refine ⟨fun earlier now settings checkout t t' summary h => settled_of_evolve h,
    fun lab now settings checkout s h => ⟨?_, evolve_of_settled h⟩⟩
  have hwatched : evolve lab.watched runId now settings start stop checkout
      ⟨s.ledger, .start s.world⟩ = _ := evolve_of_settled h
  rw [callsOf, finalState_of_ok hwatched]
  rfl

/-- A slot is filled, and then the call is repeated in a laboratory where nothing is left to say. -/
theorem repeated_call_is_idle_scripted :
    let lab := Script.laboratory Script.repairPrompt
    let settings : Settings := ⟨1, 1, 2, .standard⟩
    let s : State Script :=
      ⟨{ Ledger.empty with runs := [⟨"sort_0", "sort", "scripted", "", .null⟩] },
        { replies := [.text "no"] }⟩
    let l := (finalState (evolve lab "sort_0" "" settings 0 1 none) s).ledger
    l.rows.length = 1 ∧ callsOf lab "sort_0" "" settings 0 1 none ⟨l, {}⟩ = [] ∧
      ∃ summary t, evolve lab "sort_0" "" settings 0 1 none ⟨l, {}⟩ = .ok summary t ∧
        summary.skipped = 1 ∧ t.ledger.rows = l.rows := by
  intro lab settings s l
  have hrows :
      (finalState (evolve lab "sort_0" "" settings 0 1 none) s).ledger.rows.length = 1 := by cbv
  have hsucceeds : (EStateM.run' (evolve lab "sort_0" "" settings 0 1 none) s).isSome = true := by
    cbv
  obtain ⟨hsettles, hidle⟩ := repeated_call_is_idle "sort_0" 0 1
  have hsettled : l.Settled "sort_0" 0 1 1 := by
    cases h : evolve lab "sort_0" "" settings 0 1 none s with
    | ok summary s' =>
      have hl : l = s'.ledger := congrArg State.ledger (finalState_of_ok h)
      rw [hl]
      exact hsettles lab "" settings none s s' summary h
    | error e s' =>
      rw [EStateM.run', EStateM.run, h] at hsucceeds
      cases hsucceeds
  obtain ⟨hcalls, hevolve⟩ := hidle lab "" settings none ⟨l, {}⟩ hsettled
  exact ⟨hrows, hcalls, _, _, hevolve, rfl, rfl⟩

end Evolution

end HeuristicEvolution

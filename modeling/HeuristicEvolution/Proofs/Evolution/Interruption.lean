import HeuristicEvolution.Evolution.Scripted
import HeuristicEvolution.Proofs.Evolution.Records
import HeuristicEvolution.Proofs.Evolution.Tally

/-!
# Calls that fail

A call may fail at any point: a request is not answered, a build or an experiment cannot be made,
there are too few parents, a record is refused. Whatever the cause, what is lost is the candidate
that was worked on. This module says what a failed call leaves in the ledger: complete records for
the open slots before the one at which it stopped, in their order, and nothing else.

The heart of it is `appendAll_of_visitAll`, which says what a pass that succeeds adds; a pass that
fails is one that succeeds, up to a slot (`visitAll_stops`), and work on a slot that fails leaves
the ledger alone (`ledger_of_visit_error`).

## Main results

* `Evolution.complete_of_taken`: every record that is taken is complete.
* `Evolution.appendAll_of_visitAll`: what a pass adds.
* `Evolution.failed_call_loses_one_candidate`
-/

namespace HeuristicEvolution

namespace Evolution

variable {σ : Type} {lab : Laboratory σ} {runId now : String} {settings : Settings} {slot : Slot}

/-- Every record that is taken is complete, also where no builds are allowed: then none is taken. -/
theorem complete_of_taken {l : Ledger} {c : Candidate} (h : Taken lab runId settings slot l c) :
    c.Complete settings.buildAttempts := by
  obtain ⟨parents, s, s', -, -, hrun⟩ := h.made
  rcases Nat.eq_zero_or_pos settings.buildAttempts with hzero | hpos
  · exfalso
    obtain ⟨session, prompt, w, r, w', htalk, hc⟩ := runSlot_eq_ok hrun
    have hlength : r.revisions.length ≤ 0 := hzero ▸ (talk_orderly htalk).length_le
    have hnone : c.revisions = [] := by
      rcases hc with ⟨-, rfl⟩ | ⟨-, outcome, rfl⟩ <;>
        exact List.length_eq_zero_iff.mp (Nat.le_zero.mp hlength)
    have hflaw := h.flawless
    simp [Candidate.flaw?, hnone] at hflaw
  · exact complete_of_runSlot hpos hrun

/-- **What a pass that succeeds adds**: one complete record for every slot that was open, in the
order in which they were visited. -/
theorem appendAll_of_visitAll {xs : List Slot} {summary summary' : Summary} {s s' : State σ}
    (hnodup : xs.Nodup)
    (h : visitAll lab runId now settings xs summary s = .ok summary' s') :
    ∃ new, s'.ledger = s.ledger.appendAll runId now new ∧
      (∀ c ∈ new, c.Complete settings.buildAttempts) ∧
      new.map Candidate.slot = openSlots s.ledger runId xs := by
  obtain ⟨new, -, hledger, htaken, hslots, -, -⟩ := adds_of_visitAll hnodup h
  refine ⟨new, hledger, fun c hc => ?_, hslots⟩
  obtain ⟨slot, l, hc⟩ := htaken c hc
  exact complete_of_taken hc

/-- Work fails only on a slot that is open. -/
theorem free_of_visit_error {s s' : State σ} {e : Failure}
    (h : visit lab runId now settings slot s = .error e s') :
    ¬ s.ledger.HasCandidate runId slot.iter slot.sample := by
  intro hheld
  rw [visit_of_held hheld] at h
  exact nomatch h

/-- **A call that fails loses the candidate in flight and no other.** Let a call fail, for whatever
cause, after it was noted. Then there is a slot of its range, open before the call, such that

* the call has added one complete record for each slot of the range that comes before this one and
  was open before the call, in the order of the slots and under consecutive ids, and has changed
  nothing else but to note itself;
* no record was added for this slot or for any later one. -/
theorem failed_call_loses_one_candidate (lab : Laboratory σ) (runId now : String)
    (settings : Settings) (start stop : Nat) (checkout : Option Checkout) (s s' : State σ)
    (e : Failure) (h : evolve lab runId now settings start stop checkout s = .error e s')
    (hnoted : s'.ledger.invocations ≠ s.ledger.invocations) :
    ∃ slot new, slot.Within start stop settings.samples ∧
      ¬ s.ledger.HasCandidate runId slot.iter slot.sample ∧
      s'.ledger =
        { s.ledger with
          invocations := s.ledger.invocations ++ [noteOf lab runId settings start stop checkout]
          rows := s.ledger.rows ++ Ledger.rowsFrom s.ledger.nextId runId now new
          nextId := s.ledger.nextId + new.length } ∧
      (∀ c ∈ new, c.Complete settings.buildAttempts) ∧
      (new.map Candidate.slot).Pairwise Slot.Before ∧
      (∀ x, x ∈ new.map Candidate.slot ↔
        x.Within start stop settings.samples ∧ x.Before slot ∧
          ¬ s.ledger.HasCandidate runId x.iter x.sample) ∧
      ∀ x : Slot, ¬ x.Before slot →
        (s'.ledger.HasCandidate runId x.iter x.sample ↔
          s.ledger.HasCandidate runId x.iter x.sample) := by
  rw [evolve_eq] at h
  cases hnote : s.ledger.recordInvocation (noteOf lab runId settings start stop checkout) with
  | error e' =>
    rw [hnote] at h
    obtain ⟨-, rfl⟩ := EStateM.Result.error.inj h
    exact absurd rfl hnoted
  | ok l =>
    rw [hnote] at h
    obtain ⟨-, rfl⟩ := Ledger.recordInvocation_eq_ok_iff.mp hnote
    obtain ⟨left, slot, right, _, t, hslots, hleft, hvisit⟩ := visitAll_stops h
    have hpair := pairwise_slots start stop settings.samples
    rw [hslots] at hpair
    have hpairLeft := (List.pairwise_append.mp hpair).1
    have hnodup : left.Nodup := hpairLeft.imp Slot.Before.ne
    obtain ⟨new, hledger, hcomplete, hnew⟩ := appendAll_of_visitAll hnodup hleft
    have hfinal := (ledger_of_visit_error hvisit).trans hledger
    have hmem : ∀ x, x ∈ new.map Candidate.slot ↔ x.Within start stop settings.samples ∧
        x.Before slot ∧ ¬ s.ledger.HasCandidate runId x.iter x.sample := by
      intro x
      rw [hnew, mem_openSlots_iff, mem_left_iff hslots, and_assoc]
      rfl
    have hopen : ¬ s.ledger.HasCandidate runId slot.iter slot.sample := by
      have hfree := free_of_visit_error hvisit
      rw [hledger, Ledger.hasCandidate_appendAll_iff] at hfree
      exact fun hheld => hfree (.inl hheld)
    refine ⟨slot, new, mem_slots_iff.mp (by simp [hslots]), hopen, hfinal, hcomplete, ?_, hmem,
      fun x hx => ?_⟩
    · rw [hnew]
      exact hpairLeft.filter _
    · have hnotnew : ¬ ∃ c ∈ new, runId = runId ∧ c.iter = x.iter ∧ c.sample = x.sample := by
        rintro ⟨c, hc, -, hiter, hsample⟩
        have hslot : c.slot = x := by rw [Candidate.slot, hiter, hsample]
        exact hx ((hmem x).mp (hslot ▸ List.mem_map_of_mem hc)).2.1
      rw [hfinal, Ledger.hasCandidate_appendAll_iff, or_iff_left hnotnew]
      rfl

/-- One slot is recorded, and then there are no parents for the next iteration. -/
theorem failed_call_loses_one_candidate_scripted :
    let lab := Script.laboratory Script.repairPrompt
    let settings : Settings := ⟨1, 1, 2, .standard⟩
    let s : State Script :=
      ⟨{ Ledger.empty with runs := [⟨"sort_0", "sort", "scripted", "", .null⟩] },
        { replies := [.text "no"] }⟩
    ∃ e s', ∃ slot : Slot, ∃ new : List Candidate,
      evolve lab "sort_0" "" settings 0 2 none s = .error e s' ∧
      slot.Within 0 2 1 ∧ s'.ledger.rows = Ledger.rowsFrom 1 "sort_0" "" new ∧
      s'.ledger.rows.length = 1 ∧ ∀ c ∈ new, c.Complete 1 := by
  intro lab settings s
  have hcalls :
      (finalState (evolve lab "sort_0" "" settings 0 2 none) s).ledger.invocations.length = 1 := by
    cbv
  have hrows :
      (finalState (evolve lab "sort_0" "" settings 0 2 none) s).ledger.rows.length = 1 := by cbv
  have hfails : (EStateM.run' (evolve lab "sort_0" "" settings 0 2 none) s).isNone = true := by cbv
  cases h : evolve lab "sort_0" "" settings 0 2 none s with
  | ok summary s' =>
    rw [EStateM.run', EStateM.run, h] at hfails
    cases hfails
  | error e s' =>
    rw [finalState_of_error h] at hcalls hrows
    have hnoted : s'.ledger.invocations ≠ s.ledger.invocations := by
      intro hsame
      rw [hsame] at hcalls
      cases hcalls
    obtain ⟨slot, new, hslot, -, hledger, hcomplete, -⟩ :=
      failed_call_loses_one_candidate lab "sort_0" "" settings 0 2 none s s' e h hnoted
    exact ⟨e, s', slot, new, rfl, hslot, by rw [hledger]; rfl, hrows, hcomplete⟩

end Evolution

end HeuristicEvolution

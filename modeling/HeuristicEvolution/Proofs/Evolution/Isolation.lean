import HeuristicEvolution.Evolution.Scripted
import HeuristicEvolution.Proofs.Evolution.Watching
import HeuristicEvolution.Proofs.Ledger.Renaming
import Mathlib

/-!
# Runs do not see each other

A call on a run is made twice, on two ledgers that hold the same of this run and whatever they like
of others. The two calls do the same: they pass over the same slots, say the same to the model and
the backend, end alike, and leave the same records, whose ids and parents differ only because ids
are handed out to all runs by one counter. And neither touches the rows of another run.

## The two calls in lockstep

The record of a slot is worked out without the ledger (`runSlot_renamed`): only the ids of the
parents, which the record names and nobody reads, differ. Everything else that a visit does is a
question to the ledger, and those have the same answers in both (`Ledger.InStep`). So one visit
keeps the ledgers in step (`visit_inStep`), and by induction on the slots so does a pass
(`visitAll_inStep`). What is said to the outside world is compared by watching the laboratory: the
notes are part of its world, which is the same after both calls.

## Main definitions

* `Evolution.ending`: how steps end.
* `Evolution.decisions`: the slots that a call looks at, and which of them it passes over.

## Main results

* `Evolution.decisions_of_evolve`: the decisions are those that a summary counts.
* `Evolution.visit_inStep`, `Evolution.visitAll_inStep`
* `Evolution.runs_are_isolated`
-/

namespace HeuristicEvolution

namespace Evolution

variable {σ α : Type}

/-- How steps end, apart from the state that they leave. -/
def ending (steps : Run σ α) (s : State σ) : Except Failure α :=
  match steps s with
  | .ok a _ => .ok a
  | .error e _ => .error e

/-! ## The work on one slot -/

/-- Fills a slot from its parents. -/
def fill (lab : Laboratory σ) (runId now : String) (settings : Settings) (slot : Slot)
    (parents : Option Parents) : Run σ (Option Candidate) := do
  let c ← runSlot lab settings slot parents
  record runId now settings.buildAttempts c
  return some c

section Slots

variable (lab : Laboratory σ) {runId : String} (now now' : String) (settings : Settings)
  (slot : Slot)

/-- The same outside world, and another ledger. -/
def withLedger (l : Ledger) (s : State σ) : State σ := { s with ledger := l }

/-- Steps outside the ledger are the same for each ledger, and so is what they give. -/
def Blind (x : Run σ α) : Prop :=
  ∀ l : Ledger, Mirrors (withLedger l) (fun _ => True) x x fun a b _ => a = b ∧ True

namespace Blind

theorem outside (step : σ → α × σ) : Blind (Evolution.outside step) := fun _ =>
  .of_step fun _ _ => .inl ⟨_, _, _, rfl, rfl, rfl, trivial⟩

theorem outsideExcept (step : σ → Except Failure α × σ) : Blind (Evolution.outsideExcept step) := by
  refine fun l => .of_step fun s _ => ?_
  have hworld : (withLedger l s).world = s.world := rfl
  rw [Evolution.outsideExcept, Evolution.outsideExcept, hworld]
  rcases step s.world with ⟨e | a, w⟩
  · exact .inr ⟨_, _, rfl, rfl⟩
  · exact .inl ⟨_, _, _, rfl, rfl, rfl, trivial⟩

theorem converse (talk : EStateM Failure (Conversation σ) α) : Blind (Evolution.converse talk) := by
  refine fun l => .of_step fun s _ => ?_
  have hworld : (withLedger l s).world = s.world := rfl
  rw [Evolution.converse, Evolution.converse, hworld]
  cases talk ⟨s.world, 0⟩ with
  | ok r c => exact .inl ⟨_, _, _, rfl, rfl, rfl, trivial⟩
  | error e c => exact .inr ⟨_, _, rfl, rfl⟩

end Blind

theorem unmeasured_renamed (f : Int → Int) (parents : Option Parents) (repaired : RepairResult) :
    unmeasured slot (parents.map (Parents.renamed f)) repaired
      = (unmeasured slot parents repaired).renamed f := by
  have hids : (parents.map (Parents.renamed f)).map Parents.ids
      = (parents.map Parents.ids).map (List.map f) := by cases parents <;> rfl
  have hcodes : (parents.map (Parents.renamed f)).map Parents.codes
      = parents.map Parents.codes := by cases parents <;> rfl
  rw [unmeasured, unmeasured, hids, hcodes]
  rfl

/-- **The record of a slot does not depend on the ledger**, nor, but for the parents that it names,
on the ids of the parents. -/
theorem runSlot_renamed (f : Int → Int) (l : Ledger) (parents : Option Parents) :
    Mirrors (withLedger l) (fun _ => True) (runSlot lab settings slot parents)
      (runSlot lab settings slot (parents.map (Parents.renamed f)))
      fun c c' _ => c' = c.renamed f := by
  have hprompt : Mirrors (withLedger l) (fun _ => True) (firstPrompt lab slot parents)
      (firstPrompt lab slot (parents.map (Parents.renamed f))) fun a b _ => a = b ∧ True := by
    cases parents <;> exact Blind.outside _ l
  rw [runSlot_eq, runSlot_eq]
  refine hprompt.bind_eq fun prompt => (Blind.outside _ l).bind_eq fun session => ?_
  refine (Blind.converse (talk lab settings slot session prompt) l).bind_eq fun repaired => ?_
  unfold measure
  split
  · refine (Blind.outsideExcept (lab.experiment slot) l).bind_eq fun outcome => .pure fun _ _ => ?_
    rw [unmeasured_renamed]
    rfl
  · exact .pure fun _ _ => unmeasured_renamed slot f parents repaired

theorem parentsAt_renamed {f : Int → Int} {l l' : Ledger} (h : l.Renamed f runId l') (iter : Nat) :
    parentsAt l' runId settings iter
      = (parentsAt l runId settings iter).map (Option.map (Parents.renamed f)) := by
  unfold parentsAt
  split
  · rfl
  · rw [h.selectParents]
    cases l.selectParents runId iter settings.parents <;> rfl

variable {f : Int → Int} {s s' : State σ}

/-- A record is taken in both states, or refused in both for the same reason. -/
theorem record_inStep (h : s.ledger.InStep f runId s'.ledger) (bound : Nat) (c : Candidate) :
    (∃ e, record runId now bound c s = .error e s ∧
      record runId now' bound (c.renamed f) s' = .error e s') ∨
    (record runId now bound c s = .ok () { s with ledger := s.ledger.append runId now c } ∧
      record runId now' bound (c.renamed f) s'
        = .ok () { s' with ledger := s'.ledger.append runId now' (c.renamed f) }) := by
  rw [record, record, Candidate.flaw?_renamed]
  cases c.flaw? bound with
  | some flaw => exact .inl ⟨_, rfl, rfl⟩
  | none =>
    rcases h.insert now now' c with ⟨e, he, he'⟩ | ⟨hi, hi'⟩
    · rw [he, he']
      exact .inl ⟨e, rfl, rfl⟩
    · rw [hi, hi']
      exact .inr ⟨rfl, rfl⟩

theorem visit_of_parents {lab : Laboratory σ} {now : String} {settings : Settings} {slot : Slot}
    {parents : Option Parents} (h : ¬ s.ledger.HasCandidate runId slot.iter slot.sample)
    (hparents : parentsAt s.ledger runId settings slot.iter = .ok parents) :
    visit lab runId now settings slot s = fill lab runId now settings slot parents s := by
  have hfor : parentsFor runId settings slot.iter none s = _ :=
    parentsFor_apply fun p hp => nomatch hp
  rw [hparents] at hfor
  rw [visit_of_free h, bind_of_ok hfor, fill]

/-- Filling a slot keeps the ledgers in step. -/
theorem fill_inStep (h : s.ledger.InStep f runId s'.ledger) (hworld : s'.world = s.world)
    (parents : Option Parents) :
    (∃ e t t', fill lab runId now settings slot parents s = .error e t ∧
      fill lab runId now' settings slot (parents.map (Parents.renamed f)) s' = .error e t' ∧
      t'.world = t.world ∧ t.ledger = s.ledger ∧ t'.ledger = s'.ledger) ∨
    ∃ c t t', fill lab runId now settings slot parents s = .ok (some c) t ∧
      fill lab runId now' settings slot (parents.map (Parents.renamed f)) s'
        = .ok (some (c.renamed f)) t' ∧
      t'.world = t.world ∧ t.ledger = s.ledger.append runId now c ∧
      t'.ledger = s'.ledger.append runId now' (c.renamed f) ∧
      t.ledger.InStep f runId t'.ledger := by
  -- The second state is the first one with another ledger, and work does not change a ledger.
  have hview : s' = withLedger s'.ledger s := by rw [withLedger, ← hworld]
  have hmirrors := runSlot_renamed lab settings slot f s'.ledger parents
  have hkept := keepsLedger_runSlot lab settings slot parents
  rw [fill, fill]
  cases hrun : runSlot lab settings slot parents s with
  | error e t =>
    have hrun' := hmirrors.error trivial hrun
    rw [← hview] at hrun'
    exact .inl ⟨e, t, _, bind_of_error hrun, bind_of_error hrun', rfl, hkept.of_error hrun, rfl⟩
  | ok c t =>
    obtain ⟨_, hrun', rfl⟩ := hmirrors.ok trivial hrun
    rw [← hview] at hrun'
    rw [bind_of_ok hrun, bind_of_ok hrun']
    have hledger : t.ledger = s.ledger := hkept.of_ok hrun
    have hstep : t.ledger.InStep f runId (withLedger s'.ledger t).ledger := hledger ▸ h
    rcases record_inStep now now' hstep settings.buildAttempts c with ⟨e, he, he'⟩ | ⟨hok, hok'⟩
    · exact .inl ⟨e, t, _, bind_of_error he, bind_of_error he', rfl, hledger, rfl⟩
    · exact .inr ⟨c, _, _, bind_of_ok hok, bind_of_ok hok', rfl,
        congrArg (Ledger.append · runId now c) hledger, rfl, hstep.append now now' c⟩

/-- **One visit keeps the ledgers in step.** Either both fail alike and write nothing, or both
find the slot filled, or both fill it with the same record. -/
theorem visit_inStep (h : s.ledger.InStep f runId s'.ledger) (hworld : s'.world = s.world) :
    (∃ e t t', visit lab runId now settings slot s = .error e t ∧
      visit lab runId now' settings slot s' = .error e t' ∧ t'.world = t.world ∧
      t.ledger = s.ledger ∧ t'.ledger = s'.ledger) ∨
    ∃ c? t t', visit lab runId now settings slot s = .ok c? t ∧
      visit lab runId now' settings slot s' = .ok (c?.map (Candidate.renamed f)) t' ∧
      t'.world = t.world ∧ t.ledger = s.ledger.appendAll runId now c?.toList ∧
      t'.ledger = s'.ledger.appendAll runId now' (c?.toList.map (Candidate.renamed f)) ∧
      t.ledger.InStep f runId t'.ledger := by
  by_cases hheld : s.ledger.HasCandidate runId slot.iter slot.sample
  · refine .inr ⟨none, s, s', visit_of_held hheld,
      visit_of_held (h.renamed.hasCandidate_iff.mpr hheld), hworld, ?_, ?_, h⟩ <;> simp
  have hfree : ¬ s'.ledger.HasCandidate runId slot.iter slot.sample :=
    fun hheld' => hheld (h.renamed.hasCandidate_iff.mp hheld')
  have hparents' := parentsAt_renamed settings h.renamed slot.iter
  cases hparents : parentsAt s.ledger runId settings slot.iter with
  | error e =>
    rw [hparents] at hparents'
    exact .inl ⟨e, s, s', visit_of_barren hheld hparents, visit_of_barren hfree hparents', hworld,
      rfl, rfl⟩
  | ok parents =>
    rw [hparents] at hparents'
    rw [visit_of_parents hheld hparents, visit_of_parents hfree hparents']
    obtain hfails | ⟨c, t, t', hfill, hfill', hsame, hcs, hcs', hstep⟩ :=
      fill_inStep lab now now' settings slot h hworld parents
    · exact .inl hfails
    · exact .inr ⟨some c, t, t', hfill, hfill', hsame, hcs, hcs', hstep⟩

end Slots

/-! ## A pass over slots -/

section Passes

variable {lab : Laboratory σ} {runId now : String} {settings : Settings} {f : Int → Int}

/-- The slots that a pass looks at, each with whether it is passed over. -/
def decisionsOn (lab : Laboratory σ) (runId now : String) (settings : Settings) :
    List Slot → State σ → List (Slot × Bool)
  | [], _ => []
  | slot :: rest, s =>
    (slot, s.ledger.holds runId slot.iter slot.sample) ::
      match visit lab runId now settings slot s with
      | .ok _ s' => decisionsOn lab runId now settings rest s'
      | .error _ _ => []

section Cons

variable {slot : Slot} {rest : List Slot} {s t : State σ} {summary : Summary}

theorem visitAll_cons_of_ok {c? : Option Candidate}
    (h : visit lab runId now settings slot s = .ok c? t) :
    visitAll lab runId now settings (slot :: rest) summary s
      = visitAll lab runId now settings rest (summary.count c?) t := bind_of_ok h

theorem visitAll_cons_of_error {e : Failure}
    (h : visit lab runId now settings slot s = .error e t) :
    visitAll lab runId now settings (slot :: rest) summary s = .error e t := bind_of_error h

end Cons

/-- A pass that succeeds looks at all slots, and its summary counts those that it passes over. -/
theorem decisionsOn_of_visitAll {xs : List Slot} {summary summary' : Summary} {s s' : State σ}
    (h : visitAll lab runId now settings xs summary s = .ok summary' s') :
    (decisionsOn lab runId now settings xs s).map Prod.fst = xs ∧
      summary'.skipped
        = summary.skipped + (decisionsOn lab runId now settings xs s).countP Prod.snd := by
  induction xs generalizing summary s with
  | nil =>
    obtain ⟨rfl, -⟩ := EStateM.Result.ok.inj h
    exact ⟨rfl, rfl⟩
  | cons slot rest ih =>
    obtain ⟨c?, t, hvisit, hrest⟩ := bind_eq_ok_iff.mp h
    obtain ⟨hslots, hskipped⟩ := ih hrest
    have hvisited := visit_visited lab runId now settings slot s
    rw [hvisit] at hvisited
    simp only [decisionsOn, hvisit, List.map_cons, hslots, List.countP_cons, hskipped, true_and]
    cases hvisited with
    | held hheld =>
      rw [Ledger.holds_iff.mpr hheld, Summary.count, Summary.skip]
      simp only [if_true]
      omega
    | filled hfree =>
      rw [Bool.eq_false_iff.mpr (mt Ledger.holds_iff.mp hfree), Summary.count, Summary.add]
      simp

/-- A summary counts what it is told alike under other ids. -/
theorem Summary.count_renamed (summary : Summary) (c? : Option Candidate) :
    summary.count (c?.map (Candidate.renamed f)) = summary.count c? := by
  cases c? <;> rfl

/-- **A pass keeps the ledgers in step.** The induction is on the slots; the records of the two
passes are those of the first slot and those of the others. -/
theorem visitAll_inStep (lab : Laboratory σ) (now now' : String) (settings : Settings)
    (xs : List Slot) (summary : Summary) {s s' : State σ}
    (h : s.ledger.InStep f runId s'.ledger) (hworld : s'.world = s.world) :
    let pass := visitAll lab runId now settings xs summary
    let pass' := visitAll lab runId now' settings xs summary
    ending pass' s' = ending pass s ∧ (finalState pass' s').world = (finalState pass s).world ∧
      decisionsOn lab runId now' settings xs s' = decisionsOn lab runId now settings xs s ∧
      ∃ cs : List Candidate,
        (finalState pass s).ledger = s.ledger.appendAll runId now cs ∧
        (finalState pass' s').ledger
          = s'.ledger.appendAll runId now' (cs.map (Candidate.renamed f)) ∧
        (finalState pass s).ledger.InStep f runId (finalState pass' s').ledger := by
  induction xs generalizing summary s s' with
  | nil => exact ⟨rfl, hworld, rfl, [], by simp; rfl, by simp; rfl, h⟩
  | cons slot rest ih =>
    have hheld : s'.ledger.holds runId slot.iter slot.sample
        = s.ledger.holds runId slot.iter slot.sample := by
      rw [Bool.eq_iff_iff, Ledger.holds_iff, Ledger.holds_iff, h.renamed.hasCandidate_iff]
    rcases visit_inStep lab now now' settings slot h hworld with
      ⟨e, t, t', hv, hv', hsame, hl, hl'⟩ | ⟨c?, t, t', hv, hv', hsame, hl, hl', hstep⟩
    · simp only [ending, finalState, decisionsOn, visitAll_cons_of_error hv,
        visitAll_cons_of_error hv', hv, hv', hheld]
      refine ⟨trivial, hsame, trivial, [], by simpa using hl, by simpa using hl', ?_⟩
      rw [hl, hl']
      exact h
    · obtain ⟨hending, hworld', hdecisions, cs, hcs, hcs', hlast⟩ :=
        ih (summary.count c?) hstep hsame
      simp only [ending, finalState] at hending hworld' hcs hcs' hlast
      simp only [ending, finalState, decisionsOn, visitAll_cons_of_ok hv,
        visitAll_cons_of_ok hv', hv, hv', hheld, Summary.count_renamed]
      refine ⟨hending, hworld', by rw [hdecisions], c?.toList ++ cs, ?_, ?_, hlast⟩
      · rw [hcs, hl, Ledger.appendAll_append]
      · rw [hcs', hl', List.map_append, Ledger.appendAll_append]

end Passes

/-! ## A call -/

section Calls

/-- The slots that a call looks at, in order, each with whether it is passed over. A call on a run
that does not exist looks at none. -/
def decisions (lab : Laboratory σ) (runId now : String) (settings : Settings) (start stop : Nat)
    (checkout : Option Checkout) (s : State σ) : List (Slot × Bool) :=
  match s.ledger.recordInvocation (noteOf lab runId settings start stop checkout) with
  | .ok l =>
    decisionsOn lab runId now settings (slots start stop settings.samples) { s with ledger := l }
  | .error _ => []

section Outcome

variable {lab : Laboratory σ} {runId now : String} {settings : Settings} {start stop : Nat}
  {checkout : Option Checkout}

theorem evolve_of_noted {s : State σ} {k : Ledger}
    (h : s.ledger.recordInvocation (noteOf lab runId settings start stop checkout) = .ok k) :
    evolve lab runId now settings start stop checkout s =
      visitAll lab runId now settings (slots start stop settings.samples) (.start runId)
        { s with ledger := k } := by
  rw [evolve_eq, h]

variable (lab now settings start stop checkout) in
/-- A call on a run that does not exist fails at once. -/
theorem evolve_of_not_hasRun {s : State σ} (h : ¬ s.ledger.HasRun runId) :
    evolve lab runId now settings start stop checkout s = .error (.ledger none) s ∧
      decisions lab runId now settings start stop checkout s = [] := by
  have hrefused : s.ledger.recordInvocation (noteOf lab runId settings start stop checkout)
      = .error (.ledger none) := Ledger.recordInvocation_eq_error_iff.mpr ⟨rfl, h⟩
  rw [evolve_eq, decisions, hrefused]
  exact ⟨rfl, rfl⟩

/-- A call that succeeds looks at all of its slots, and its summary counts those that it passes
over. -/
theorem decisions_of_evolve {s s' : State σ} {summary : Summary}
    (h : evolve lab runId now settings start stop checkout s = .ok summary s') :
    (decisions lab runId now settings start stop checkout s).map Prod.fst
        = slots start stop settings.samples ∧
      summary.skipped
        = (decisions lab runId now settings start stop checkout s).countP Prod.snd := by
  rw [evolve_eq] at h
  rw [decisions]
  cases hnoted : s.ledger.recordInvocation (noteOf lab runId settings start stop checkout) with
  | error e =>
    rw [hnoted] at h
    exact nomatch h
  | ok k =>
    rw [hnoted] at h
    obtain ⟨hslots, hskipped⟩ := decisionsOn_of_visitAll h
    exact ⟨hslots, hskipped.trans (Nat.zero_add _)⟩

end Outcome

variable (lab : Laboratory σ) {runId : String} (now now' : String) (settings : Settings)
  (start stop : Nat) (checkout : Option Checkout) {rename : Int → Int}

/-- **A call keeps the ledgers in step**, under a renaming that is continued to the ids that it
hands out. -/
theorem evolve_inStep {s s' : State σ} (h : s.ledger.Renamed rename runId s'.ledger)
    (hworld : s'.world = s.world) :
    let call := evolve lab runId now settings start stop checkout
    let call' := evolve lab runId now' settings start stop checkout
    ending call' s' = ending call s ∧ (finalState call' s').world = (finalState call s).world ∧
      decisions lab runId now' settings start stop checkout s'
        = decisions lab runId now settings start stop checkout s ∧
      ∃ (f : Int → Int) (cs : List Candidate), (∀ r ∈ s.ledger.rowsOf runId, f r.id = rename r.id) ∧
        (finalState call s).ledger.rows
          = s.ledger.rows ++ Ledger.rowsFrom s.ledger.nextId runId now cs ∧
        (finalState call' s').ledger.rows = s'.ledger.rows
          ++ Ledger.rowsFrom s'.ledger.nextId runId now' (cs.map (Candidate.renamed f)) ∧
        (finalState call s).ledger.Renamed f runId (finalState call' s').ledger ∧
        s.ledger.SpareOthers runId (finalState call s).ledger ∧
        s'.ledger.SpareOthers runId (finalState call' s').ledger := by
  intro call call'
  by_cases hrun : s.ledger.HasRun runId
  · obtain ⟨k, hnoted⟩ : ∃ k, s.ledger.recordInvocation
        (noteOf lab runId settings start stop checkout) = .ok k :=
      ⟨_, Ledger.recordInvocation_eq_ok_iff.mpr ⟨hrun, rfl⟩⟩
    obtain ⟨k', hnoted'⟩ : ∃ k', s'.ledger.recordInvocation
        (noteOf lab runId settings start stop checkout) = .ok k' :=
      ⟨_, Ledger.recordInvocation_eq_ok_iff.mpr ⟨h.hasRun_iff.mpr hrun, rfl⟩⟩
    have hpass : call s = _ := evolve_of_noted hnoted
    have hpass' : call' s' = _ := evolve_of_noted hnoted'
    have hstep := (h.recordInvocation hnoted hnoted').inStep
    have hspare := Ledger.SpareOthers.recordInvocation hnoted
    have hspare' := Ledger.SpareOthers.recordInvocation hnoted'
    obtain ⟨hending, hworld', hdecisions, cs, hcs, hcs', hlast⟩ :=
      @visitAll_inStep σ runId _ lab now now' settings (slots start stop settings.samples)
        (.start runId) { s with ledger := k } { s' with ledger := k' } hstep hworld
    simp only [ending, finalState, ← hpass, ← hpass'] at hending hworld' hcs hcs' hlast
    simp only [ending, finalState, decisions, hnoted, hnoted']
    refine ⟨hending, hworld', hdecisions, _, cs, fun r hr => ?_, ?_, ?_, hlast.renamed, ?_, ?_⟩
    · obtain ⟨-, rfl⟩ := Ledger.recordInvocation_eq_ok_iff.mp hnoted
      exact Ledger.continued_of_lt (h.ids_lt r hr)
    · obtain ⟨-, rfl⟩ := Ledger.recordInvocation_eq_ok_iff.mp hnoted
      rw [hcs]
      rfl
    · obtain ⟨-, rfl⟩ := Ledger.recordInvocation_eq_ok_iff.mp hnoted'
      rw [hcs']
      rfl
    · rw [hcs]
      exact hspare.trans (.appendAll k runId now cs)
    · rw [hcs']
      exact hspare'.trans (.appendAll k' runId now' _)
  · have hrun' : ¬ s'.ledger.HasRun runId := fun hr => hrun (h.hasRun_iff.mp hr)
    obtain ⟨hfails, hnone⟩ := evolve_of_not_hasRun lab now settings start stop checkout hrun
    obtain ⟨hfails', hnone'⟩ := evolve_of_not_hasRun lab now' settings start stop checkout hrun'
    simp only [call, call', ending, finalState, hfails, hfails', hnone, hnone']
    exact ⟨trivial, hworld, trivial, rename, [], fun _ _ => rfl, by simp [Ledger.rowsFrom],
      by simp [Ledger.rowsFrom], h, .refl _ _, .refl _ _⟩

/-- **Runs are isolated.** Two ledgers hold the same of a run, up to a renaming of ids that keeps
their order, and each may hold any other runs. The same call on the run, with a model and a backend
that behave alike, is made on both, at any two times. Then

* the same slots are looked at and the same are passed over: all slots of the call if it succeeds,
  and those that its summary counts;
* the same calls are made of the model and the backend, with the same prompts, in the same order,
  and the outside world is the same afterwards;
* both calls succeed with the same summary, or fail with the same failure;
* the same records are written, with ids and parents renamed, and the ledgers again hold the
  same of the run;
* in each of the ledgers nothing of another run has changed. -/
theorem runs_are_isolated (lab : Laboratory σ) (runId now now' : String) (settings : Settings)
    (start stop : Nat) (checkout : Option Checkout) (world : σ) (l l' : Ledger)
    (rename : Int → Int) (h : l.Renamed rename runId l') :
    let call := evolve lab runId now settings start stop checkout
    let call' := evolve lab runId now' settings start stop checkout
    let after := finalState call ⟨l, world⟩
    let after' := finalState call' ⟨l', world⟩
    decisions lab runId now' settings start stop checkout ⟨l', world⟩
        = decisions lab runId now settings start stop checkout ⟨l, world⟩ ∧
      callsOf lab runId now' settings start stop checkout ⟨l', world⟩
        = callsOf lab runId now settings start stop checkout ⟨l, world⟩ ∧
      after'.world = after.world ∧
      ending call' ⟨l', world⟩ = ending call ⟨l, world⟩ ∧
      (∃ (f : Int → Int) (cs : List Candidate), (∀ r ∈ l.rowsOf runId, f r.id = rename r.id) ∧
        after.ledger.rows = l.rows ++ Ledger.rowsFrom l.nextId runId now cs ∧
        after'.ledger.rows
          = l'.rows ++ Ledger.rowsFrom l'.nextId runId now' (cs.map (Candidate.renamed f)) ∧
        after.ledger.Renamed f runId after'.ledger) ∧
      l.SpareOthers runId after.ledger ∧ l'.SpareOthers runId after'.ledger ∧
      ∀ summary s', call ⟨l, world⟩ = .ok summary s' →
        let looked := decisions lab runId now settings start stop checkout ⟨l, world⟩
        looked.map Prod.fst = slots start stop settings.samples ∧
          summary.skipped = looked.countP Prod.snd := by
  intro call call' after after'
  obtain ⟨hending, hworld, hdecisions, f, cs, hf, hcs, hcs', hlast, hspare, hspare'⟩ :=
    @evolve_inStep _ lab runId now now' settings start stop checkout rename ⟨l, world⟩ ⟨l', world⟩
      h rfl
  obtain ⟨-, hwatched, -⟩ :=
    @evolve_inStep _ lab.watched runId now now' settings start stop checkout rename
      ⟨l, .start world⟩ ⟨l', .start world⟩ h rfl
  exact ⟨hdecisions, congrArg Watched.calls hwatched, hworld, hending,
    ⟨f, cs, hf, hcs, hcs', hlast⟩, hspare, hspare', fun _ _ => decisions_of_evolve⟩

/-- The same run beside another one, and alone. Two of its three slots are filled. -/
theorem runs_are_isolated_scripted :
    let row (id : Int) (runId : String) (sample : Nat) : Row :=
      { id, runId, iter := 0, sample, finalCode := some "code", buildStatus := some true,
        execStatus := some true, score := some 0.5, results := .absent, logs := .absent,
        revisions := .absent, parentIds := .absent, parentCodes := .absent, recordedAt := "" }
    let run (runId : String) : RunInfo := ⟨runId, "sort", "scripted", "", .null⟩
    let shared : Ledger :=
      { runs := [run "sort_0", run "sort_1"], invocations := [],
        rows := [row 1 "sort_0" 0, row 2 "sort_1" 0, row 3 "sort_0" 1, row 4 "sort_1" 1],
        nextId := 5 }
    let alone : Ledger :=
      { runs := [run "sort_1"], invocations := [], rows := [row 1 "sort_1" 0, row 2 "sort_1" 1],
        nextId := 3 }
    let lab := Script.laboratory Script.repairPrompt
    let settings : Settings := ⟨3, 1, 2, .standard⟩
    let world : Script := { replies := [.text "no"] }
    let after := (finalState (evolve lab "sort_1" "now" settings 0 1 none) ⟨shared, world⟩).ledger
    let after' := (finalState (evolve lab "sort_1" "then" settings 0 1 none) ⟨alone, world⟩).ledger
    shared.Renamed (· / 2) "sort_1" alone ∧
      decisions lab "sort_1" "now" settings 0 1 none ⟨shared, world⟩
        = [(⟨0, 0⟩, true), (⟨0, 1⟩, true), (⟨0, 2⟩, false)] ∧
      after.rowsOf "sort_0" = [row 1 "sort_0" 0, row 3 "sort_0" 1] ∧
      ∃ (f : Int → Int) (c : Candidate), f 2 = 1 ∧ f 4 = 2 ∧
        after.rows = shared.rows ++ [Row.ofCandidate 5 "sort_1" "now" c] ∧
        after'.rows = alone.rows ++ [Row.ofCandidate 3 "sort_1" "then" (c.renamed f)] := by
  intro row run shared alone lab settings world after after'
  have hrows : shared.rowsOf "sort_1" = [row 2 "sort_1" 0, row 4 "sort_1" 1] := rfl
  have hrows' : alone.rowsOf "sort_1" = alone.rows := rfl
  have hsame : shared.Renamed (· / 2) "sort_1" alone := by
    constructor
    · exact iff_of_true ⟨run "sort_1", by simp [alone], rfl⟩ ⟨run "sort_1", by simp [shared], rfl⟩
    · rfl
    · rw [hrows]
      decide
    · rw [hrows]
      decide
    · rw [hrows']
      decide
  obtain ⟨hdecisions, -, -, -, ⟨f, cs, hf, hcs, hcs', -⟩, hspare, -⟩ :=
    runs_are_isolated lab "sort_1" "now" "then" settings 0 1 none world shared alone (· / 2) hsame
  refine ⟨hsame, ?_, hspare.rows_eq "sort_0" (by decide), f, ?_⟩
  · rw [← hdecisions]
    cbv
  have hwritten : (finalState (evolve lab "sort_1" "now" settings 0 1 none)
      ⟨shared, world⟩).ledger.rows.length = 5 := by cbv
  have hone : cs.length = 1 := by
    rw [hcs, List.length_append, Ledger.length_rowsFrom] at hwritten
    exact Nat.add_left_cancel hwritten
  obtain ⟨c, rfl⟩ := List.length_eq_one_iff.mp hone
  exact ⟨c, hf (row 2 "sort_1" 0) (by simp [hrows]), hf (row 4 "sort_1" 1) (by simp [hrows]), hcs,
    hcs'⟩

end Calls

end Evolution

end HeuristicEvolution

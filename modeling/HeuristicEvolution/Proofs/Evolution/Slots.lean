import HeuristicEvolution.Proofs.Evolution.Steps
import HeuristicEvolution.Proofs.Ledger.Ranking

/-!
# The work on one slot

A slot that has a candidate is passed over. For any other slot parents are chosen, a record is
worked out in a conversation of its own, and the record goes into the ledger. This module takes
that work apart and says once what it can do: there are five ways in which it ends, and only the
last of them writes to the ledger.

A call carries the parents along that the first open slot of a generation chose. Here every slot
chooses anew; that this makes no difference is shown for whole passes.

## Main definitions

* `Evolution.parentsAt`: the parents that a slot has if they are chosen now.
* `Evolution.visit`, `Evolution.Visited`: the work on one slot, and how it ends.
* `Evolution.Taken`: what is known when a record is taken.

## Main results

* `Evolution.runSlot_eq`: the record of a slot, step by step.
* `Evolution.keepsLedger_runSlot`: nothing is recorded before the record is complete.
* `Evolution.visit_visited`, `Evolution.returned_of_visit`
-/

namespace HeuristicEvolution

namespace Evolution

variable {σ : Type}

/-! ## The record of a slot, step by step -/

section Record

variable (lab : Laboratory σ) (settings : Settings) (slot : Slot) (parents : Option Parents)

/-- The first prompt of a slot. -/
def firstPrompt : Run σ String :=
  match parents with
  | none => outside (lab.initialPrompt slot)
  | some p => outside (lab.mutationPrompt slot p.codes)

/-- The tools of a slot whose conversation has the given number. -/
def tools (session : Nat) : Repair.Tools σ where
  ask := lab.ask slot session
  build := lab.build slot
  repairPrompt := lab.repairPrompt
  policy := settings.policy

/-- The conversation of a slot: the first prompt, and builds and repairs of what comes back. -/
def talk (session : Nat) (prompt : String) :
    EStateM Failure (Conversation σ) RepairResult := do
  let response ← Conversation.send (lab.ask slot session) settings.policy prompt
  Repair.run (tools lab settings slot session) settings.buildAttempts prompt response

/-- The record of what was built, before it is measured. -/
def unmeasured (repaired : RepairResult) : Candidate :=
  { iter := slot.iter, sample := slot.sample, finalCode := repaired.finalCode,
    buildStatus := some repaired.built, execStatus := none, results := none, logs := none,
    revisions := repaired.revisions, parentIds := parents.map Parents.ids,
    parentCodes := parents.map Parents.codes }

/-- The record with the outcome of its experiment. -/
def measured (c : Candidate) (outcome : Outcome) : Candidate :=
  { c with execStatus := some outcome.executed, results := some outcome.results,
           logs := some outcome.logs }

/-- The last step: what was built is measured. -/
def measure (repaired : RepairResult) : Run σ Candidate :=
  if repaired.built then do
    let outcome ← outsideExcept (lab.experiment slot)
    return measured (unmeasured slot parents repaired) outcome
  else return unmeasured slot parents repaired

theorem runSlot_eq :
    runSlot lab settings slot parents = (do
      let prompt ← firstPrompt lab slot parents
      let session ← outside (lab.openSession slot)
      let repaired ← converse (talk lab settings slot session prompt)
      measure lab slot parents repaired) := by
  cases parents <;> rfl

theorem keepsLedger_firstPrompt : KeepsLedger (firstPrompt lab slot parents) := by
  cases parents <;> exact KeepsLedger.outside _

theorem keepsLedger_measure (repaired : RepairResult) :
    KeepsLedger (measure lab slot parents repaired) := by
  unfold measure
  split
  · exact (KeepsLedger.outsideExcept _).bind fun _ => .pure _
  · exact .pure _

/-- Nothing is recorded before the record is complete. -/
theorem keepsLedger_runSlot : KeepsLedger (runSlot lab settings slot parents) := by
  rw [runSlot_eq]
  refine (keepsLedger_firstPrompt lab slot parents).bind fun prompt => ?_
  refine (KeepsLedger.outside _).bind fun session => ?_
  exact (KeepsLedger.converse _).bind fun repaired => keepsLedger_measure lab slot parents repaired

variable {lab settings slot parents} {s s' : State σ}

/-- A record is made of what a conversation came to, and measured exactly if that was built. -/
theorem runSlot_eq_ok {c : Candidate} (h : runSlot lab settings slot parents s = .ok c s') :
    ∃ session prompt w repaired w',
      talk lab settings slot session prompt ⟨w, 0⟩ = .ok repaired w' ∧
        ((repaired.built = false ∧ c = unmeasured slot parents repaired) ∨
          (repaired.built = true ∧
            ∃ outcome, c = measured (unmeasured slot parents repaired) outcome)) := by
  rw [runSlot_eq] at h
  obtain ⟨prompt, _, -, h⟩ := bind_eq_ok_iff.mp h
  obtain ⟨session, t, -, h⟩ := bind_eq_ok_iff.mp h
  obtain ⟨repaired, _, htalk, h⟩ := bind_eq_ok_iff.mp h
  obtain ⟨w', htalk, -⟩ := converse_eq_ok_iff.mp htalk
  refine ⟨session, prompt, t.world, repaired, w', htalk, ?_⟩
  unfold measure at h
  split at h
  · next hbuilt =>
    obtain ⟨outcome, _, -, h⟩ := bind_eq_ok_iff.mp h
    obtain ⟨rfl, -⟩ := EStateM.Result.ok.inj h
    exact .inr ⟨hbuilt, outcome, rfl⟩
  · next hbuilt =>
    obtain ⟨rfl, -⟩ := EStateM.Result.ok.inj h
    exact .inl ⟨Bool.eq_false_iff.mpr hbuilt, rfl⟩

/-- The record of a slot names this slot, and its parents. -/
theorem slot_of_runSlot {c : Candidate} (h : runSlot lab settings slot parents s = .ok c s') :
    c.iter = slot.iter ∧ c.sample = slot.sample ∧ c.parentIds = parents.map Parents.ids ∧
      c.parentCodes = parents.map Parents.codes := by
  obtain ⟨-, -, -, repaired, -, -, ⟨-, rfl⟩ | ⟨-, outcome, rfl⟩⟩ := runSlot_eq_ok h
  · exact ⟨rfl, rfl, rfl, rfl⟩
  · exact ⟨rfl, rfl, rfl, rfl⟩

end Record

/-! ## Choosing and recording -/

section Choosing

variable {runId now : String} {settings : Settings} {iter bound : Nat} {s s' : State σ}
  {c : Candidate} {e : Failure}

/-- The parents that a slot of the iteration has if they are chosen now. -/
def parentsAt (l : Ledger) (runId : String) (settings : Settings) (iter : Nat) :
    Except Failure (Option Parents) :=
  if iter = 0 then .ok none else (l.selectParents runId iter settings.parents).map some

/-- Parents that are remembered are as good as chosen now, if a choice would give the same. -/
theorem parentsFor_apply {chosen : Option Parents}
    (h : ∀ p, chosen = some p → s.ledger.selectParents runId iter settings.parents = .ok p) :
    parentsFor runId settings iter chosen s =
      match parentsAt s.ledger runId settings iter with
      | .ok parents => .ok parents s
      | .error e => .error e s := by
  unfold parentsFor parentsAt
  by_cases hzero : iter = 0
  · rw [if_pos hzero, if_pos hzero]
  · rw [if_neg hzero, if_neg hzero]
    cases chosen with
    | some p => rw [h p rfl]; rfl
    | none => cases s.ledger.selectParents runId iter settings.parents <;> rfl

theorem parentsAt_eq_none_iff {l : Ledger} :
    parentsAt l runId settings iter = .ok none ↔ iter = 0 := by
  rw [parentsAt]
  split
  · next h => simp [h]
  · next h => cases l.selectParents runId iter settings.parents <;> simp [Except.map, h]

theorem parentsAt_eq_some_iff {l : Ledger} {p : Parents} :
    parentsAt l runId settings iter = .ok (some p) ↔
      iter ≠ 0 ∧ l.selectParents runId iter settings.parents = .ok p := by
  rw [parentsAt]
  split
  · next h => simp [h]
  · next h => cases l.selectParents runId iter settings.parents <;> simp [Except.map, h]

theorem parentsAt_eq_error_iff {l : Ledger} :
    parentsAt l runId settings iter = .error e ↔
      iter ≠ 0 ∧ (l.eligible runId (iter - 1)).length < 2 ∧
        e = .insufficientParents (iter - 1) (l.eligible runId (iter - 1)).length := by
  rw [← Ledger.selectParents_eq_error_iff (k := settings.parents), parentsAt]
  split
  · next h => simp [h]
  · next h => cases l.selectParents runId iter settings.parents <;> simp [Except.map, h]

/-- Later candidates of the generation do not change its parents. -/
theorem parentsAt_append (l : Ledger) (h : iter ≤ c.iter) :
    parentsAt (l.append runId now c) runId settings iter = parentsAt l runId settings iter := by
  rw [parentsAt, parentsAt]
  by_cases hzero : iter = 0
  · rw [if_pos hzero, if_pos hzero]
  · rw [if_neg hzero, if_neg hzero, Ledger.selectParents_append_of_lt runId hzero h]

theorem record_eq_ok_iff :
    record runId now bound c s = .ok () s' ↔
      c.flaw? bound = none ∧ ¬ s.ledger.HasCandidate runId c.iter c.sample ∧
        s.ledger.HasRun runId ∧ s' = { s with ledger := s.ledger.append runId now c } := by
  rw [record]
  cases hflaw : c.flaw? bound with
  | some flaw => simp
  | none =>
    cases hi : s.ledger.insert runId now c with
    | error e =>
      have hrefused : ¬ (¬ s.ledger.HasCandidate runId c.iter c.sample ∧
          s.ledger.HasRun runId) := by
        intro ⟨hfree, hrun⟩
        have hok : s.ledger.insert runId now c = .ok (s.ledger.nextId, _) :=
          Ledger.insert_eq_ok_iff.mpr ⟨hfree, hrun, rfl, rfl⟩
        rw [hi] at hok
        exact nomatch hok
      simp only [reduceCtorEq, true_and, false_iff]
      exact fun h => hrefused ⟨h.1, h.2.1⟩
    | ok r =>
      obtain ⟨id, l'⟩ := r
      obtain ⟨hfree, hrun, -, rfl⟩ := Ledger.insert_eq_ok_iff.mp hi
      simp [hfree, hrun, eq_comm]

/-- A record that is refused leaves everything as it was. -/
theorem record_of_error (h : record runId now bound c s = .error e s') : s' = s := by
  rw [record] at h
  split at h
  · simp only [EStateM.Result.error.injEq] at h
    exact h.2.symm
  · split at h
    · exact nomatch h
    · simp only [EStateM.Result.error.injEq] at h
      exact h.2.symm

end Choosing

/-! ## One slot -/

section Visits

variable (lab : Laboratory σ) (runId now : String) (settings : Settings) (slot : Slot)
  (s : State σ)

/-- The work on one slot: it is passed over, or filled by a record of its own. The parents are
chosen now. -/
def visit : Run σ (Option Candidate) := do
  if (← get).ledger.holds runId slot.iter slot.sample then return none
  else
    let parents ← parentsFor runId settings slot.iter none
    let c ← runSlot lab settings slot parents
    record runId now settings.buildAttempts c
    return some c

/-- **How the work on a slot ends.** Only the last of the five ways writes to the ledger. -/
inductive Visited :
    EStateM.Result Failure (State σ) (Option Candidate) → Prop where
  /-- The slot was filled before. -/
  | held : s.ledger.HasCandidate runId slot.iter slot.sample → Visited (.ok none s)
  /-- There are no parents for it. -/
  | barren {e : Failure} : ¬ s.ledger.HasCandidate runId slot.iter slot.sample →
      parentsAt s.ledger runId settings slot.iter = .error e → Visited (.error e s)
  /-- The model or the backend failed. -/
  | broken {parents : Option Parents} {e : Failure} {s' : State σ} :
      ¬ s.ledger.HasCandidate runId slot.iter slot.sample →
      parentsAt s.ledger runId settings slot.iter = .ok parents →
      runSlot lab settings slot parents s = .error e s' → Visited (.error e s')
  /-- The record was not taken. -/
  | refused {parents : Option Parents} {c : Candidate} {e : Failure} {s' : State σ} :
      ¬ s.ledger.HasCandidate runId slot.iter slot.sample →
      parentsAt s.ledger runId settings slot.iter = .ok parents →
      runSlot lab settings slot parents s = .ok c s' →
      record runId now settings.buildAttempts c s' = .error e s' → Visited (.error e s')
  /-- The record was taken. -/
  | filled {parents : Option Parents} {c : Candidate} {s' : State σ} :
      ¬ s.ledger.HasCandidate runId slot.iter slot.sample →
      parentsAt s.ledger runId settings slot.iter = .ok parents →
      runSlot lab settings slot parents s = .ok c s' →
      record runId now settings.buildAttempts c s'
        = .ok () { s' with ledger := s'.ledger.append runId now c } →
      Visited (.ok (some c) { s' with ledger := s'.ledger.append runId now c })

variable {lab runId now settings slot s}

theorem visit_of_held (h : s.ledger.HasCandidate runId slot.iter slot.sample) :
    visit lab runId now settings slot s = .ok none s := by
  change (if s.ledger.holds runId slot.iter slot.sample then _ else _ : Run σ _) s = _
  rw [if_pos (Ledger.holds_iff.mpr h)]
  rfl

theorem visit_of_free (h : ¬ s.ledger.HasCandidate runId slot.iter slot.sample) :
    visit lab runId now settings slot s = (do
      let parents ← parentsFor runId settings slot.iter none
      let c ← runSlot lab settings slot parents
      record runId now settings.buildAttempts c
      return some c : Run σ _) s := by
  change (if s.ledger.holds runId slot.iter slot.sample then _ else _ : Run σ _) s = _
  rw [if_neg (mt Ledger.holds_iff.mp h)]

/-- A slot without parents is not worked on. -/
theorem visit_of_barren {e : Failure} (h : ¬ s.ledger.HasCandidate runId slot.iter slot.sample)
    (hparents : parentsAt s.ledger runId settings slot.iter = .error e) :
    visit lab runId now settings slot s = .error e s := by
  have hfor : parentsFor runId settings slot.iter none s = _ :=
    parentsFor_apply (fun p hp => nomatch hp)
  rw [hparents] at hfor
  rw [visit_of_free h, bind_of_error hfor]

variable (lab runId now settings slot s)

theorem visit_visited :
    Visited lab runId now settings slot s (visit lab runId now settings slot s) := by
  by_cases hheld : s.ledger.HasCandidate runId slot.iter slot.sample
  · rw [visit_of_held hheld]
    exact .held hheld
  rw [visit_of_free hheld]
  have hfor : parentsFor runId settings slot.iter none s = _ :=
    parentsFor_apply (fun p hp => nomatch hp)
  cases hparents : parentsAt s.ledger runId settings slot.iter with
  | error e =>
    rw [hparents] at hfor
    rw [bind_of_error hfor]
    exact .barren hheld hparents
  | ok parents =>
    rw [hparents] at hfor
    rw [bind_of_ok hfor]
    cases hrun : runSlot lab settings slot parents s with
    | error e s' =>
      rw [bind_of_error hrun]
      exact .broken hheld hparents hrun
    | ok c s' =>
      rw [bind_of_ok hrun]
      cases hrecord : record runId now settings.buildAttempts c s' with
      | error e s'' =>
        obtain rfl := record_of_error hrecord
        rw [bind_of_error hrecord]
        exact .refused hheld hparents hrun hrecord
      | ok u s'' =>
        obtain ⟨-, -, -, rfl⟩ := record_eq_ok_iff.mp hrecord
        rw [bind_of_ok hrecord]
        exact .filled hheld hparents hrun hrecord

end Visits

/-- What is known when the record `c` of a slot is taken into the ledger `l`. -/
structure Taken (lab : Laboratory σ) (runId : String) (settings : Settings) (slot : Slot)
    (l : Ledger) (c : Candidate) : Prop where
  free : ¬ l.HasCandidate runId slot.iter slot.sample
  hasRun : l.HasRun runId
  flawless : c.flaw? settings.buildAttempts = none
  made : ∃ parents s s', s.ledger = l ∧ parentsAt l runId settings slot.iter = .ok parents ∧
    runSlot lab settings slot parents s = .ok c s'

namespace Taken

variable {lab : Laboratory σ} {runId now : String} {settings : Settings} {slot : Slot}
  {l : Ledger} {c : Candidate}

/-- The record that is taken is that of the slot. -/
theorem slot_eq (h : Taken lab runId settings slot l c) :
    c.iter = slot.iter ∧ c.sample = slot.sample := by
  obtain ⟨parents, s, s', -, -, hrun⟩ := h.made
  obtain ⟨hiter, hsample, -, -⟩ := slot_of_runSlot hrun
  exact ⟨hiter, hsample⟩

theorem free_of_record (h : Taken lab runId settings slot l c) :
    ¬ l.HasCandidate runId c.iter c.sample := by
  rw [h.slot_eq.1, h.slot_eq.2]
  exact h.free

theorem hasCandidate_append (h : Taken lab runId settings slot l c) :
    (l.append runId now c).HasCandidate runId slot.iter slot.sample := by
  rw [← h.slot_eq.1, ← h.slot_eq.2]
  exact Ledger.hasCandidate_append l runId now c

end Taken

section Ends

variable {lab : Laboratory σ} {runId now : String} {settings : Settings} {slot : Slot}
  {s s' : State σ}

/-- Work on a slot that fails leaves the ledger as it was. -/
theorem ledger_of_visit_error {e : Failure}
    (h : visit lab runId now settings slot s = .error e s') : s'.ledger = s.ledger := by
  have hvisit := visit_visited lab runId now settings slot s
  rw [h] at hvisit
  cases hvisit with
  | barren _ _ => rfl
  | broken _ _ hrun => exact (keepsLedger_runSlot lab settings slot _).of_error hrun
  | refused _ _ hrun _ => exact (keepsLedger_runSlot lab settings slot _).of_ok hrun

/-- Work on a slot that succeeds finds it filled, or fills it and returns the record. -/
theorem returned_of_visit {c? : Option Candidate}
    (h : visit lab runId now settings slot s = .ok c? s') :
    (c? = none ∧ s.ledger.HasCandidate runId slot.iter slot.sample ∧ s'.ledger = s.ledger) ∨
      ∃ c, c? = some c ∧ Taken lab runId settings slot s.ledger c ∧
        s'.ledger = s.ledger.append runId now c := by
  have hvisit := visit_visited lab runId now settings slot s
  rw [h] at hvisit
  cases hvisit with
  | held hheld => exact .inl ⟨rfl, hheld, rfl⟩
  | filled hfree hparents hrun hrecord =>
    rename_i parents c t
    have hledger := (keepsLedger_runSlot lab settings slot parents).of_ok hrun
    obtain ⟨hflaw, -, hhas, -⟩ := record_eq_ok_iff.mp hrecord
    refine .inr ⟨c, rfl, ⟨hfree, hledger ▸ hhas, hflaw, parents, s, t, rfl, hparents, hrun⟩, ?_⟩
    rw [hledger]

theorem taken_of_visit {c? : Option Candidate}
    (h : visit lab runId now settings slot s = .ok c? s') :
    (s.ledger.HasCandidate runId slot.iter slot.sample ∧ s'.ledger = s.ledger) ∨
      ∃ c, Taken lab runId settings slot s.ledger c ∧
        s'.ledger = s.ledger.append runId now c := by
  rcases returned_of_visit h with ⟨-, hheld⟩ | ⟨c, -, hfilled⟩
  · exact .inl hheld
  · exact .inr ⟨c, hfilled⟩

theorem hasCandidate_of_visit {c? : Option Candidate}
    (h : visit lab runId now settings slot s = .ok c? s') :
    s'.ledger.HasCandidate runId slot.iter slot.sample := by
  rcases taken_of_visit h with ⟨hheld, hsame⟩ | ⟨c, htaken, hmore⟩
  · rwa [hsame]
  · rw [hmore]
    exact htaken.hasCandidate_append

end Ends

end Evolution

end HeuristicEvolution

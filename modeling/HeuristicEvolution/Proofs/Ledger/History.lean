import HeuristicEvolution.Proofs.Ledger.Growth

/-!
# Histories of a ledger

Everything that can be done with a ledger is an operation, and a history is a list of operations
on a ledger that was empty. Names of runs are given by the caller and need not exist, and the
writers may come in any order.

The properties of histories all come from one case distinction, `Operation.perform_effect`: an
operation leaves the ledger alone, or it is one of the three ways of writing and it succeeded. What
holds of the empty ledger and is kept by the three ways holds after every history.

## Main definitions

* `Operation`, `Answer`, `Operation.perform`: one step.
* `Operation.Effect`: what one step can do to the tables.
* `Ledger.after`, `Ledger.handedOut`: the ledger that a history leaves, and the ids that it gave.

## Main results

* `Ledger.intact_after`, `Ledger.extends_after_append`: what every history keeps.
* `Ledger.history_integrity`
-/

namespace HeuristicEvolution

/-- What can be done with a ledger. Three operations write; `allocateRunId` only looks for a name,
and the others are questions. -/
inductive Operation where
  | createRun (run : RunInfo)
  | allocateRunId (task : String)
  | recordInvocation (call : Invocation)
  | insertCandidate (runId now : String) (c : Candidate)
  | runInfo (runId : String)
  | invocationCount (runId : String)
  | listRuns
  | hasCandidate (runId : String) (iter sample : Nat)
  | getCandidate (runId : String) (iter sample : Nat)
  | candidatesForRun (runId : String)
  | eligibleParents (runId : String) (maxIter : Nat)
  | topCandidates (runId : String) (limit : Nat)
  | iterationCounts (runId : String)

/-- What an operation answers when it does not fail. -/
inductive Answer where
  | done
  | runId (name : String)
  | inserted (id : Int)
  | info (run : Option RunInfo)
  | count (n : Nat)
  | runs (listing : List RunListing)
  | found (b : Bool)
  | candidate (c : Option Stored)
  | candidates (cs : List Stored)
  | eligible (rows : List Row)
  | iterations (counts : List IterationCounts)

namespace Operation

variable {l l' : Ledger}

/-- The end of a write. A refused one leaves the ledger as it was. -/
def settle (l : Ledger) : Except Failure (Answer × Ledger) → Except Failure Answer × Ledger
  | .ok (a, l') => (.ok a, l')
  | .error e => (.error e, l)

/-- One operation on a ledger. -/
def perform (l : Ledger) : Operation → Except Failure Answer × Ledger
  | createRun run => settle l ((l.addRun run).map fun l' => (.done, l'))
  | allocateRunId task => (.ok (.runId (l.freshRunId task)), l)
  | recordInvocation call => settle l ((l.recordInvocation call).map fun l' => (.done, l'))
  | insertCandidate runId now c =>
    settle l ((l.insert runId now c).map fun (id, l') => (.inserted id, l'))
  | runInfo runId => (.ok (.info (l.run? runId)), l)
  | invocationCount runId => (.ok (.count (l.invocationCount runId)), l)
  | listRuns => (.ok (.runs l.listing), l)
  | hasCandidate runId iter sample => (.ok (.found (l.holds runId iter sample)), l)
  | getCandidate runId iter sample => ((l.candidate? runId iter sample).map .candidate, l)
  | candidatesForRun runId => ((l.candidates runId).map .candidates, l)
  | eligibleParents runId maxIter => (.ok (.eligible (l.eligible runId maxIter)), l)
  | topCandidates runId limit => ((l.top runId limit).map .candidates, l)
  | iterationCounts runId => (.ok (.iterations (l.counts runId)), l)

/-- The id that an answer hands out. -/
def handedOut? : Except Failure Answer → Option Int
  | .ok (.inserted id) => some id
  | _ => none

/-- What one operation does to the tables, with the id that it hands out. -/
inductive Effect (l : Ledger) : Option Int → Ledger → Prop where
  | nothing : Effect l none l
  | run {run : RunInfo} {l' : Ledger} : l.addRun run = .ok l' → Effect l none l'
  | invocation {call : Invocation} {l' : Ledger} :
      l.recordInvocation call = .ok l' → Effect l none l'
  | candidate {runId now : String} {c : Candidate} {id : Int} {l' : Ledger} :
      l.insert runId now c = .ok (id, l') → Effect l (some id) l'

/-- A question hands out no id, whether it is answered or not. -/
theorem handedOut?_map {α : Type} {f : α → Answer} (hf : ∀ a id, f a ≠ .inserted id)
    (r : Except Failure α) : handedOut? (r.map f) = none := by
  cases r with
  | error e => rfl
  | ok a =>
    simp only [Except.map]
    cases h : f a with
    | inserted id => exact absurd h (hf a id)
    | _ => rfl

/-- **What an operation can do.** -/
theorem perform_effect (l : Ledger) (op : Operation) :
    Effect l (handedOut? (op.perform l).1) (op.perform l).2 := by
  cases op with
  | createRun run =>
    rw [perform]
    cases h : l.addRun run with
    | error e => exact .nothing
    | ok l' => exact .run h
  | recordInvocation call =>
    rw [perform]
    cases h : l.recordInvocation call with
    | error e => exact .nothing
    | ok l' => exact .invocation h
  | insertCandidate runId now c =>
    rw [perform]
    cases h : l.insert runId now c with
    | error e => exact .nothing
    | ok r => exact .candidate h
  | getCandidate runId iter sample =>
    have h := handedOut?_map (f := .candidate) (by simp) (l.candidate? runId iter sample)
    rw [perform, h]
    exact .nothing
  | candidatesForRun runId =>
    have h := handedOut?_map (f := .candidates) (by simp) (l.candidates runId)
    rw [perform, h]
    exact .nothing
  | topCandidates runId limit =>
    have h := handedOut?_map (f := .candidates) (by simp) (l.top runId limit)
    rw [perform, h]
    exact .nothing
  | _ => exact .nothing

/-- An operation that fails leaves the three tables and the next id as they were. -/
theorem perform_of_failed {op : Operation} {e : Failure} (h : (op.perform l).1 = .error e) :
    (op.perform l).2 = l := by
  cases op with
  | createRun run =>
    rw [perform] at h ⊢
    cases hr : l.addRun run with
    | error e => rfl
    | ok l' => simp [hr, Except.map, settle] at h
  | recordInvocation call =>
    rw [perform] at h ⊢
    cases hr : l.recordInvocation call with
    | error e => rfl
    | ok l' => simp [hr, Except.map, settle] at h
  | insertCandidate runId now c =>
    rw [perform] at h ⊢
    cases hr : l.insert runId now c with
    | error e => rfl
    | ok r => simp [hr, Except.map, settle] at h
  | _ => rfl

theorem Effect.extends {id? : Option Int} (h : Effect l id? l') : l.Extends l' := by
  cases h with
  | nothing => exact .refl l
  | run h => exact Ledger.extends_addRun h
  | invocation h => exact Ledger.extends_recordInvocation h
  | candidate h => exact Ledger.extends_insert h

theorem Effect.intact {id? : Option Int} (h : Effect l id? l') (hl : l.Intact) : l'.Intact := by
  cases h with
  | nothing => exact hl
  | run h => exact hl.addRun h
  | invocation h => exact hl.recordInvocation h
  | candidate h => exact hl.insert h

theorem Effect.nextId_eq (h : Effect l none l') : l'.nextId = l.nextId := by
  cases h with
  | nothing => rfl
  | run h => obtain ⟨-, rfl⟩ := Ledger.addRun_eq_ok_iff.mp h; rfl
  | invocation h => obtain ⟨-, rfl⟩ := Ledger.recordInvocation_eq_ok_iff.mp h; rfl

/-- It is the counter that is handed out, and then the counter moves on. -/
theorem Effect.handedOut_eq {id : Int} (h : Effect l (some id) l') :
    id = l.nextId ∧ l'.nextId = l.nextId + 1 := by
  cases h with
  | candidate h => obtain ⟨-, -, rfl, rfl⟩ := Ledger.insert_eq_ok_iff.mp h; exact ⟨rfl, rfl⟩

end Operation

namespace Ledger

/-! ## Histories -/

/-- The ledger that operations leave of a ledger. -/
def performAll (l : Ledger) (ops : List Operation) : Ledger :=
  ops.foldl (fun l op => (op.perform l).2) l

/-- The ledger that a history leaves. -/
def after (ops : List Operation) : Ledger := performAll empty ops

/-- The ids that operations are given, in order. -/
def handedOut : Ledger → List Operation → List Int
  | _, [] => []
  | l, op :: ops =>
    (Operation.handedOut? (op.perform l).1).toList ++ handedOut (op.perform l).2 ops

theorem extends_performAll (l : Ledger) (ops : List Operation) : l.Extends (l.performAll ops) := by
  induction ops generalizing l with
  | nil => exact .refl l
  | cons op ops ih => exact (op.perform_effect l).extends.trans (ih _)

/-- What was written is there for good: a longer history only adds to the tables. -/
theorem extends_after_append (ops more : List Operation) :
    (after ops).Extends (after (ops ++ more)) := by
  rw [after, after, performAll, performAll, List.foldl_append]
  exact extends_performAll _ more

theorem Intact.performAll {l : Ledger} (h : l.Intact) (ops : List Operation) :
    (l.performAll ops).Intact := by
  induction ops generalizing l with
  | nil => exact h
  | cons op ops ih => exact ih ((op.perform_effect l).intact h)

theorem intact_after (ops : List Operation) : (after ops).Intact :=
  Intact.empty.performAll ops

/-- The ids of a history ascend. The bound from below is what carries the induction. -/
theorem handedOut_ascend (l : Ledger) (ops : List Operation) :
    (handedOut l ops).Pairwise (· < ·) ∧ ∀ id ∈ handedOut l ops, l.nextId ≤ id := by
  induction ops generalizing l with
  | nil => simp [handedOut]
  | cons op ops ih =>
    obtain ⟨hpair, hle⟩ := ih (op.perform l).2
    have heffect := op.perform_effect l
    rw [handedOut]
    generalize Operation.handedOut? (op.perform l).1 = id? at heffect ⊢
    generalize (op.perform l).2 = l' at heffect hpair hle ⊢
    cases id? with
    | none =>
      rw [heffect.nextId_eq] at hle
      exact ⟨hpair, hle⟩
    | some id =>
      obtain ⟨rfl, hnext⟩ := heffect.handedOut_eq
      rw [hnext] at hle
      rw [Option.toList_some, List.singleton_append]
      refine ⟨List.pairwise_cons.mpr ⟨fun id hid => ?_, hpair⟩, fun id hid => ?_⟩
      · exact Int.lt_of_add_one_le (hle id hid)
      · rcases List.mem_cons.mp hid with rfl | hid
        · exact Int.le_refl _
        · exact Int.le_of_lt (Int.lt_of_add_one_le (hle id hid))

/-! ## How a candidate is answered -/

section Insertion

variable {l : Ledger} {runId now : String} {c : Candidate}

/-- The answer to a candidate, read off the insertion itself. -/
theorem perform_insertCandidate :
    ((Operation.insertCandidate runId now c).perform l).1
      = (l.insert runId now c).map fun r => .inserted r.1 := by
  rw [Operation.perform]
  cases l.insert runId now c <;> rfl

theorem inserted_iff :
    (∃ id, ((Operation.insertCandidate runId now c).perform l).1 = .ok (.inserted id)) ↔
      l.HasRun runId ∧ ¬ l.HasCandidate runId c.iter c.sample := by
  rw [perform_insertCandidate]
  constructor
  · rintro ⟨id, h⟩
    cases hi : l.insert runId now c with
    | error e => simp [hi, Except.map] at h
    | ok r => obtain ⟨hfree, hrun, -⟩ := insert_eq_ok_iff.mp hi; exact ⟨hrun, hfree⟩
  · rintro ⟨hrun, hfree⟩
    have hi : l.insert runId now c = .ok (l.nextId, l.append runId now c) :=
      insert_eq_ok_iff.mpr ⟨hfree, hrun, rfl, rfl⟩
    exact ⟨l.nextId, by rw [hi]; rfl⟩

theorem map_eq_error_iff {α β ε : Type} {f : α → β} {r : Except ε α} {e : ε} :
    r.map f = .error e ↔ r = .error e := by
  cases r <;> simp [Except.map]

theorem refused_duplicate_iff :
    ((Operation.insertCandidate runId now c).perform l).1
        = .error (.duplicateRecord runId c.iter c.sample) ↔
      l.HasCandidate runId c.iter c.sample := by
  rw [perform_insertCandidate, map_eq_error_iff, insert_eq_duplicate_iff]

/-- Of an intact ledger a slot of a run that does not exist is free, so a missing run is never
taken for a duplicate. -/
theorem Intact.refused_ledger_iff (hl : l.Intact) :
    (∃ context, ((Operation.insertCandidate runId now c).perform l).1
        = .error (.ledger context)) ↔ ¬ l.HasRun runId := by
  simp only [perform_insertCandidate, map_eq_error_iff, insert_eq_ledger_iff]
  constructor
  · exact fun h => h.2
  · intro hrun
    exact ⟨fun hheld => hrun (hl.hasRun_of_hasCandidate hheld), hrun⟩

end Insertion

/-- **Integrity over any history.** Whatever was done with a ledger that was empty, in whatever
order:

* no two candidates share a run, an iteration and a sample;
* every candidate and every call belongs to a run of the ledger;
* the ids that were handed out ascend;
* a candidate is taken exactly if its run exists and its slot is free, refused as a duplicate of
  just this slot exactly if the slot is filled, and refused otherwise exactly if there is no such
  run;
* an operation that fails changes nothing, the next id included;
* whatever is done later, no row is changed or taken away. -/
theorem history_integrity (ops : List Operation) :
    ((after ops).rows.map Row.place).Nodup ∧
    (∀ r ∈ (after ops).rows, (after ops).HasRun r.runId) ∧
    (∀ call ∈ (after ops).invocations, (after ops).HasRun call.runId) ∧
    (handedOut empty ops).Pairwise (· < ·) ∧
    (∀ runId now c,
      let answer := ((Operation.insertCandidate runId now c).perform (after ops)).1
      ((∃ id, answer = .ok (.inserted id)) ↔
        (after ops).HasRun runId ∧ ¬ (after ops).HasCandidate runId c.iter c.sample) ∧
      (answer = .error (.duplicateRecord runId c.iter c.sample) ↔
        (after ops).HasCandidate runId c.iter c.sample) ∧
      ((∃ context, answer = .error (.ledger context)) ↔ ¬ (after ops).HasRun runId)) ∧
    (∀ (op : Operation) (e : Failure), (op.perform (after ops)).1 = .error e →
      (op.perform (after ops)).2 = after ops) ∧
    ∀ more, (after ops).Extends (after (ops ++ more)) := by
  have hl := intact_after ops
  refine ⟨hl.places_nodup, hl.hasRun_of_row, hl.hasRun_of_invocation,
    (handedOut_ascend empty ops).1, fun runId now c => ?_, fun op e h => ?_,
    extends_after_append ops⟩
  · exact ⟨inserted_iff, refused_duplicate_iff, hl.refused_ledger_iff⟩
  · exact Operation.perform_of_failed h

end Ledger

end HeuristicEvolution

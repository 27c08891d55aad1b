import HeuristicEvolution.Ledger.Query
import Mathlib.Data.List.Pairwise

/-!
# How a ledger grows

A ledger is written in three ways only, and each of them adds one row to one table. This module
says what each way adds and when it is refused, and derives the two facts that everything about
histories rests on: rows are never lost, and the tables stay intact.

Intactness is what a database with a primary key, a unique slot and references to the runs would
guarantee. Here it is a theorem and not a constraint: `Ledger` is a plain structure, so a ledger
that was put together by hand need not be intact, and the lemmas say where intactness is used.

## Main definitions

* `RunInfo.Readable`: what is kept about the run can be read.
* `Ledger.Extends`: one ledger holds all that another one holds, in place.
* `Ledger.appendAll`: a ledger after several candidates were taken in.
* `Ledger.Intact`: names and slots are distinct, references lead to runs, ids ascend.

## Main results

* `Ledger.insert_eq_ok_iff`, `Ledger.insert_eq_error_iff`: when a candidate is taken, and why not.
* `Ledger.Intact.addRun`, `Ledger.Intact.recordInvocation`, `Ledger.Intact.insert`
-/

namespace HeuristicEvolution

section MapError

variable {ε ε' α : Type} {x : Except ε α} {f : ε → ε'}

theorem Except.mapError_eq_ok_iff {a : α} : x.mapError f = .ok a ↔ x = .ok a := by
  cases x with
  | error e => exact iff_of_false (fun h => by cases h) (fun h => by cases h)
  | ok b => exact ⟨fun h => congrArg _ (Except.ok.inj h), fun h => congrArg _ (Except.ok.inj h)⟩

theorem Except.mapError_eq_error_iff {e : ε'} :
    x.mapError f = .error e ↔ ∃ e', x = .error e' ∧ f e' = e := by
  cases x with
  | error e' =>
    refine ⟨fun h => ⟨e', rfl, Except.error.inj h⟩, ?_⟩
    rintro ⟨e'', he, rfl⟩
    rw [Except.error.inj he]
    rfl
  | ok a =>
    refine iff_of_false (fun h => by cases h) ?_
    rintro ⟨e', he, -⟩
    cases he

end MapError

/-- The slot of a row together with the run that it belongs to. -/
def Row.place (r : Row) : String × Nat × Nat := (r.runId, r.iter, r.sample)

theorem Row.isAt_iff {r : Row} {runId : String} {iter sample : Nat} :
    r.isAt runId iter sample = true ↔ r.place = (runId, iter, sample) := by
  simp [Row.isAt, Row.place, and_assoc]

@[simp] theorem Row.place_ofCandidate (id : Int) (runId now : String) (c : Candidate) :
    (Row.ofCandidate id runId now c).place = (runId, c.iter, c.sample) := rfl

/-- What is kept about the run can be read. -/
def RunInfo.Readable (run : RunInfo) : Prop := run.info.depth ≤ Json.depthLimit

namespace Ledger

variable {l l' : Ledger} {runId now : String} {c : Candidate} {id : Int}

/-! ## Looking up -/

/-- The slot of the run is filled. -/
def HasCandidate (l : Ledger) (runId : String) (iter sample : Nat) : Prop :=
  ∃ r ∈ l.rows, r.place = (runId, iter, sample)

theorem holds_iff {iter sample : Nat} :
    l.holds runId iter sample = true ↔ l.HasCandidate runId iter sample := by
  simp [holds, HasCandidate, Row.isAt_iff]

/-- There is a run of the given name. -/
def HasRun (l : Ledger) (runId : String) : Prop := ∃ run ∈ l.runs, run.runId = runId

theorem isSome_run?_iff : (l.run? runId).isSome = true ↔ l.HasRun runId := by
  simp [run?, HasRun, List.find?_isSome]

theorem isNone_run?_iff : (l.run? runId).isNone = true ↔ ¬ l.HasRun runId := by
  rw [← isSome_run?_iff]
  cases l.run? runId <;> simp

/-- A run is looked up with what is kept about it, which may be too deep to be read. -/
theorem runInfo?_cases (l : Ledger) (runId : String) :
    (l.run? runId = none ∧ l.runInfo? runId = .ok none) ∨
      ∃ run, l.run? runId = some run ∧
        (run.Readable ∧ l.runInfo? runId = .ok (some run) ∨
          ¬ run.Readable ∧ l.runInfo? runId = .error .badColumn) := by
  cases hrun : l.run? runId with
  | none => exact .inl ⟨rfl, by rw [runInfo?, hrun]⟩
  | some run =>
    refine .inr ⟨run, rfl, ?_⟩
    by_cases hread : run.Readable
    · exact .inl ⟨hread, by rw [runInfo?, hrun]; exact if_pos hread⟩
    · exact .inr ⟨hread, by rw [runInfo?, hrun]; exact if_neg hread⟩

/-- The second ledger holds all that the first one holds, as it was and in the same order. -/
structure Extends (l l' : Ledger) : Prop where
  runs : l.runs <+: l'.runs
  invocations : l.invocations <+: l'.invocations
  rows : l.rows <+: l'.rows

namespace Extends

theorem refl (l : Ledger) : l.Extends l :=
  ⟨List.prefix_refl _, List.prefix_refl _, List.prefix_refl _⟩

theorem trans {l₁ l₂ l₃ : Ledger} (h : l₁.Extends l₂) (h' : l₂.Extends l₃) : l₁.Extends l₃ :=
  ⟨h.runs.trans h'.runs, h.invocations.trans h'.invocations, h.rows.trans h'.rows⟩

theorem hasRun (h : l.Extends l') (hr : l.HasRun runId) : l'.HasRun runId := by
  obtain ⟨run, hmem, hid⟩ := hr
  exact ⟨run, h.runs.subset hmem, hid⟩

theorem hasCandidate (h : l.Extends l') {iter sample : Nat}
    (hl : l.HasCandidate runId iter sample) : l'.HasCandidate runId iter sample := by
  obtain ⟨r, hmem, hr⟩ := hl
  exact ⟨r, h.rows.subset hmem, hr⟩

end Extends

/-! ## The three tables

Each table gets one lemma for a row that is put in and one for a row that is refused. A refusal
hands out no ledger, so there is nothing to say about the tables in that case. -/

/-- What the ledger is after the candidate was taken in. -/
def append (l : Ledger) (runId now : String) (c : Candidate) : Ledger :=
  { l with
    rows := l.rows ++ [Row.ofCandidate l.nextId runId now c]
    nextId := l.nextId + 1 }

variable {violated : Constraint} {run : RunInfo} {call : Invocation} {e : Failure}

theorem putRun_eq_ok_iff :
    l.putRun run = .ok l' ↔ ¬ l.HasRun run.runId ∧ l' = { l with runs := l.runs ++ [run] } := by
  rw [putRun]
  split
  · next h => simp [isSome_run?_iff.mp h]
  · next h => simp [mt isSome_run?_iff.mpr h, eq_comm]

theorem putInvocation_eq_ok_iff :
    l.putInvocation call = .ok l' ↔
      l.HasRun call.runId ∧ l' = { l with invocations := l.invocations ++ [call] } := by
  rw [putInvocation]
  split
  · next h => simp [isNone_run?_iff.mp h]
  · next h =>
    have hr : l.HasRun call.runId := not_not.mp (mt isNone_run?_iff.mpr h)
    simp [hr, eq_comm]

theorem putInvocation_eq_error_iff :
    l.putInvocation call = .error violated ↔
      violated = .foreignKey ∧ ¬ l.HasRun call.runId := by
  rw [putInvocation, ← isNone_run?_iff]
  split
  · next h => simpa [h] using eq_comm
  · next h => simp [h]

theorem putCandidate_eq_ok_iff :
    l.putCandidate runId now c = .ok (id, l') ↔
      ¬ l.HasCandidate runId c.iter c.sample ∧ l.HasRun runId ∧ id = l.nextId ∧
        l' = l.append runId now c := by
  rw [putCandidate]
  split
  · next h => simp [holds_iff.mp h]
  · next h =>
    split
    · next hr => simp [isNone_run?_iff.mp hr]
    · next hr =>
      have hr : l.HasRun runId := not_not.mp (mt isNone_run?_iff.mpr hr)
      simp [mt holds_iff.mpr h, hr, append, eq_comm]

/-- **What a candidate can violate**: its slot is filled, or there is no such run. -/
theorem putCandidate_eq_error_iff :
    l.putCandidate runId now c = .error violated ↔
      (violated = .unique ∧ l.HasCandidate runId c.iter c.sample) ∨
        (violated = .foreignKey ∧ ¬ l.HasCandidate runId c.iter c.sample ∧ ¬ l.HasRun runId) := by
  rw [putCandidate, ← holds_iff, ← isNone_run?_iff]
  split
  · next h => simpa [h] using eq_comm
  · next h =>
    split
    · next hr => simpa [h, hr] using eq_comm
    · next hr => simp [h, hr]

/-! ## The three ways of writing -/

theorem addRun_eq_ok_iff :
    l.addRun run = .ok l' ↔
      ¬ l.HasRun run.runId ∧
        l' = { l with runs := l.runs ++ [{ run with info := run.info.asStored }] } := by
  rw [addRun, Except.mapError_eq_ok_iff, putRun_eq_ok_iff]

theorem recordInvocation_eq_ok_iff :
    l.recordInvocation call = .ok l' ↔
      l.HasRun call.runId ∧ l' = { l with invocations := l.invocations ++ [call] } := by
  rw [recordInvocation, Except.mapError_eq_ok_iff, putInvocation_eq_ok_iff]

theorem recordInvocation_eq_error_iff :
    l.recordInvocation call = .error e ↔ e = .ledger none ∧ ¬ l.HasRun call.runId := by
  rw [recordInvocation, Except.mapError_eq_error_iff]
  constructor
  · rintro ⟨violated, h, rfl⟩
    exact ⟨rfl, (putInvocation_eq_error_iff.mp h).2⟩
  · rintro ⟨rfl, hr⟩
    exact ⟨.foreignKey, putInvocation_eq_error_iff.mpr ⟨rfl, hr⟩, rfl⟩

theorem insert_eq_ok_iff :
    l.insert runId now c = .ok (id, l') ↔
      ¬ l.HasCandidate runId c.iter c.sample ∧ l.HasRun runId ∧ id = l.nextId ∧
        l' = l.append runId now c := by
  rw [insert, Except.mapError_eq_ok_iff, putCandidate_eq_ok_iff]

/-- **Why a candidate is not added.** A filled slot is told from a missing run by the number of the
violation. -/
theorem insert_eq_error_iff :
    l.insert runId now c = .error e ↔
      (e = .duplicateRecord runId c.iter c.sample ∧ l.HasCandidate runId c.iter c.sample) ∨
        (e = .ledger (some "failed to insert candidate") ∧
          ¬ l.HasCandidate runId c.iter c.sample ∧ ¬ l.HasRun runId) := by
  have hunique : insertFailure runId c .unique = .duplicateRecord runId c.iter c.sample := rfl
  have hforeign : insertFailure runId c .foreignKey = .ledger (some "failed to insert candidate") :=
    rfl
  rw [insert, Except.mapError_eq_error_iff]
  simp only [putCandidate_eq_error_iff]
  constructor
  · rintro ⟨violated, ⟨rfl, hfilled⟩ | ⟨rfl, hfree⟩, rfl⟩
    · exact .inl ⟨hunique, hfilled⟩
    · exact .inr ⟨hforeign, hfree⟩
  · rintro (⟨rfl, hfilled⟩ | ⟨rfl, hfree⟩)
    · exact ⟨.unique, .inl ⟨rfl, hfilled⟩, hunique⟩
    · exact ⟨.foreignKey, .inr ⟨rfl, hfree⟩, hforeign⟩

theorem insert_eq_duplicate_iff :
    l.insert runId now c = .error (.duplicateRecord runId c.iter c.sample) ↔
      l.HasCandidate runId c.iter c.sample := by
  simp [insert_eq_error_iff]

/-- Any other refusal means that there is no such run. -/
theorem insert_eq_ledger_iff :
    (∃ context, l.insert runId now c = .error (.ledger context)) ↔
      ¬ l.HasCandidate runId c.iter c.sample ∧ ¬ l.HasRun runId := by
  simp [insert_eq_error_iff]

/-- There are no other refusals. -/
theorem error_of_insert (h : l.insert runId now c = .error e) :
    e = .duplicateRecord runId c.iter c.sample ∨ ∃ context, e = .ledger context := by
  rcases insert_eq_error_iff.mp h with ⟨rfl, -⟩ | ⟨rfl, -⟩
  · exact .inl rfl
  · exact .inr ⟨_, rfl⟩

theorem extends_addRun (h : l.addRun run = .ok l') : l.Extends l' := by
  obtain ⟨-, rfl⟩ := addRun_eq_ok_iff.mp h
  exact ⟨List.prefix_append _ _, List.prefix_refl _, List.prefix_refl _⟩

theorem extends_recordInvocation (h : l.recordInvocation call = .ok l') :
    l.Extends l' := by
  obtain ⟨-, rfl⟩ := recordInvocation_eq_ok_iff.mp h
  exact ⟨List.prefix_refl _, List.prefix_append _ _, List.prefix_refl _⟩

theorem extends_append (l : Ledger) (runId now : String) (c : Candidate) :
    l.Extends (l.append runId now c) :=
  ⟨List.prefix_refl _, List.prefix_refl _, List.prefix_append _ _⟩

theorem extends_insert (h : l.insert runId now c = .ok (id, l')) : l.Extends l' := by
  obtain ⟨-, -, -, rfl⟩ := insert_eq_ok_iff.mp h
  exact extends_append l runId now c

/-- A slot that was filled is not free again. -/
theorem hasCandidate_append (l : Ledger) (runId now : String) (c : Candidate) :
    (l.append runId now c).HasCandidate runId c.iter c.sample :=
  ⟨Row.ofCandidate l.nextId runId now c, by simp [append], rfl⟩

/-- The slot of the new row is filled, and no other one. -/
theorem hasCandidate_append_iff {runId' : String} {iter sample : Nat} :
    (l.append runId now c).HasCandidate runId' iter sample ↔
      l.HasCandidate runId' iter sample ∨ (runId = runId' ∧ c.iter = iter ∧ c.sample = sample) := by
  simp [HasCandidate, append, or_and_right, exists_or]

/-! ### Several candidates -/

/-- The rows of candidates that are taken in one after the other, the first under the given id. -/
def rowsFrom (id : Int) (runId now : String) : List Candidate → List Row
  | [] => []
  | c :: cs => Row.ofCandidate id runId now c :: rowsFrom (id + 1) runId now cs

@[simp] theorem length_rowsFrom (id : Int) (runId now : String) (cs : List Candidate) :
    (rowsFrom id runId now cs).length = cs.length := by
  induction cs generalizing id with
  | nil => rfl
  | cons c rest ih => rw [rowsFrom, List.length_cons, List.length_cons, ih]

/-- What does not depend on the id is the same for the new rows and for the candidates. -/
theorem map_rowsFrom {α : Type} {f : Row → α} {g : Candidate → α}
    (h : ∀ id c, f (Row.ofCandidate id runId now c) = g c) (id : Int) (cs : List Candidate) :
    (rowsFrom id runId now cs).map f = cs.map g := by
  induction cs generalizing id with
  | nil => rfl
  | cons c rest ih => rw [rowsFrom, List.map_cons, List.map_cons, h, ih]

theorem countP_rowsFrom {p : Row → Bool} {q : Candidate → Bool}
    (h : ∀ id c, p (Row.ofCandidate id runId now c) = q c) (id : Int) (cs : List Candidate) :
    (rowsFrom id runId now cs).countP p = cs.countP q := by
  have hmap := congrArg (List.countP fun b : Bool => b) (map_rowsFrom h id cs)
  rw [List.countP_map, List.countP_map] at hmap
  exact hmap

/-- What the ledger is after the candidates were taken in, one after the other. -/
def appendAll (l : Ledger) (runId now : String) (cs : List Candidate) : Ledger :=
  { l with
    rows := l.rows ++ rowsFrom l.nextId runId now cs
    nextId := l.nextId + cs.length }

@[simp] theorem appendAll_nil (l : Ledger) (runId now : String) : l.appendAll runId now [] = l := by
  simp [appendAll, rowsFrom]

theorem appendAll_cons (l : Ledger) (runId now : String) (c : Candidate) (cs : List Candidate) :
    l.appendAll runId now (c :: cs) = (l.append runId now c).appendAll runId now cs := by
  simp [appendAll, append, rowsFrom, Int.add_assoc, Int.add_comm 1]

/-- What is taken in one after the other is taken in at once. -/
theorem appendAll_append (l : Ledger) (runId now : String) (cs ds : List Candidate) :
    l.appendAll runId now (cs ++ ds) = (l.appendAll runId now cs).appendAll runId now ds := by
  induction cs generalizing l with
  | nil => simp
  | cons c rest ih => rw [List.cons_append, appendAll_cons, appendAll_cons, ih]

/-- The slots of the new rows are filled, and no others. -/
theorem hasCandidate_appendAll_iff {runId' : String} {iter sample : Nat} {cs : List Candidate} :
    (l.appendAll runId now cs).HasCandidate runId' iter sample ↔
      l.HasCandidate runId' iter sample ∨
        ∃ c ∈ cs, runId = runId' ∧ c.iter = iter ∧ c.sample = sample := by
  induction cs generalizing l with
  | nil => simp
  | cons c cs ih =>
    simp only [appendAll_cons, ih, hasCandidate_append_iff, List.mem_cons, or_assoc,
      exists_eq_or_imp]

/-! ## Intact ledgers -/

/-- Names of runs are distinct, a slot has one candidate, calls and candidates belong to runs of
the ledger, and ids were handed out in ascending order. -/
structure Intact (l : Ledger) : Prop where
  names_nodup : (l.runs.map RunInfo.runId).Nodup
  places_nodup : (l.rows.map Row.place).Nodup
  hasRun_of_invocation : ∀ call ∈ l.invocations, l.HasRun call.runId
  hasRun_of_row : ∀ r ∈ l.rows, l.HasRun r.runId
  ids_ascend : l.rows.Pairwise fun a b => a.id < b.id
  ids_lt : ∀ r ∈ l.rows, r.id < l.nextId

namespace Intact

theorem empty : Ledger.empty.Intact := by
  constructor <;> simp [Ledger.empty]

/-- A filled slot names a run of the ledger; this is why a candidate is never refused for two
reasons at once. -/
theorem hasRun_of_hasCandidate (h : l.Intact) {iter sample : Nat}
    (hl : l.HasCandidate runId iter sample) : l.HasRun runId := by
  obtain ⟨r, hmem, hr⟩ := hl
  have hid : r.runId = runId := congrArg Prod.fst hr
  exact hid ▸ h.hasRun_of_row r hmem

theorem addRun (h : l.Intact) {run : RunInfo} (hr : l.addRun run = .ok l') : l'.Intact := by
  have hext := extends_addRun hr
  obtain ⟨hnew, rfl⟩ := addRun_eq_ok_iff.mp hr
  refine { h with names_nodup := ?_, hasRun_of_invocation := ?_, hasRun_of_row := ?_ }
  · rw [List.map_append, List.nodup_append]
    refine ⟨h.names_nodup, by simp, ?_⟩
    intro a ha b hb hab
    obtain ⟨old, hold, rfl⟩ := List.mem_map.mp ha
    simp only [List.map_cons, List.map_nil, List.mem_singleton] at hb
    exact hnew ⟨old, hold, hab.trans hb⟩
  · exact fun call hc => hext.hasRun (h.hasRun_of_invocation call hc)
  · exact fun r hmem => hext.hasRun (h.hasRun_of_row r hmem)

theorem recordInvocation (h : l.Intact) {call : Invocation}
    (hc : l.recordInvocation call = .ok l') : l'.Intact := by
  obtain ⟨hrun, rfl⟩ := recordInvocation_eq_ok_iff.mp hc
  refine { h with hasRun_of_invocation := ?_ }
  intro other hmem
  rcases List.mem_append.mp hmem with hold | hnew
  · exact h.hasRun_of_invocation other hold
  · obtain rfl := List.mem_singleton.mp hnew
    exact hrun

theorem append (h : l.Intact) (hfree : ¬ l.HasCandidate runId c.iter c.sample)
    (hrun : l.HasRun runId) : (l.append runId now c).Intact := by
  have hrows : (l.append runId now c).rows = l.rows ++ [Row.ofCandidate l.nextId runId now c] := rfl
  refine { h with places_nodup := ?_, hasRun_of_row := ?_, ids_ascend := ?_, ids_lt := ?_ }
  · rw [hrows, List.map_append, List.nodup_append]
    refine ⟨h.places_nodup, by simp, ?_⟩
    intro a ha b hb hab
    obtain ⟨old, hold, rfl⟩ := List.mem_map.mp ha
    simp only [List.map_cons, List.map_nil, List.mem_singleton, Row.place_ofCandidate] at hb
    exact hfree ⟨old, hold, hab.trans hb⟩
  · intro r hmem
    rcases List.mem_append.mp (hrows ▸ hmem) with hold | hnew
    · exact h.hasRun_of_row r hold
    · obtain rfl := List.mem_singleton.mp hnew
      exact hrun
  · rw [hrows, List.pairwise_append]
    refine ⟨h.ids_ascend, List.pairwise_singleton _ _, ?_⟩
    intro a ha b hb
    obtain rfl := List.mem_singleton.mp hb
    exact h.ids_lt a ha
  · intro r hmem
    rcases List.mem_append.mp (hrows ▸ hmem) with hold | hnew
    · exact Int.lt_trans (h.ids_lt r hold) (Int.lt_succ l.nextId)
    · obtain rfl := List.mem_singleton.mp hnew
      exact Int.lt_succ l.nextId

theorem insert (h : l.Intact) (hi : l.insert runId now c = .ok (id, l')) : l'.Intact := by
  obtain ⟨hfree, hrun, -, rfl⟩ := insert_eq_ok_iff.mp hi
  exact h.append hfree hrun

end Intact

end Ledger

end HeuristicEvolution

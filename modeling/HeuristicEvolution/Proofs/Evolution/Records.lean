import HeuristicEvolution.Evolution.Scripted
import HeuristicEvolution.Proofs.Evolution.Attempts
import HeuristicEvolution.Proofs.Evolution.Passes
import Mathlib

/-!
# The records that a call writes

A record is assembled from what a build-repair cycle comes to, and checked once more before it is
written. The check was added so that a mistake in the assembly cannot reach the ledger; this module
shows that there is none, so the check never stops a call.

## Main definitions

* `Candidate.Complete`: what holds of every record that is written.
* `Evolution.SlotFault`: why the work on a slot can fail.
* `Evolution.Written`: a ledger to which only such records were added.

## Main results

* `Candidate.Complete.flaw?_eq_none`: a complete record passes the check.
* `Evolution.complete_of_runSlot`: the record of a slot is complete.
* `Evolution.every_record_complete`
-/

namespace HeuristicEvolution

/-! ## Complete records -/

/-- The record of a slot for which at most `bound` builds were tried. -/
structure Candidate.Complete (c : Candidate) (bound : Nat) : Prop where
  length_pos : 1 ≤ c.revisions.length
  length_le : c.revisions.length ≤ bound
  /-- The attempts are numbered from zero. -/
  attempt_eq : ∀ i (h : i < c.revisions.length), (c.revisions.get ⟨i, h⟩).attempt = i
  failed_before_last : ∀ v ∈ c.revisions.dropLast, v.built = false
  buildStatus_eq : c.buildStatus = c.revisions.getLast?.map Revision.built
  /-- Only success ends the attempts early. -/
  built_of_short : c.revisions.length < bound → c.buildStatus = some true
  /-- The code is that of the last reply that had any. -/
  finalCode_eq : c.finalCode = (c.revisions.filterMap fun v => v.response.primaryCode).getLast?
  execStatus_iff : c.execStatus.isSome = true ↔ c.buildStatus = some true
  results_iff : c.results.isSome = true ↔ c.buildStatus = some true
  logs_iff : c.logs.isSome = true ↔ c.buildStatus = some true
  code_of_built : ∀ v ∈ c.revisions, v.built = true → v.response.primaryCode.isSome = true
  parted : ∀ v ∈ c.revisions, v.response.Parted

namespace Candidate.Complete

variable {c : Candidate} {bound : Nat}

/-- A record whose last attempt was built has code. -/
theorem isSome_finalCode (h : c.Complete bound) {last : Revision}
    (hlast : c.revisions.getLast? = some last) (hbuilt : last.built = true) :
    c.finalCode.isSome = true := by
  have hmem : last ∈ c.revisions := List.mem_of_getLast? hlast
  obtain ⟨code, hcode⟩ := Option.isSome_iff_exists.mp (h.code_of_built last hmem hbuilt)
  have hcodes : code ∈ c.revisions.filterMap fun v => v.response.primaryCode :=
    List.mem_filterMap.mpr ⟨last, hmem, hcode⟩
  rw [h.finalCode_eq, List.getLast?_isSome]
  exact List.ne_nil_of_mem hcodes

/-- **Nothing is wrong with a complete record.** -/
theorem flaw?_eq_none (h : c.Complete bound) : c.flaw? bound = none := by
  have hne : c.revisions ≠ [] := List.ne_nil_of_length_pos h.length_pos
  obtain ⟨last, hlast⟩ : ∃ last, c.revisions.getLast? = some last :=
    ⟨_, List.getLast?_eq_some_getLast hne⟩
  have hstatus : c.buildStatus = some last.built := by rw [h.buildStatus_eq, hlast]; rfl
  have hresults := h.results_iff
  have hexec := h.execStatus_iff
  rw [hstatus, Option.some.injEq] at hresults hexec
  have hcode := h.isSome_finalCode hlast
  unfold flaw?
  rw [hlast]
  simp only [Nat.not_lt.mpr h.length_le, hstatus, if_false, ne_eq, not_true_eq_false]
  rw [if_neg, if_neg]
  · rw [Bool.and_eq_true, Option.isNone_iff_eq_none]
    rintro ⟨hbuilt, hnone⟩
    have hsome := hcode hbuilt
    rw [hnone] at hsome
    exact nomatch hsome
  · cases hb : last.built <;> simp_all

end Candidate.Complete

/-! ## Assembling a record -/

namespace Evolution

section Assembly

variable {slot : Slot} {parents : Option Parents} {r : RepairResult} {bound : Nat}

/-- What an orderly cycle gives a record, up to the fields of the experiment. -/
theorem complete_of_orderly {c : Candidate} (h : r.Orderly bound 0 none) (hbound : 1 ≤ bound)
    (hrevisions : c.revisions = r.revisions) (hcode : c.finalCode = r.finalCode)
    (hbuilt : c.buildStatus = some r.built)
    (hexec : c.execStatus.isSome = r.built) (hresults : c.results.isSome = r.built)
    (hlogs : c.logs.isSome = r.built) : c.Complete bound := by
  have hpos : 0 < r.revisions.length := h.length_pos hbound
  have hstatus : ∀ b : Bool, b = true ↔ some b = some true := by simp
  obtain ⟨last, hlast⟩ : ∃ last, r.revisions.getLast? = some last :=
    ⟨_, List.getLast?_eq_some_getLast (List.ne_nil_of_length_pos hpos)⟩
  constructor
  case length_pos => rwa [hrevisions]
  case length_le => rw [hrevisions]; exact h.length_le
  case attempt_eq =>
    rw [hrevisions]
    intro i hi
    have hith := congrArg (fun xs => xs[i]?) h.attempts
    simpa [hi] using hith
  case failed_before_last => rw [hrevisions]; exact h.failed_before_last
  case buildStatus_eq =>
    rw [hbuilt, hrevisions, hlast, Option.map_some, h.built_of_last last hlast]
  case built_of_short =>
    rw [hrevisions, hbuilt]
    exact fun hshort => congrArg some (h.built_of_short hshort)
  case finalCode_eq => rw [hcode, h.finalCode_eq, hrevisions, Option.or_none]
  case execStatus_iff => rw [hexec, hbuilt]; exact hstatus _
  case results_iff => rw [hresults, hbuilt]; exact hstatus _
  case logs_iff => rw [hlogs, hbuilt]; exact hstatus _
  case code_of_built => rw [hrevisions]; exact h.code_of_built
  case parted => rw [hrevisions]; exact h.parted

theorem complete_unmeasured (h : r.Orderly bound 0 none) (hbound : 1 ≤ bound)
    (hbuilt : r.built = false) : (unmeasured slot parents r).Complete bound :=
  complete_of_orderly h hbound rfl rfl rfl hbuilt.symm hbuilt.symm hbuilt.symm

theorem complete_measured (h : r.Orderly bound 0 none) (hbound : 1 ≤ bound)
    (hbuilt : r.built = true) (outcome : Outcome) :
    (measured (unmeasured slot parents r) outcome).Complete bound :=
  complete_of_orderly h hbound rfl rfl rfl hbuilt.symm hbuilt.symm hbuilt.symm

end Assembly

variable {σ : Type} {lab : Laboratory σ} {runId now : String} {settings : Settings} {slot : Slot}

/-- The record of a slot is complete, whatever the model and the backend answered. -/
theorem complete_of_runSlot {parents : Option Parents} {s s' : State σ} {c : Candidate}
    (hbound : 1 ≤ settings.buildAttempts)
    (h : runSlot lab settings slot parents s = .ok c s') : c.Complete settings.buildAttempts := by
  obtain ⟨session, prompt, w, r, w', htalk, ⟨hbuilt, rfl⟩ | ⟨hbuilt, outcome, rfl⟩⟩ :=
    runSlot_eq_ok h
  · exact complete_unmeasured (talk_orderly htalk) hbound hbuilt
  · exact complete_measured (talk_orderly htalk) hbound hbuilt outcome

/-! ## What stops a call -/

/-- A record without a flaw is refused only for a filled slot or a missing run. -/
theorem record_eq_error {bound : Nat} {c : Candidate} {s s' : State σ} {e : Failure}
    (hflaw : c.flaw? bound = none) (h : record runId now bound c s = .error e s') :
    e = .duplicateRecord runId c.iter c.sample ∨ ∃ context, e = .ledger context := by
  rw [record, hflaw] at h
  cases hi : s.ledger.insert runId now c with
  | ok r =>
    rw [hi] at h
    cases h
  | error e' =>
    rw [hi] at h
    obtain ⟨rfl, -⟩ := EStateM.Result.error.inj h
    exact Ledger.error_of_insert hi

/-- Why the work on a slot can fail. -/
inductive SlotFault (lab : Laboratory σ) (runId : String) (settings : Settings) (slot : Slot) :
    Failure → Prop
  | parents {found : Nat} : slot.iter ≠ 0 →
      SlotFault lab runId settings slot (.insufficientParents (slot.iter - 1) found)
  | generation (message : String) : SlotFault lab runId settings slot (.generation message)
  | build {code : String} {w : σ} {e : Failure} : (lab.build slot code w).1 = .error e →
      SlotFault lab runId settings slot e
  | experiment {w : σ} {e : Failure} : (lab.experiment slot w).1 = .error e →
      SlotFault lab runId settings slot e
  | flawed {parents : Option Parents} {c : Candidate} {flaw : Candidate.Flaw} {s s' : State σ} :
      runSlot lab settings slot parents s = .ok c s' →
      c.flaw? settings.buildAttempts = some flaw →
      SlotFault lab runId settings slot (.inconsistent (c.flawMessage flaw))
  | duplicate (iter sample : Nat) :
      SlotFault lab runId settings slot (.duplicateRecord runId iter sample)
  | ledger (context : Option String) : SlotFault lab runId settings slot (.ledger context)

theorem slotFault_of_visit {s s' : State σ} {e : Failure}
    (h : visit lab runId now settings slot s = .error e s') :
    SlotFault lab runId settings slot e := by
  have hvisit := visit_visited lab runId now settings slot s
  rw [h] at hvisit
  cases hvisit with
  | barren _ hparents =>
    obtain ⟨hiter, -, rfl⟩ := parentsAt_eq_error_iff.mp hparents
    exact .parents hiter
  | broken _ _ hrun =>
    rcases runSlot_eq_error hrun with ⟨message, rfl⟩ | ⟨code, w, hbuild⟩ | ⟨w, hexperiment⟩
    · exact .generation message
    · exact .build hbuild
    · exact .experiment hexperiment
  | @refused _ c _ _ _ _ hrun hrecord =>
    cases hflaw : c.flaw? settings.buildAttempts with
    | some flaw =>
      rw [record, hflaw] at hrecord
      obtain ⟨rfl, -⟩ := EStateM.Result.error.inj hrecord
      exact .flawed hrun hflaw
    | none =>
      rcases record_eq_error hflaw hrecord with rfl | ⟨context, rfl⟩
      · exact .duplicate _ _
      · exact .ledger context

/-- Among the failures of a slot, an inconsistency is one of the backend's own. -/
theorem visit_eq_inconsistent {s s' : State σ} {m : String} (hbound : 1 ≤ settings.buildAttempts)
    (h : visit lab runId now settings slot s = .error (.inconsistent m) s') :
    (∃ code w, (lab.build slot code w).1 = .error (.inconsistent m)) ∨
      ∃ w, (lab.experiment slot w).1 = .error (.inconsistent m) := by
  cases slotFault_of_visit h with
  | build hbuild => exact .inl ⟨_, _, hbuild⟩
  | experiment hexperiment => exact .inr ⟨_, hexperiment⟩
  | flawed hrun hflaw =>
    rw [(complete_of_runSlot hbound hrun).flaw?_eq_none] at hflaw
    cases hflaw

/-! ## The whole call -/

/-- The rows of the ledger are the old ones, and after them rows of complete records. -/
def Written (lab : Laboratory σ) (runId now : String) (settings : Settings) (old : List Row)
    (l : Ledger) : Prop :=
  ∃ new, l.rows = old ++ new ∧
    ∀ r ∈ new, ∃ id c, r = Row.ofCandidate id runId now c ∧ c.Complete settings.buildAttempts ∧
      ∃ slot parents t t', runSlot lab settings slot parents t = .ok c t'

theorem Written.append {old : List Row} {l : Ledger} {c : Candidate}
    (h : Written lab runId now settings old l) (hbound : 1 ≤ settings.buildAttempts)
    (htaken : Taken lab runId settings slot l c) :
    Written lab runId now settings old (l.append runId now c) := by
  obtain ⟨new, hrows, hnew⟩ := h
  obtain ⟨parents, t, t', -, -, hrun⟩ := htaken.made
  refine ⟨new ++ [Row.ofCandidate l.nextId runId now c], ?_, fun r hr => ?_⟩
  · rw [Ledger.append, hrows, List.append_assoc]
  · rcases List.mem_append.mp hr with hold | hlast
    · exact hnew r hold
    · obtain rfl := List.mem_singleton.mp hlast
      exact ⟨l.nextId, c, rfl, complete_of_runSlot hbound hrun, slot, parents, t, t', hrun⟩

/-- A call that ends in any way has added rows of complete records. -/
theorem written_evolve (hbound : 1 ≤ settings.buildAttempts) (start stop : Nat)
    (checkout : Option Checkout) (s : State σ) :
    Written lab runId now settings s.ledger.rows
      (finalState (evolve lab runId now settings start stop checkout) s).ledger := by
  refine evolve_preserves ?_ ?_ s ⟨[], by simp, by simp⟩
  · rintro l l' call hnoted ⟨new, hrows, hnew⟩
    obtain ⟨-, rfl⟩ := Ledger.recordInvocation_eq_ok_iff.mp hnoted
    exact ⟨new, hrows, hnew⟩
  · exact fun slot _ l c htaken h => h.append hbound htaken

/-- **Every record is complete, and the check stops nobody.** For every laboratory, every ledger
and every call, however it ends:

* a failure of inconsistency is one that a build or an experiment of the laboratory returned;
* the check finds no flaw in the record of any slot;
* the call only adds rows, and each of them is the row of a complete record. -/
theorem every_record_complete (lab : Laboratory σ) (runId now : String) (settings : Settings)
    (start stop : Nat) (checkout : Option Checkout) (s : State σ)
    (hbound : 1 ≤ settings.buildAttempts) :
    (∀ m s', evolve lab runId now settings start stop checkout s = .error (.inconsistent m) s' →
      ∃ slot, (∃ code w, (lab.build slot code w).1 = .error (.inconsistent m)) ∨
        ∃ w, (lab.experiment slot w).1 = .error (.inconsistent m)) ∧
    (∀ slot parents t c t', runSlot lab settings slot parents t = .ok c t' →
      c.flaw? settings.buildAttempts = none) ∧
    ∃ new, (finalState (evolve lab runId now settings start stop checkout) s).ledger.rows
        = s.ledger.rows ++ new ∧
      ∀ r ∈ new, ∃ id c, r = Row.ofCandidate id runId now c ∧ c.Complete settings.buildAttempts ∧
        ∃ slot parents t t', runSlot lab settings slot parents t = .ok c t' := by
  refine ⟨fun m s' h => ?_, fun slot parents t c t' h => ?_, ?_⟩
  · rcases evolve_eq_error h with ⟨hfault, -⟩ | ⟨slot, -, t, hvisit⟩
    · exact nomatch hfault
    · exact ⟨slot, visit_eq_inconsistent hbound hvisit⟩
  · exact (complete_of_runSlot hbound h).flaw?_eq_none
  · exact written_evolve hbound start stop checkout s

/-- The code of one slot does not build at first, is mended, and crashes in its experiment. For the
other slot the model never writes any code. -/
theorem every_record_complete_scripted :
    let lab := Script.laboratory Script.repairPrompt
    let settings : Settings := ⟨2, 2, 2, .standard⟩
    let s : State Script :=
      ⟨{ Ledger.empty with runs := [⟨"sort_0", "sort", "scripted", "", .null⟩] },
        { replies := [.text "```c\na\n```", .text "```c\na;\n```", .text "no", .text "still no"],
          builds := [.ok Script.badBuild, .ok Script.goodBuild],
          outcomes := [.ok Script.crashed] }⟩
    ∃ new, (finalState (evolve lab "sort_0" "" settings 0 1 none) s).ledger.rows = new ∧
      new.map (fun r => (r.finalCode, r.buildStatus, r.execStatus))
        = [(some "a;", some true, some false), (none, some false, none)] ∧
      ∀ r ∈ new, ∃ id c, r = Row.ofCandidate id "sort_0" "" c ∧ c.Complete 2 := by
  intro lab settings s
  obtain ⟨-, -, new, hrows, hnew⟩ :=
    every_record_complete lab "sort_0" "" settings 0 1 none s (by decide)
  refine ⟨new, hrows, ?_, fun r hr => ?_⟩
  · change _ = [] ++ new at hrows
    rw [List.nil_append] at hrows
    rw [← hrows]
    cbv
  · obtain ⟨id, c, hrow, hcomplete, -⟩ := hnew r hr
    exact ⟨id, c, hrow, hcomplete⟩

end Evolution

end HeuristicEvolution

import HeuristicEvolution.Proofs.Ledger.Ranking

/-!
# One run in two ledgers

All runs share one table, and one counter hands out the ids of all candidates. So the same work on
a run leaves other ids behind when other runs were worked on in between. This module says when two
ledgers hold the same of one run, and that a call cannot tell them apart: whether a slot is filled,
who the parents of a generation are and whether a record is taken has the same answer in both, up
to the renaming of ids.

## What is compared

`Row.outline` is all that a call ever reads of a row. The logs, the results beside the score, the
conversation, the parents and the time of a row are left out, so two ledgers are also compared
if their rows differ in these. Of the ids only their order is read. That the renaming keeps the
order of the ids of one run is needed where two scores are equal; of the ids of other runs nothing
is asked.

## Main definitions

* `Candidate.renamed`, `Parents.renamed`: other ids for the parents.
* `Ledger.Renamed`: the two ledgers hold the same of the run, up to a renaming of ids.
* `Ledger.InStep`: the ids that come next correspond as well.
* `Ledger.SpareOthers`: nothing of another run has changed.

## Main results

* `Ledger.Renamed.hasCandidate_iff`, `Ledger.Renamed.selectParents`: reading.
* `Ledger.InStep.append`, `Ledger.InStep.insert`: writing.
-/

namespace HeuristicEvolution

/-! ## Other ids -/

/-- The record with other ids for its parents. -/
def Candidate.renamed (f : Int → Int) (c : Candidate) : Candidate :=
  { c with parentIds := c.parentIds.map (List.map f) }

/-- The parents under other ids. -/
def Parents.renamed (f : Int → Int) (p : Parents) : Parents := { p with ids := p.ids.map f }

@[simp] theorem Candidate.flaw?_renamed (f : Int → Int) (c : Candidate) (bound : Nat) :
    (c.renamed f).flaw? bound = c.flaw? bound := rfl

/-- What a call reads of a row, under another id: place, statuses, code and score. -/
def Row.outline (f : Int → Int) (r : Row) : Row :=
  { r with
    id := f r.id, results := .absent, logs := .absent, revisions := .absent,
    parentIds := .absent, parentCodes := .absent, recordedAt := "" }

/-- What is read of the row of a record does not depend on the ids of its parents. -/
theorem Row.outline_ofCandidate_renamed {f g h : Int → Int} {id id' : Int} (hid : g id' = f id)
    (runId now now' : String) (c : Candidate) :
    (Row.ofCandidate id' runId now' (c.renamed h)).outline g =
      (Row.ofCandidate id runId now c).outline f := by
  simp only [Row.outline, Row.ofCandidate, hid]
  rfl

namespace Ledger

variable {f : Int → Int} {runId now now' : String} {l l' : Ledger} {c : Candidate}

/-- A slot is filled by a row of its run. -/
theorem hasCandidate_iff_mem_rowsOf {iter sample : Nat} :
    l.HasCandidate runId iter sample ↔ ∃ r ∈ l.rowsOf runId, r.iter = iter ∧ r.sample = sample := by
  simp [HasCandidate, rowsOf, Row.place, and_assoc]

theorem rowsOf_append_self (l : Ledger) (runId now : String) (c : Candidate) :
    (l.append runId now c).rowsOf runId
      = l.rowsOf runId ++ [Row.ofCandidate l.nextId runId now c] := by
  simp [rowsOf, append, List.filter_append, Row.ofCandidate]

/-! ## The same run -/

/-- Both ledgers have the run or neither has it, and its rows are the same in both, as far as a
call reads them, up to a renaming of ids that keeps their order. The ids that come next are higher
than those of the run. Of other runs nothing is said. -/
structure Renamed (f : Int → Int) (runId : String) (l l' : Ledger) : Prop where
  hasRun_iff : l'.HasRun runId ↔ l.HasRun runId
  rows_eq : (l'.rowsOf runId).map (Row.outline id) = (l.rowsOf runId).map (Row.outline f)
  ascends : ∀ a ∈ l.rowsOf runId, ∀ b ∈ l.rowsOf runId, a.id < b.id → f a.id < f b.id
  ids_lt : ∀ r ∈ l.rowsOf runId, r.id < l.nextId
  ids_lt' : ∀ r ∈ l'.rowsOf runId, r.id < l'.nextId

namespace Renamed

/-- What is read from outlines only is the same in both ledgers. -/
theorem map_eq {α : Type} {g : Row → α} (h : l.Renamed f runId l')
    (hg : ∀ f r, g (Row.outline f r) = g r) :
    (l'.rowsOf runId).map g = (l.rowsOf runId).map g := by
  have hrows := congrArg (List.map g) h.rows_eq
  rw [List.map_map, List.map_map] at hrows
  have hcomp : ∀ f, g ∘ Row.outline f = g := fun f => funext (hg f)
  rwa [hcomp, hcomp] at hrows

/-- The ids of the run in the second ledger are those of the first one, renamed. -/
theorem ids_eq (h : l.Renamed f runId l') :
    (l'.rowsOf runId).map Row.id = (l.rowsOf runId).map fun r => f r.id := by
  have hrows := congrArg (List.map Row.id) h.rows_eq
  rwa [List.map_map, List.map_map] at hrows

/-- A renamed id is an id of the second ledger, and so below the one that comes next there. -/
theorem renamed_lt (h : l.Renamed f runId l') {r : Row} (hr : r ∈ l.rowsOf runId) :
    f r.id < l'.nextId := by
  have hmem : f r.id ∈ (l'.rowsOf runId).map Row.id := by
    rw [h.ids_eq]
    exact List.mem_map.mpr ⟨r, hr, rfl⟩
  obtain ⟨r', hr', hid⟩ := List.mem_map.mp hmem
  exact hid ▸ h.ids_lt' r' hr'

theorem hasCandidate_iff (h : l.Renamed f runId l') {iter sample : Nat} :
    l'.HasCandidate runId iter sample ↔ l.HasCandidate runId iter sample := by
  have hplaces := h.map_eq (g := fun r => (r.iter, r.sample)) fun _ _ => rfl
  have hmem : (iter, sample) ∈ (l'.rowsOf runId).map (fun r => (r.iter, r.sample)) ↔
      (iter, sample) ∈ (l.rowsOf runId).map fun r => (r.iter, r.sample) := by rw [hplaces]
  simpa only [hasCandidate_iff_mem_rowsOf, List.mem_map, Prod.mk.injEq] using hmem

/-- Renaming keeps the order of two ids of the run, in both directions. -/
theorem le_iff (h : l.Renamed f runId l') {a b : Row} (ha : a ∈ l.rowsOf runId)
    (hb : b ∈ l.rowsOf runId) : f a.id ≤ f b.id ↔ a.id ≤ b.id := by
  rcases Int.lt_trichotomy a.id b.id with hlt | heq | hgt
  · have := h.ascends a ha b hb hlt
    omega
  · rw [heq]
    simp
  · have := h.ascends b hb a ha hgt
    omega

/-- **The ranking of a run does not see other runs.** -/
theorem eligible_eq (h : l.Renamed f runId l') (maxIter : Nat) :
    (l'.eligible runId maxIter).map (Row.outline id) =
      (l.eligible runId maxIter).map (Row.outline f) := by
  have hfilter : ∀ (k : Ledger) (g : Int → Int),
      (k.candidatesForParents runId maxIter).map (Row.outline g) =
        ((k.rowsOf runId).map (Row.outline g)).filter fun r =>
          r.iter ≤ maxIter && r.ranked && r.finalCode.isSome := by
    intro k g
    rw [candidatesForParents, List.filter_map]
    rfl
  have hsub : ∀ r ∈ l.candidatesForParents runId maxIter, r ∈ l.rowsOf runId :=
    fun r hr => (List.mem_filter.mp hr).1
  have hrank : ∀ a ∈ l.candidatesForParents runId maxIter,
      ∀ b ∈ l.candidatesForParents runId maxIter,
        a.rankLE b = (a.outline f).rankLE (b.outline f) := by
    intro a ha b hb
    rw [Bool.eq_iff_iff, Row.rankLE_iff, Row.rankLE_iff]
    change _ ↔ b.scoreKey < a.scoreKey ∨ (a.scoreKey = b.scoreKey ∧ f a.id ≤ f b.id)
    rw [h.le_iff (hsub a ha) (hsub b hb)]
  have hrank' : ∀ a b : Row, a.rankLE b = (a.outline id).rankLE (b.outline id) := fun _ _ => rfl
  rw [Ledger.eligible_eq, Ledger.eligible_eq, List.map_mergeSort hrank,
    List.map_mergeSort fun a _ b _ => hrank' a b, hfilter, hfilter, h.rows_eq]

/-- **The same parents are chosen**, under their other ids, or none for the same reason. -/
theorem selectParents (h : l.Renamed f runId l') (iter k : Nat) :
    l'.selectParents runId iter k = (l.selectParents runId iter k).map (Parents.renamed f) := by
  have hranking := h.eligible_eq (iter - 1)
  have hlength := congrArg List.length hranking
  rw [List.length_map, List.length_map] at hlength
  have hread : ∀ {α : Type} (g : Row → α),
      ((l'.eligible runId (iter - 1)).take k).map (g ∘ Row.outline id) =
        ((l.eligible runId (iter - 1)).take k).map (g ∘ Row.outline f) := by
    intro α g
    rw [← List.map_map, ← List.map_map, List.map_take, List.map_take (f := Row.outline f), hranking]
  have hids := hread Row.id
  have hcodes := congrArg (List.filterMap id) (hread Row.finalCode)
  have hscores := congrArg (List.filterMap id) (hread Row.score)
  simp only [List.filterMap_map] at hcodes hscores
  rw [Ledger.selectParents, Ledger.selectParents]
  simp only [hlength]
  split
  · rfl
  · refine congrArg Except.ok ?_
    simp only [Parents.renamed, Parents.mk.injEq, true_and, List.map_map]
    exact ⟨hids, hcodes, hscores⟩

/-- Only the ids of the run are renamed. -/
theorem congr {g : Int → Int} (h : l.Renamed f runId l')
    (hg : ∀ r ∈ l.rowsOf runId, g r.id = f r.id) : l.Renamed g runId l' where
  hasRun_iff := h.hasRun_iff
  rows_eq := by
    rw [h.rows_eq]
    refine List.map_congr_left fun r hr => ?_
    rw [Row.outline, Row.outline, hg r hr]
  ascends a ha b hb hlt := by
    rw [hg a ha, hg b hb]
    exact h.ascends a ha b hb hlt
  ids_lt := h.ids_lt
  ids_lt' := h.ids_lt'

/-- Notes of calls are not read. -/
theorem recordInvocation {call call' : Invocation} {k k' : Ledger} (h : l.Renamed f runId l')
    (hk : l.recordInvocation call = .ok k) (hk' : l'.recordInvocation call' = .ok k') :
    k.Renamed f runId k' := by
  obtain ⟨-, rfl⟩ := recordInvocation_eq_ok_iff.mp hk
  obtain ⟨-, rfl⟩ := recordInvocation_eq_ok_iff.mp hk'
  exact ⟨h.hasRun_iff, h.rows_eq, h.ascends, h.ids_lt, h.ids_lt'⟩

end Renamed

/-! ## The ids that come next -/

/-- The ledgers hold the same of the run, and what is recorded in both from now on gets ids that
correspond. -/
structure InStep (f : Int → Int) (runId : String) (l l' : Ledger) : Prop where
  renamed : l.Renamed f runId l'
  next : ∀ k : Nat, f (l.nextId + k) = l'.nextId + k

/-- The renaming, continued to the ids that come next. -/
def continued (f : Int → Int) (l l' : Ledger) (i : Int) : Int :=
  if i < l.nextId then f i else i - l.nextId + l'.nextId

theorem continued_of_lt {i : Int} (h : i < l.nextId) : continued f l l' i = f i := if_pos h

theorem Renamed.inStep (h : l.Renamed f runId l') : l.InStep (continued f l l') runId l' where
  renamed := h.congr fun r hr => continued_of_lt (h.ids_lt r hr)
  next k := by
    rw [continued, if_neg (by omega)]
    omega

namespace InStep

theorem next_eq (h : l.InStep f runId l') : f l.nextId = l'.nextId := by
  simpa using h.next 0

/-- **Writing.** The same record, with its parents under their other ids, keeps the ledgers in
step. -/
theorem append (h : l.InStep f runId l') (now now' : String) (c : Candidate) :
    (l.append runId now c).InStep f runId (l'.append runId now' (c.renamed f)) where
  renamed := by
    refine ⟨h.renamed.hasRun_iff, ?_, ?_, ?_, ?_⟩
    · rw [rowsOf_append_self, rowsOf_append_self, List.map_append, List.map_append,
        h.renamed.rows_eq, List.map_singleton, List.map_singleton,
        Row.outline_ofCandidate_renamed (f := f) (g := id) h.next_eq.symm]
    · intro a ha b hb hlt
      rw [rowsOf_append_self, List.mem_append, List.mem_singleton] at ha hb
      rcases ha with ha | rfl <;> rcases hb with hb | rfl
      · exact h.renamed.ascends a ha b hb hlt
      · change f a.id < f l.nextId
        rw [h.next_eq]
        exact h.renamed.renamed_lt ha
      · exact absurd hlt (Int.lt_asymm (h.renamed.ids_lt b hb))
      · exact absurd hlt (Int.lt_irrefl _)
    · intro r hr
      rw [rowsOf_append_self, List.mem_append, List.mem_singleton] at hr
      rcases hr with hr | rfl
      · exact Int.lt_trans (h.renamed.ids_lt r hr) (Int.lt_succ l.nextId)
      · exact Int.lt_succ l.nextId
    · intro r hr
      rw [rowsOf_append_self, List.mem_append, List.mem_singleton] at hr
      rcases hr with hr | rfl
      · exact Int.lt_trans (h.renamed.ids_lt' r hr) (Int.lt_succ l'.nextId)
      · exact Int.lt_succ l'.nextId
  next k := by
    have hnext := h.next (k + 1)
    have hshift : ∀ n : Int, n + 1 + k = n + (k + 1 : Nat) := by omega
    change f (l.nextId + 1 + k) = l'.nextId + 1 + k
    rw [hshift, hshift, hnext]

/-- The same records are taken in both, and the others are refused for the same reason. -/
theorem insert (h : l.InStep f runId l') (now now' : String) (c : Candidate) :
    (∃ e, l.insert runId now c = .error e ∧ l'.insert runId now' (c.renamed f) = .error e) ∨
      (l.insert runId now c = .ok (l.nextId, l.append runId now c) ∧
        l'.insert runId now' (c.renamed f)
          = .ok (l'.nextId, l'.append runId now' (c.renamed f))) := by
  have hheld : l'.holds runId c.iter c.sample = l.holds runId c.iter c.sample := by
    rw [Bool.eq_iff_iff, holds_iff, holds_iff]
    exact h.renamed.hasCandidate_iff
  have hrun : (l'.run? runId).isNone = (l.run? runId).isNone := by
    rw [Bool.eq_iff_iff, isNone_run?_iff, isNone_run?_iff, h.renamed.hasRun_iff]
  have hplace : (l'.putCandidate runId now' (c.renamed f)) =
      if l.holds runId c.iter c.sample then .error .unique
      else if (l.run? runId).isNone then .error .foreignKey
      else .ok (l'.nextId, l'.append runId now' (c.renamed f)) := by
    rw [← hheld, ← hrun]
    rfl
  rw [Ledger.insert, Ledger.insert, hplace, putCandidate]
  split
  · exact .inl ⟨_, rfl, rfl⟩
  · split
    · exact .inl ⟨_, rfl, rfl⟩
    · exact .inr ⟨rfl, rfl⟩

end InStep

/-! ## Other runs -/

/-- Nothing that the first ledger holds of other runs is changed in the second one. -/
structure SpareOthers (runId : String) (l l' : Ledger) : Prop where
  runs_eq : l'.runs = l.runs
  invocations_eq : ∀ other, other ≠ runId →
    l'.invocations.filter (·.runId == other) = l.invocations.filter (·.runId == other)
  rows_eq : ∀ other, other ≠ runId → l'.rowsOf other = l.rowsOf other

namespace SpareOthers

theorem refl (runId : String) (l : Ledger) : l.SpareOthers runId l :=
  ⟨rfl, fun _ _ => rfl, fun _ _ => rfl⟩

theorem trans {l₁ l₂ l₃ : Ledger} (h : l₁.SpareOthers runId l₂) (h' : l₂.SpareOthers runId l₃) :
    l₁.SpareOthers runId l₃ where
  runs_eq := h'.runs_eq.trans h.runs_eq
  invocations_eq other hne := (h'.invocations_eq other hne).trans (h.invocations_eq other hne)
  rows_eq other hne := (h'.rows_eq other hne).trans (h.rows_eq other hne)

theorem recordInvocation {call : Invocation} (h : l.recordInvocation call = .ok l') :
    l.SpareOthers call.runId l' := by
  obtain ⟨-, rfl⟩ := recordInvocation_eq_ok_iff.mp h
  refine ⟨rfl, fun other hne => ?_, fun _ _ => rfl⟩
  simp [List.filter_append, hne.symm]

theorem append (l : Ledger) (runId now : String) (c : Candidate) :
    l.SpareOthers runId (l.append runId now c) := by
  refine ⟨rfl, fun _ _ => rfl, fun other hne => ?_⟩
  simp [rowsOf, Ledger.append, List.filter_append, Row.ofCandidate, hne.symm]

theorem appendAll (l : Ledger) (runId now : String) (cs : List Candidate) :
    l.SpareOthers runId (l.appendAll runId now cs) := by
  induction cs generalizing l with
  | nil => rw [appendAll_nil]; exact .refl runId l
  | cons c rest ih =>
    rw [appendAll_cons]
    exact (append l runId now c).trans (ih _)

end SpareOthers

end Ledger

end HeuristicEvolution

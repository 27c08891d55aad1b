import HeuristicEvolution.Ledger.Selection
import HeuristicEvolution.Proofs.Ledger.Growth

/-!
# Ranking and selection

The rows that can be parents are sorted by score and id, and the best of them are taken. This
module says which rows are ranked, in what order, and which changes of a ledger cannot be seen
from a ranking.

## What a generation cannot see

`Ledger.eligible_append_of_lt` is the lemma that resumption rests on. A generation ranks the rows
of strictly earlier iterations, so the rows that it adds itself are invisible to it: choosing the
parents again, at any later slot of the generation, gives the parents that were chosen first.

## Main definitions

* `Row.Better`: the strict order of a ranking.
* `Ledger.Ranks`: a ranking for a generation, by what it holds and how it is sorted.

## Main results

* `Ledger.mem_eligible_iff`, `Ledger.Intact.eligible_better`: what is ranked, and how.
* `Ledger.selectParents_eq_ok_iff`: when parents are found, and which.
* `Ledger.selectParents_append_of_lt`
-/

namespace HeuristicEvolution

namespace Row

/-- The first row has the higher score, or the scores are equal and it was recorded earlier. -/
def Better (a b : Row) : Prop :=
  b.scoreKey < a.scoreKey ∨ (a.scoreKey = b.scoreKey ∧ a.id < b.id)

theorem rankLE_iff {a b : Row} :
    a.rankLE b = true ↔ b.scoreKey < a.scoreKey ∨ (a.scoreKey = b.scoreKey ∧ a.id ≤ b.id) := by
  simp [rankLE]

theorem rankLE_trans (a b c : Row) (hab : a.rankLE b = true) (hbc : b.rankLE c = true) :
    a.rankLE c = true := by
  rw [rankLE_iff] at *
  omega

theorem rankLE_total (a b : Row) : (a.rankLE b || b.rankLE a) = true := by
  rw [Bool.or_eq_true, rankLE_iff, rankLE_iff]
  omega

/-- Between rows with different ids the ranking is strict. -/
theorem better_of_rankLE {a b : Row} (h : a.rankLE b = true) (hne : a.id ≠ b.id) :
    a.Better b := by
  rw [rankLE_iff] at h
  unfold Better
  omega

theorem exists_score_of_ranked {r : Row} (h : r.ranked = true) : ∃ x, r.score = some x :=
  Option.isSome_iff_exists.mp (Bool.and_eq_true_iff.mp h).2

end Row

namespace Ledger

variable {l : Ledger} {runId now : String} {c : Candidate}

/-! ## Ranked rows -/

/-- The rows that take part in a ranking, in the order in which they were recorded. -/
def candidatesForParents (l : Ledger) (runId : String) (maxIter : Nat) : List Row :=
  (l.rowsOf runId).filter fun r => r.iter ≤ maxIter && r.ranked && r.finalCode.isSome

theorem eligible_eq (l : Ledger) (runId : String) (maxIter : Nat) :
    l.eligible runId maxIter = (l.candidatesForParents runId maxIter).mergeSort Row.rankLE := rfl

theorem mem_eligible_iff {maxIter : Nat} {r : Row} :
    r ∈ l.eligible runId maxIter ↔
      r ∈ l.rows ∧ r.runId = runId ∧ r.iter ≤ maxIter ∧ r.ranked = true ∧
        r.finalCode.isSome = true := by
  rw [eligible_eq, List.mem_mergeSort, candidatesForParents, List.mem_filter, rowsOf,
    List.mem_filter]
  simp only [Bool.and_eq_true, beq_iff_eq, decide_eq_true_eq, and_assoc]

theorem pairwise_eligible (l : Ledger) (runId : String) (maxIter : Nat) :
    (l.eligible runId maxIter).Pairwise fun a b => a.rankLE b = true :=
  List.pairwise_mergeSort Row.rankLE_trans Row.rankLE_total _

/-- The ranking of two rows. -/
theorem eligible_of_two {maxIter : Nat} {a b : Row}
    (h : l.candidatesForParents runId maxIter = [a, b]) :
    l.eligible runId maxIter = if a.rankLE b then [a, b] else [b, a] := by
  rw [eligible_eq, h]
  simp [List.mergeSort, List.MergeSort.Internal.splitInTwo, List.merge]

/-- A ranking for a generation: the rows of earlier iterations of the run that were built, ran, and
have a score and code, the higher score first, and of equal scores the lower id. -/
structure Ranks (l : Ledger) (runId : String) (iter : Nat) (ranking : List Row) : Prop where
  perm : ranking.Perm (l.rows.filter fun r => r.runId = runId ∧ r.iter < iter ∧
    r.buildStatus = some true ∧ r.execStatus = some true ∧ r.score.isSome ∧ r.finalCode.isSome)
  sorted : ranking.Pairwise fun a b =>
    b.scoreKey < a.scoreKey ∨ (a.scoreKey = b.scoreKey ∧ a.id ≤ b.id)

theorem ranks_eligible (l : Ledger) (runId : String) {iter : Nat} (h : iter ≠ 0) :
    l.Ranks runId iter (l.eligible runId (iter - 1)) where
  perm := by
    rw [eligible_eq]
    refine (List.mergeSort_perm _ _).trans (List.Perm.of_eq ?_)
    rw [candidatesForParents, rowsOf, List.filter_filter]
    refine List.filter_congr fun r _ => ?_
    have hle : r.iter ≤ iter - 1 ↔ r.iter < iter := by omega
    rw [Bool.and_comm, Bool.eq_iff_iff]
    simp only [Bool.and_eq_true, decide_eq_true_eq, beq_iff_eq, Row.ranked, Row.succeeded, hle,
      and_assoc]
  sorted := (pairwise_eligible l runId (iter - 1)).imp Row.rankLE_iff.mp

/-- Rows of the generation itself and of later ones do not change its ranking. -/
theorem Ranks.appendAll {iter : Nat} {ranking : List Row} (h : l.Ranks runId iter ranking)
    {cs : List Candidate} (hcs : ∀ c ∈ cs, iter ≤ c.iter) (runId' : String) :
    (l.appendAll runId' now cs).Ranks runId iter ranking := by
  induction cs generalizing l with
  | nil => simpa using h
  | cons c rest ih =>
    obtain ⟨hfirst, hrest⟩ := List.forall_mem_cons.mp hcs
    rw [appendAll_cons]
    refine ih ⟨?_, h.sorted⟩ hrest
    have hnew : ¬ (Row.ofCandidate l.nextId runId' now c).iter < iter := Nat.not_lt.mpr hfirst
    simpa [append, List.filter_append, hnew] using h.perm

/-- In an intact ledger no two ranked rows share an id. -/
theorem Intact.nodup_ids_eligible (h : l.Intact) (maxIter : Nat) :
    ((l.eligible runId maxIter).map Row.id).Nodup := by
  have hrows : (l.rows.map Row.id).Nodup :=
    List.pairwise_map.mpr (h.ids_ascend.imp fun hlt => Int.ne_of_lt hlt)
  have hsub : ((l.candidatesForParents runId maxIter).map Row.id).Sublist (l.rows.map Row.id) :=
    (List.filter_sublist.trans List.filter_sublist).map Row.id
  have hperm : ((l.eligible runId maxIter).map Row.id).Perm
      ((l.candidatesForParents runId maxIter).map Row.id) :=
    (List.mergeSort_perm _ _).map Row.id
  exact hperm.nodup_iff.mpr (hsub.nodup hrows)

/-- **The order of a ranking.** -/
theorem Intact.eligible_better (h : l.Intact) (maxIter : Nat) :
    (l.eligible runId maxIter).Pairwise Row.Better := by
  have hnodup : ((l.eligible runId maxIter).map Row.id).Nodup := h.nodup_ids_eligible maxIter
  have hne := List.pairwise_map.mp hnodup
  exact (hne.and (pairwise_eligible l runId maxIter)).imp fun ⟨hid, hle⟩ =>
    Row.better_of_rankLE hle hid

/-! ## Selection -/

/-- Where every value is present, leaving out the absent ones loses none. -/
theorem map_eq_map_some_filterMap {α β : Type} {f : α → Option β} {xs : List α}
    (h : ∀ x ∈ xs, (f x).isSome = true) : xs.map f = (xs.filterMap f).map some := by
  induction xs with
  | nil => rfl
  | cons x rest ih =>
    obtain ⟨b, hb⟩ := Option.isSome_iff_exists.mp (h x List.mem_cons_self)
    have hrest := ih fun y hy => h y (List.mem_cons_of_mem _ hy)
    rw [List.map_cons, List.filterMap_cons_some hb, List.map_cons, hrest, hb]

theorem selectParents_eq_error_iff {iter k : Nat} {e : Failure} :
    l.selectParents runId iter k = .error e ↔
      (l.eligible runId (iter - 1)).length < 2 ∧
        e = .insufficientParents (iter - 1) (l.eligible runId (iter - 1)).length := by
  rw [selectParents]
  split
  · next h =>
    simp only [Except.error.injEq, eq_comm (a := e)]
    exact ⟨fun he => ⟨h, he⟩, fun he => he.2⟩
  · next h => simp; omega

theorem selectParents_eq_ok_iff {iter k : Nat} {p : Parents} :
    l.selectParents runId iter k = .ok p ↔
      2 ≤ (l.eligible runId (iter - 1)).length ∧
        p = { sourceIter := iter - 1
              ids := ((l.eligible runId (iter - 1)).take k).map Row.id
              codes := ((l.eligible runId (iter - 1)).take k).filterMap Row.finalCode
              scores := ((l.eligible runId (iter - 1)).take k).filterMap Row.score } := by
  rw [selectParents]
  split
  · next h => simp; omega
  · next h =>
    simp only [Except.ok.injEq, eq_comm (a := p)]
    exact ⟨fun hp => ⟨Nat.le_of_not_lt h, hp⟩, fun hp => hp.2⟩

/-! ## What a ranking does not see -/

/-- Rows of later iterations are not ranked. -/
theorem eligible_append_of_lt {maxIter : Nat} (runId' : String) (h : maxIter < c.iter) :
    (l.append runId' now c).eligible runId maxIter = l.eligible runId maxIter := by
  have hnew : ¬ (Row.ofCandidate l.nextId runId' now c).iter ≤ maxIter := Nat.not_le.mpr h
  simp [eligible, rowsOf, append, List.filter_append, hnew]

/-- **A generation does not see its own rows.** -/
theorem selectParents_append_of_lt {iter k : Nat} (runId' : String) (hpos : iter ≠ 0)
    (h : iter ≤ c.iter) :
    (l.append runId' now c).selectParents runId iter k = l.selectParents runId iter k := by
  have hlt : iter - 1 < c.iter := by omega
  rw [selectParents, selectParents, eligible_append_of_lt runId' hlt]

end Ledger

end HeuristicEvolution

import HeuristicEvolution.Proofs.Decimal.Order
import HeuristicEvolution.Proofs.Ledger.Ranking

/-!
# Parents are the best of the stock

The parents of a generation are taken off the front of a ranking. What that means is said here
without rankings: there is a stock of rows from which a generation may be bred, and a choice of `k`
rows of it is the best one if every chosen row outranks every row that is passed over. The order is
that of scores, and rows with one score keep the order in which they were recorded.

In an intact ledger that order is the order of ids (`Intact.recordedBefore_iff`), and this is how a
query that sorts by score and id comes to be stable. Scores are compared by their keys, which for
scores that are numbers is the order of the numbers (`Binary.notAbove_iff`).

## Main definitions

* `Ledger.stock`: the rows that may become parents of a generation.
* `Ledger.RecordedBefore`, `Ledger.Outranks`: the order in which they are preferred.
* `Ledger.Best`: a choice of the best of them.

## Main results

* `Ledger.Intact.best_take`: the front of the ranking is the best choice.
* `Ledger.selection_is_best`: when parents are selected, and which.
-/

namespace HeuristicEvolution.Ledger

variable {l : Ledger} {runId : String} {iter k : Nat} {a b : Row}

/-- The rows from which a generation may be bred: those of earlier iterations of the run that were
built, ran to the end, and have a score and code. -/
def stock (l : Ledger) (runId : String) (iter : Nat) : List Row :=
  l.rows.filter fun r => r.runId = runId ∧ r.iter < iter ∧ r.buildStatus = some true ∧
    r.execStatus = some true ∧ r.score.isSome ∧ r.finalCode.isSome

theorem perm_eligible_stock (l : Ledger) (runId : String) (h : 0 < iter) :
    (l.eligible runId (iter - 1)).Perm (l.stock runId iter) :=
  (l.ranks_eligible runId (Nat.ne_of_gt h)).perm

theorem mem_of_mem_stock (h : a ∈ l.stock runId iter) : a ∈ l.rows := (List.mem_filter.mp h).1

theorem isSome_of_mem_stock (h : a ∈ l.stock runId iter) :
    a.score.isSome = true ∧ a.finalCode.isSome = true := by
  have hkept := of_decide_eq_true (List.mem_filter.mp h).2
  exact hkept.2.2.2.2

/-! ## The order of preference -/

/-- The first row was recorded before the second one. -/
def RecordedBefore (l : Ledger) (a b : Row) : Prop := [a, b].Sublist l.rows

/-- In an intact ledger rows were recorded in the order of their ids. -/
theorem Intact.recordedBefore_iff (h : l.Intact) (ha : a ∈ l.rows) (hb : b ∈ l.rows) :
    l.RecordedBefore a b ↔ a.id < b.id := by
  refine ⟨fun hsub => List.pairwise_iff_forall_sublist.mp h.ids_ascend hsub, fun hlt => ?_⟩
  obtain ⟨earlier, later, hrows⟩ := List.append_of_mem ha
  have hascend := h.ids_ascend
  rw [hrows, List.pairwise_append] at hascend
  rw [hrows, List.mem_append, List.mem_cons] at hb
  rcases hb with hearlier | rfl | hlater
  · exact absurd (hascend.2.2 b hearlier a List.mem_cons_self) (Int.lt_asymm hlt)
  · exact absurd hlt (Int.lt_irrefl _)
  · rw [RecordedBefore, hrows]
    exact ((List.singleton_sublist.mpr hlater).cons_cons a).trans (List.sublist_append_right _ _)

/-- The first row has the higher score, or both have one score and it was recorded earlier. -/
def Outranks (l : Ledger) (a b : Row) : Prop :=
  ∃ x y, a.score = some x ∧ b.score = some y ∧
    (Binary.key y < Binary.key x ∨ (Binary.key x = Binary.key y ∧ l.RecordedBefore a b))

theorem Intact.outranks_of_better (h : l.Intact) (ha : a ∈ l.stock runId iter)
    (hb : b ∈ l.stock runId iter) (hbetter : a.Better b) : l.Outranks a b := by
  obtain ⟨x, hx⟩ := Option.isSome_iff_exists.mp (isSome_of_mem_stock ha).1
  obtain ⟨y, hy⟩ := Option.isSome_iff_exists.mp (isSome_of_mem_stock hb).1
  rw [Row.Better, Row.scoreKey, Row.scoreKey, hx, hy] at hbetter
  refine ⟨x, y, hx, hy, hbetter.imp id (And.imp id fun hid => ?_)⟩
  exact (h.recordedBefore_iff (mem_of_mem_stock ha) (mem_of_mem_stock hb)).mpr hid

/-! ## The best choice -/

/-- The best `k` rows of the stock, or all of them if there are less, best first. -/
structure Best (l : Ledger) (runId : String) (iter k : Nat) (best : List Row) : Prop where
  length_eq : best.length = min k (l.stock runId iter).length
  nodup : best.Nodup
  mem_stock : ∀ r ∈ best, r ∈ l.stock runId iter
  ordered : best.Pairwise l.Outranks
  outranks : ∀ a ∈ best, ∀ b ∈ l.stock runId iter, b ∉ best → l.Outranks a b

theorem Intact.eligible_outranks (h : l.Intact) (hiter : 0 < iter) :
    (l.eligible runId (iter - 1)).Pairwise l.Outranks := by
  have hstock := l.perm_eligible_stock runId hiter
  refine (h.eligible_better (iter - 1)).imp_of_mem fun ha hb hbetter => ?_
  exact h.outranks_of_better (hstock.mem_iff.mp ha) (hstock.mem_iff.mp hb) hbetter

theorem Intact.nodup_eligible (h : l.Intact) (maxIter : Nat) : (l.eligible runId maxIter).Nodup :=
  List.Nodup.of_map Row.id (h.nodup_ids_eligible maxIter)

/-- **The front of the ranking is the best choice.** -/
theorem Intact.best_take (h : l.Intact) (hiter : 0 < iter) (k : Nat) :
    l.Best runId iter k ((l.eligible runId (iter - 1)).take k) := by
  have hstock := l.perm_eligible_stock runId hiter
  have hparts := List.take_append_drop k (l.eligible runId (iter - 1))
  have hordered : (l.eligible runId (iter - 1)).Pairwise l.Outranks := h.eligible_outranks hiter
  refine ⟨?_, ?_, fun r hr => ?_, ?_, fun a ha b hb hout => ?_⟩
  · rw [List.length_take, hstock.length_eq]
  · exact (List.take_sublist _ _).nodup (h.nodup_eligible _)
  · exact hstock.mem_iff.mp (List.mem_of_mem_take hr)
  · exact hordered.sublist (List.take_sublist _ _)
  · rw [← hparts, List.pairwise_append] at hordered
    have hranked := hstock.mem_iff.mpr hb
    rw [← hparts, List.mem_append] at hranked
    exact hordered.2.2 a ha b (hranked.resolve_left hout)

/-! ## Selection -/

/-- The lists of a selection speak of the selected rows, position by position. -/
structure Lists (p : Parents) (best : List Row) : Prop where
  ids : p.ids = best.map Row.id
  codes : best.map Row.finalCode = p.codes.map some
  scores : best.map Row.score = p.scores.map some

theorem lists_of_selectParents {p : Parents} (h : l.selectParents runId iter k = .ok p) :
    Lists p ((l.eligible runId (iter - 1)).take k) := by
  obtain rfl := (selectParents_eq_ok_iff.mp h).2
  have hkept : ∀ r ∈ (l.eligible runId (iter - 1)).take k,
      r.score.isSome = true ∧ r.finalCode.isSome = true := by
    intro r hr
    obtain ⟨-, -, -, hranked, hcode⟩ := mem_eligible_iff.mp (List.mem_of_mem_take hr)
    exact ⟨(Bool.and_eq_true_iff.mp hranked).2, hcode⟩
  exact ⟨rfl, map_eq_map_some_filterMap fun r hr => (hkept r hr).2,
    map_eq_map_some_filterMap fun r hr => (hkept r hr).1⟩

/-- The scores of rows that outrank each other descend. -/
theorem Lists.scores_descend {p : Parents} {best : List Row} (h : Lists p best)
    (hordered : best.Pairwise l.Outranks) :
    p.scores.Pairwise fun x y => Binary.NotAbove y x := by
  have hscores : (best.map Row.score).Pairwise fun s t =>
      ∀ x y, s = some x → t = some y → Binary.NotAbove y x := by
    refine List.pairwise_map.mpr (hordered.imp ?_)
    rintro a b ⟨x, y, hx, hy, hrank⟩ x' y' hx' hy'
    obtain rfl := Option.some.inj (hx.symm.trans hx')
    obtain rfl := Option.some.inj (hy.symm.trans hy')
    rw [Binary.notAbove_iff]
    rcases hrank with hlt | ⟨heq, -⟩
    · exact Int.le_of_lt hlt
    · exact Int.le_of_eq heq.symm
  rw [h.scores] at hscores
  exact (List.pairwise_map.mp hscores).imp fun hle => hle _ _ rfl rfl

/-- **Parents are the best of the stock.** In an intact ledger, and so in every ledger that was
filled by its operations, selection for a generation after the first one is refused exactly if there
are less than two rows in the stock, and then says how many there are. Otherwise it returns the ids,
codes and scores of the best `k` of them; their scores descend, rows with one score stand in the
order in which they were recorded, and every row that is left out comes after every row that was
chosen. -/
theorem selection_is_best (h : l.Intact) (hiter : 0 < iter) (k : Nat) :
    (l.stock runId iter).Nodup ∧
    (∀ e, l.selectParents runId iter k = .error e ↔
      (l.stock runId iter).length < 2 ∧
        e = .insufficientParents (iter - 1) (l.stock runId iter).length) ∧
    (2 ≤ (l.stock runId iter).length →
      ∃ p best, l.selectParents runId iter k = .ok p ∧ p.sourceIter = iter - 1 ∧
        l.Best runId iter k best ∧ Lists p best ∧
        p.scores.Pairwise fun x y => Binary.NotAbove y x) := by
  have hstock := l.perm_eligible_stock runId hiter
  refine ⟨hstock.nodup_iff.mp (h.nodup_eligible _), fun e => ?_, fun htwo => ?_⟩
  · rw [selectParents_eq_error_iff, hstock.length_eq]
  · have hbest : l.Best runId iter k _ := h.best_take hiter k
    obtain ⟨p, hfound⟩ : ∃ p, l.selectParents runId iter k = .ok p :=
      ⟨_, selectParents_eq_ok_iff.mpr ⟨htwo.trans_eq hstock.length_eq.symm, rfl⟩⟩
    have hlists := lists_of_selectParents hfound
    have hsource : p.sourceIter = iter - 1 := by rw [(selectParents_eq_ok_iff.mp hfound).2]
    exact ⟨p, _, hfound, hsource, hbest, hlists, hlists.scores_descend hbest.ordered⟩

/-- Of three rows in the stock two are chosen: the best one, and the earlier one of two that tie. A
row that failed and one of a later iteration are not in the stock, whatever their scores. -/
theorem selection_is_best_of_three :
    let row (id : Int) (iter sample : Nat) (ran : Bool) (score : Option Float) : Row :=
      { id, runId := "sort_0", iter, sample, finalCode := some "code", buildStatus := some true,
        execStatus := some ran, score, results := .absent, logs := .absent, revisions := .absent,
        parentIds := .absent, parentCodes := .absent, recordedAt := "" }
    let l : Ledger :=
      { runs := [⟨"sort_0", "sort", "scripted", "", .null⟩], invocations := [],
        rows := [row 1 0 0 true (some 0.5), row 2 0 1 false none, row 3 1 0 true (some 2),
          row 4 0 2 true (some 1), row 5 0 3 true (some 0.5)],
        nextId := 6 }
    l.Intact ∧ ∃ p best, l.selectParents "sort_0" 1 2 = .ok p ∧ l.Best "sort_0" 1 2 best ∧
      Lists p best ∧ p.ids = [4, 1] := by
  intro row l
  have hintact : l.Intact := by
    constructor
    · decide
    · decide
    · simp [l]
    · exact fun r hr => ⟨⟨"sort_0", "sort", "scripted", "", .null⟩, by simp [l], by
        simp only [l, List.mem_cons, List.not_mem_nil, or_false] at hr
        rcases hr with rfl | rfl | rfl | rfl | rfl <;> rfl⟩
    · simp [l, row]
    · simp [l, row]
  have hstock : l.stock "sort_0" 1 =
      [row 1 0 0 true (some 0.5), row 4 0 2 true (some 1), row 5 0 3 true (some 0.5)] := rfl
  obtain ⟨-, -, hchosen⟩ := @selection_is_best l "sort_0" 1 hintact Nat.one_pos 2
  obtain ⟨p, best, hp, -, hbest, hlists, -⟩ := hchosen (by rw [hstock]; decide)
  have hhigher : Binary.key 0.5 < Binary.key 1 := by decide +kernel
  have hranking : (l.eligible "sort_0" 0).map Row.id = [4, 1, 5] := by
    have hranked : l.candidatesForParents "sort_0" 0 =
        [row 1 0 0 true (some 0.5), row 4 0 2 true (some 1), row 5 0 3 true (some 0.5)] := rfl
    rw [eligible_eq, hranked]
    simp [List.mergeSort, List.MergeSort.Internal.splitInTwo, Row.rankLE, Row.scoreKey,
      row, hhigher, hhigher.not_gt, hhigher.ne]
  refine ⟨hintact, p, best, hp, hbest, hlists, ?_⟩
  rw [(selectParents_eq_ok_iff.mp hp).2, List.map_take, hranking]
  rfl

end HeuristicEvolution.Ledger

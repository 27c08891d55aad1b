import HeuristicEvolution.Proofs.Ledger.Ranking
import HeuristicEvolution.Proofs.Ledger.Reading
import Mathlib

/-!
# Overviews of a run

Five questions are asked about a run: what the listing says of it, what came of each iteration,
which records it has, which rows can be parents and which records are the best. They are answered
by five passes over the table, with filters of their own. In a ledger whose rows are faithful
(`Row.Faithful`) the answers agree, and this module shows how each of them follows from the rows of
the run.

Two of the answers are records, and there is no answer if one of the records that would be handed
out holds a value that is too deep to be read (`Row.Shallow`). The others are given in any case.

## Best scores

A best score is found by its key, and two doubles have one key only if both are zeros
(`Binary.eq_of_key_eq`). As zeros are kept without a sign, a best score is determined by the scores:
it is the one with the greatest key (`bestScore_eq_some_iff`), and the best of all rows is the best
of the best of each iteration.

## Main results

* `bestScore_eq_some_iff`
* `Ledger.sum_recorded`, `Ledger.bestScore_counts`: iterations against the whole run.
* `Ledger.head?_eligible`, `Ledger.top_eq_ite`, `Ledger.perm_ids_eligible`: rankings.
* `Ledger.Intact.agree`: all answers together.
-/

namespace HeuristicEvolution

/-! ## Best scores -/

namespace Binary

/-- The sign of a zero does not matter for its key. -/
@[simp] theorem key_dropZeroSign (x : Float) : key (dropZeroSign x) = key x := by
  rw [dropZeroSign]
  split
  · next hzero =>
    rw [hzero]
    decide
  · rfl

/-- Two doubles without the sign of zero are equal if their keys are. -/
theorem eq_of_key_eq {x y : Float} (hx : dropZeroSign x = x) (hy : dropZeroSign y = y)
    (h : key x = key y) : x = y := by
  by_cases hzero : key x = 0
  · rw [← hx, ← hy, dropZeroSign, dropZeroSign, if_pos hzero, if_pos (h ▸ hzero)]
  · have hzero' : key y ≠ 0 := h ▸ hzero
    refine eq_of_toBits_eq (UInt64.toNat_inj.mp ?_)
    unfold key at h hzero hzero'
    generalize x.toBits.toNat = m at *
    generalize y.toBits.toNat = n at *
    generalize Nat.pow 2 63 = sign at *
    by_cases hm : sign ≤ m <;> by_cases hn : sign ≤ n <;>
      simp only [hm, hn, if_true, if_false, Int.ofNat_eq_natCast] at h hzero hzero' <;> omega

end Binary

/-- Scores of which a best one is determined. -/
def Unsigned (xs : List Float) : Prop := ∀ x ∈ xs, Binary.dropZeroSign x = x

/-- A scan keeps the best of what it has seen. The induction is on the scores still to come. -/
theorem bestScore_mem {xs : List Float} {b : Float} (h : bestScore xs = some b) :
    b ∈ xs ∧ ∀ x ∈ xs, Binary.key x ≤ Binary.key b := by
  have hscan : ∀ (ys : List Float) (a : Float),
      let c := ys.foldl (fun best s => if Binary.key best < Binary.key s then s else best) a
      c ∈ a :: ys ∧ ∀ y ∈ a :: ys, Binary.key y ≤ Binary.key c := by
    intro ys
    induction ys with
    | nil => simp
    | cons y rest ih =>
      intro a
      rw [List.foldl_cons]
      obtain ⟨next, hnext, hchoice, ha, hy⟩ : ∃ next,
          (if Binary.key a < Binary.key y then y else a) = next ∧ (next = a ∨ next = y) ∧
            Binary.key a ≤ Binary.key next ∧ Binary.key y ≤ Binary.key next := by
        refine ⟨_, rfl, ?_⟩
        split
        · exact ⟨.inr rfl, by omega, by omega⟩
        · exact ⟨.inl rfl, by omega, by omega⟩
      rw [hnext]
      obtain ⟨hmem, hmost⟩ := ih next
      have hfirst := hmost next List.mem_cons_self
      refine ⟨?_, List.forall_mem_cons.mpr ⟨by omega, List.forall_mem_cons.mpr ⟨by omega,
        fun z hz => hmost z (List.mem_cons_of_mem _ hz)⟩⟩⟩
      rcases List.mem_cons.mp hmem with heq | hmem
      · rw [heq]
        rcases hchoice with rfl | rfl <;> simp
      · exact List.mem_cons_of_mem _ (List.mem_cons_of_mem _ hmem)
  cases xs with
  | nil => exact nomatch h
  | cons x rest =>
    obtain rfl := Option.some.inj h
    exact hscan rest x

/-- **A best score** is one of the scores, and none of them is greater. -/
theorem bestScore_eq_some_iff {xs : List Float} (hxs : Unsigned xs) {b : Float} :
    bestScore xs = some b ↔ b ∈ xs ∧ ∀ x ∈ xs, Binary.key x ≤ Binary.key b := by
  refine ⟨bestScore_mem, fun ⟨hmem, hmost⟩ => ?_⟩
  cases hbest : bestScore xs with
  | none =>
    cases xs with
    | nil => exact nomatch hmem
    | cons x rest => exact nomatch hbest
  | some a =>
    obtain ⟨ha, hmost'⟩ := bestScore_mem hbest
    have hkey : Binary.key a = Binary.key b := by
      have := hmost a ha
      have := hmost' b hmem
      omega
    rw [Binary.eq_of_key_eq (hxs a ha) (hxs b hmem) hkey]

theorem bestScore_eq_none_iff {xs : List Float} : bestScore xs = none ↔ xs = [] := by
  cases xs <;> simp [bestScore]

/-- The best of some scores may stand for them. -/
theorem bestScore_toList_append (xs ys : List Float) :
    bestScore ((bestScore xs).toList ++ ys) = bestScore (xs ++ ys) := by
  cases xs with
  | nil => rfl
  | cons x rest => simp [bestScore, List.foldl_append]

/-- Neither the order of scores nor their repetition matters. -/
theorem bestScore_congr {xs ys : List Float} (hxs : Unsigned xs) (h : ∀ x, x ∈ xs ↔ x ∈ ys) :
    bestScore xs = bestScore ys := by
  have hys : Unsigned ys := fun x hx => hxs x ((h x).mpr hx)
  refine Option.ext fun b => ?_
  rw [bestScore_eq_some_iff hxs, bestScore_eq_some_iff hys, h b]
  exact and_congr_right fun _ => ⟨fun hmost x hx => hmost x ((h x).mpr hx),
    fun hmost x hx => hmost x ((h x).mp hx)⟩

/-- **The best of all is the best of the best of each group.** -/
theorem bestScore_filterMap_bestScore {groups : List (List Float)} (h : Unsigned groups.flatten) :
    bestScore (groups.filterMap bestScore) = bestScore groups.flatten := by
  have hflat : ∀ {g x}, g ∈ groups → x ∈ g → x ∈ groups.flatten :=
    fun hg hx => List.mem_flatten.mpr ⟨_, hg, hx⟩
  have hbest : ∀ {g x}, g ∈ groups → x ∈ g → ∃ b, bestScore g = some b ∧ b ∈ g ∧
      Binary.key x ≤ Binary.key b ∧ b ∈ groups.filterMap bestScore := by
    intro g x hg hx
    obtain ⟨b, hb⟩ : ∃ b, bestScore g = some b := by
      refine Option.ne_none_iff_exists'.mp fun hnone => ?_
      rw [bestScore_eq_none_iff.mp hnone] at hx
      exact List.not_mem_nil hx
    obtain ⟨hmem, hmost⟩ := bestScore_mem hb
    exact ⟨b, hb, hmem, hmost x hx, List.mem_filterMap.mpr ⟨g, hg, hb⟩⟩
  have hunsigned : Unsigned (groups.filterMap bestScore) := by
    intro b hb
    obtain ⟨g, hg, hb⟩ := List.mem_filterMap.mp hb
    exact h b (hflat hg (bestScore_mem hb).1)
  refine Option.ext fun b => ?_
  rw [bestScore_eq_some_iff h, bestScore_eq_some_iff hunsigned]
  constructor
  · rintro ⟨hmem, hmost⟩
    obtain ⟨g, hg, hb⟩ := List.mem_filterMap.mp hmem
    refine ⟨hflat hg (bestScore_mem hb).1, fun x hx => ?_⟩
    obtain ⟨g', hg', hx⟩ := List.mem_flatten.mp hx
    obtain ⟨b', -, -, hle, hb'⟩ := hbest hg' hx
    exact Int.le_trans hle (hmost b' hb')
  · rintro ⟨hmem, hmost⟩
    obtain ⟨g, hg, hb⟩ := List.mem_flatten.mp hmem
    obtain ⟨b', -, hb'g, hle, hb'⟩ := hbest hg hb
    have hkey := Int.le_antisymm hle (hmost b' (hflat hg hb'g))
    obtain rfl := Binary.eq_of_key_eq (h b hmem) (h b' (hflat hg hb'g)) hkey
    refine ⟨hb', fun x hx => ?_⟩
    obtain ⟨g', hg', hx⟩ := List.mem_filterMap.mp hx
    exact hmost x (hflat hg' (bestScore_mem hx).1)

namespace Ledger

variable {l : Ledger} {runId : String}

/-! ## Iterations -/

theorem mem_iterations_iff {iter : Nat} :
    iter ∈ l.iterations runId ↔ ∃ r ∈ l.rowsOf runId, r.iter = iter := by
  rw [iterations, List.mem_mergeSort, List.mem_eraseDups, List.mem_map]

theorem nodup_eraseDups {α : Type} [DecidableEq α] (xs : List α) : xs.eraseDups.Nodup := by
  induction hn : xs.length using Nat.strongRecOn generalizing xs with
  | _ n ih =>
    cases xs with
    | nil => simp
    | cons x rest =>
      have hshort : (rest.filter fun y => !y == x).length < n := by
        have hle := List.length_filter_le (fun y => !y == x) rest
        rw [List.length_cons] at hn
        omega
      rw [List.eraseDups_cons, List.nodup_cons]
      refine ⟨?_, ih _ hshort _ rfl⟩
      rw [List.mem_eraseDups]
      simp

/-- Each iteration is counted once, in ascending order. -/
theorem pairwise_iterations (l : Ledger) (runId : String) :
    (l.iterations runId).Pairwise (· < ·) := by
  have hnodup : (l.iterations runId).Nodup :=
    (List.mergeSort_perm _ _).nodup_iff.mpr (nodup_eraseDups _)
  have hsorted : (l.iterations runId).Pairwise fun a b => decide (a ≤ b) = true :=
    List.pairwise_mergeSort (fun a b c hab hbc => by simp only [decide_eq_true_eq] at *; omega)
      (fun a b => by simp only [Bool.or_eq_true, decide_eq_true_eq]; omega) _
  refine (hnodup.and hsorted).imp fun ⟨hne, hle⟩ => ?_
  exact Nat.lt_of_le_of_ne (of_decide_eq_true hle) hne

/-- The counts of one iteration. -/
def countsAt (l : Ledger) (runId : String) (iter : Nat) : IterationCounts :=
  let rows := (l.rowsOf runId).filter (·.iter == iter)
  { iter, recorded := rows.length, built := rows.countP (·.buildStatus == some true),
    evaluated := rows.countP (·.execStatus == some true), bestScore := bestOf rows }

theorem counts_eq (l : Ledger) (runId : String) :
    l.counts runId = (l.iterations runId).map (l.countsAt runId) := rfl

/-- **No record is counted twice, and none is missed.** -/
theorem sum_recorded (l : Ledger) (runId : String) :
    ((l.counts runId).map IterationCounts.recorded).sum = (l.rowsOf runId).length := by
  have hperm : (l.iterations runId).Perm ((l.rowsOf runId).map Row.iter).dedup := by
    refine (List.perm_ext_iff_of_nodup ?_ (List.nodup_dedup _)).mpr fun iter => ?_
    · exact (pairwise_iterations l runId).imp Nat.ne_of_lt
    · rw [mem_iterations_iff, List.mem_dedup, List.mem_map]
  have hcount : ∀ iter, (l.countsAt runId iter).recorded
      = ((l.rowsOf runId).map Row.iter).count iter := by
    intro iter
    rw [List.count, List.countP_map, List.countP_eq_length_filter]
    rfl
  calc ((l.counts runId).map IterationCounts.recorded).sum
      = ((l.iterations runId).map fun iter => ((l.rowsOf runId).map Row.iter).count iter).sum := by
        rw [counts_eq, List.map_map]
        exact congrArg List.sum (List.map_congr_left fun iter _ => hcount iter)
    _ = (((l.rowsOf runId).map Row.iter).dedup.map fun iter =>
          ((l.rowsOf runId).map Row.iter).count iter).sum := (hperm.map _).sum_eq
    _ = (l.rowsOf runId).length := by
        rw [List.sum_map_count_dedup_eq_length, List.length_map]

/-! ## Faithful rows -/

section Faithful

variable (hfaithful : ∀ r ∈ l.rowsOf runId, r.Faithful)
include hfaithful

/-- Only what was built is evaluated, and only what was recorded is built. -/
theorem evaluated_le_built_le_recorded {n : IterationCounts} (h : n ∈ l.counts runId) :
    n.evaluated ≤ n.built ∧ n.built ≤ n.recorded := by
  obtain ⟨iter, -, rfl⟩ := List.mem_map.mp h
  refine ⟨List.countP_mono_left fun r hr hexecuted => ?_, List.countP_le_length⟩
  have hmem := List.mem_of_mem_filter hr
  simpa using (hfaithful r hmem).built_of_executed (by simpa using hexecuted)

/-- The scores that count. -/
theorem unsigned_scores :
    Unsigned (((l.rowsOf runId).filter Row.succeeded).filterMap Row.score) := by
  intro x hx
  obtain ⟨r, hr, hscore⟩ := List.mem_filterMap.mp hx
  exact (hfaithful r (List.mem_filter.mp hr).1).unsigned x hscore

/-- **The best of a run is the best of its iterations.** -/
theorem bestScore_counts :
    HeuristicEvolution.bestScore ((l.counts runId).filterMap IterationCounts.bestScore)
      = bestOf (l.rowsOf runId) := by
  let scoresAt (iter : Nat) : List Float :=
    (((l.rowsOf runId).filter (·.iter == iter)).filter Row.succeeded).filterMap Row.score
  have hgroups : (l.counts runId).filterMap IterationCounts.bestScore
      = ((l.iterations runId).map scoresAt).filterMap HeuristicEvolution.bestScore := by
    rw [counts_eq, List.filterMap_map, List.filterMap_map]
    rfl
  have hsame : ∀ x, x ∈ ((l.iterations runId).map scoresAt).flatten ↔
      x ∈ ((l.rowsOf runId).filter Row.succeeded).filterMap Row.score := by
    intro x
    simp only [scoresAt, List.mem_flatten, List.mem_map, exists_exists_and_eq_and,
      List.mem_filterMap, List.mem_filter, mem_iterations_iff, beq_iff_eq]
    constructor
    · rintro ⟨iter, -, r, ⟨⟨hr, -⟩, hsucceeded⟩, hscore⟩
      exact ⟨r, ⟨hr, hsucceeded⟩, hscore⟩
    · rintro ⟨r, ⟨hr, hsucceeded⟩, hscore⟩
      exact ⟨r, hr, r, ⟨⟨hr, rfl⟩, hsucceeded⟩, hscore⟩
  have hunsigned : Unsigned ((l.iterations runId).map scoresAt).flatten :=
    fun x hx => unsigned_scores hfaithful x ((hsame x).mp hx)
  rw [hgroups, bestScore_filterMap_bestScore hunsigned, bestScore_congr hunsigned hsame]
  rfl

/-! ### Rankings -/

/-- The highest number of an iteration. -/
def lastIter : Nat := Json.bound32 - 1

/-- Every row that is ranked can be a parent: what was built has code. -/
theorem eligible_lastIter :
    l.eligible runId lastIter = ((l.rowsOf runId).filter Row.ranked).mergeSort Row.rankLE := by
  rw [eligible_eq, candidatesForParents]
  congr 1
  refine List.filter_congr fun r hr => ?_
  have hiter : r.iter ≤ lastIter := Nat.le_sub_one_of_lt (hfaithful r hr).iter_lt
  rw [decide_eq_true hiter, Bool.true_and, Bool.and_eq_left_iff_imp]
  intro hranked
  simp only [Row.ranked, Row.succeeded, Bool.and_eq_true, beq_iff_eq] at hranked
  exact (hfaithful r hr).code_of_built hranked.1.1

/-- **The best score of a run** is that of the row that is ranked first. -/
theorem head?_eligible :
    (l.eligible runId lastIter).head?.bind Row.score = bestOf (l.rowsOf runId) := by
  have hscores : ∀ x, x ∈ ((l.rowsOf runId).filter Row.succeeded).filterMap Row.score ↔
      ∃ r ∈ l.eligible runId lastIter, r.score = some x := by
    intro x
    simp only [eligible_lastIter hfaithful, List.mem_mergeSort, List.mem_filterMap, List.mem_filter,
      Row.ranked, Bool.and_eq_true]
    refine exists_congr fun r => and_congr_left fun hscore => ?_
    simp [hscore]
  have hunsigned := unsigned_scores hfaithful
  cases hranking : l.eligible runId lastIter with
  | nil =>
    rw [hranking] at hscores
    refine (bestScore_eq_none_iff.mpr (List.eq_nil_iff_forall_not_mem.mpr fun x hx => ?_)).symm
    obtain ⟨r, hr, -⟩ := (hscores x).mp hx
    exact List.not_mem_nil hr
  | cons first rest =>
    rw [hranking] at hscores
    have hsorted := pairwise_eligible l runId lastIter
    rw [hranking] at hsorted
    have hfirst : first ∈ l.eligible runId lastIter := hranking ▸ List.mem_cons_self
    obtain ⟨-, -, -, hranked, -⟩ := mem_eligible_iff.mp hfirst
    simp only [Row.ranked, Bool.and_eq_true] at hranked
    obtain ⟨b, hb⟩ := Option.isSome_iff_exists.mp hranked.2
    have hkey : ∀ {r : Row} {x : Float}, r.score = some x → r.scoreKey = Binary.key x := by
      intro r x hx
      rw [Row.scoreKey, hx]
      rfl
    refine hb.trans (Eq.symm ((bestScore_eq_some_iff hunsigned).mpr ⟨?_, fun x hx => ?_⟩))
    · exact (hscores b).mpr ⟨first, List.mem_cons_self, hb⟩
    · obtain ⟨r, hr, hscore⟩ := (hscores x).mp hx
      rw [← hkey hb, ← hkey hscore]
      rcases List.mem_cons.mp hr with rfl | hr
      · exact Int.le_refl _
      · have hle := Row.rankLE_iff.mp ((List.pairwise_cons.mp hsorted).1 r hr)
        omega

/-! ### Records -/

/-- **The records of a run** are those of its rows, if each of them can be read. -/
theorem candidates_eq_ite :
    l.candidates runId
      = if ∀ r ∈ (l.rowsOf runId).mergeSort Row.slotLE, r.Shallow
        then .ok (((l.rowsOf runId).mergeSort Row.slotLE).map Row.stored)
        else .error .badColumn :=
  mapM_eq_ite fun r hr => (hfaithful r (List.mem_mergeSort.mp hr)).read

/-- **The best records** are those of the rows that are ranked first, if each of them can be
read. -/
theorem top_eq_ite (limit : Nat) :
    l.top runId limit
      = if ∀ r ∈ (l.eligible runId lastIter).take limit, r.Shallow
        then .ok (((l.eligible runId lastIter).take limit).map Row.stored)
        else .error .badColumn := by
  rw [top, ← eligible_lastIter hfaithful]
  refine mapM_eq_ite fun r hr => (hfaithful r ?_).read
  obtain ⟨hmem, hrun, -⟩ := mem_eligible_iff.mp (List.mem_of_mem_take hr)
  exact List.mem_filter.mpr ⟨hmem, beq_iff_eq.mpr hrun⟩

/-- The rows that can be parents are the records that can be, and have a score. -/
theorem perm_ids_eligible {rows : List Row} (h : rows.Perm (l.rowsOf runId)) :
    ((l.eligible runId lastIter).map Row.id).Perm (((rows.map Row.stored).filter fun s =>
      s.record.eligible && s.record.score.isSome).map Stored.id) := by
  have hfilter : (rows.map Row.stored).filter (fun s => s.record.eligible && s.record.score.isSome)
      = (rows.filter Row.ranked).map Row.stored := by
    rw [List.filter_map]
    exact congrArg _ (List.filter_congr fun r hr => (hfaithful r (h.mem_iff.mp hr)).ranked_stored)
  rw [hfilter, Row.map_id_stored, eligible_lastIter hfaithful]
  exact ((List.mergeSort_perm _ _).trans (h.filter _).symm).map Row.id

end Faithful

/-! ## The listing -/

/-- What a listing says about a run. -/
def listingOf (l : Ledger) (run : RunInfo) : RunListing where
  runId := run.runId
  task := run.task
  model := run.model
  createdAt := run.createdAt
  candidates := (l.rowsOf run.runId).length
  bestScore := bestOf (l.rowsOf run.runId)

/-- Each run of an intact ledger is listed once. -/
theorem Intact.listing_filter (h : l.Intact) (hrun : l.HasRun runId) :
    ∃ run, run.runId = runId ∧
      l.listing.filter (·.runId == runId) = [l.listingOf run] := by
  obtain ⟨run, hmem, rfl⟩ := hrun
  refine ⟨run, rfl, ?_⟩
  have hone : l.runs.filter (·.runId == run.runId) = [run] := by
    obtain ⟨before, after, hruns⟩ := List.append_of_mem hmem
    have hnames := h.names_nodup
    rw [hruns, List.map_append, List.map_cons, List.nodup_middle, List.nodup_cons] at hnames
    have hothers : ∀ other ∈ before ++ after, ¬ (other.runId == run.runId) = true := by
      intro other hother heq
      refine hnames.1 (List.map_append ▸ ?_)
      exact List.mem_map.mpr ⟨other, hother, beq_iff_eq.mp heq⟩
    have hself : (run :: after).filter (·.runId == run.runId)
        = run :: after.filter (·.runId == run.runId) :=
      List.filter_cons_of_pos (beq_self_eq_true run.runId)
    rw [hruns, List.filter_append, hself,
      List.filter_eq_nil_iff.mpr fun other hb => hothers other (List.mem_append_left _ hb),
      List.filter_eq_nil_iff.mpr fun other ha => hothers other (List.mem_append_right _ ha),
      List.nil_append]
  have hperm : (l.listing.filter (·.runId == run.runId)).Perm [l.listingOf run] := by
    have hmap : (l.runs.map l.listingOf).filter (·.runId == run.runId)
        = (l.runs.filter (·.runId == run.runId)).map l.listingOf := List.filter_map
    rw [hone] at hmap
    exact (((List.mergeSort_perm _ _).map _).filter _).trans (.of_eq hmap)
  exact List.perm_singleton.mp hperm

/-! ## All answers together -/

/-- The answers to the questions about a run agree, where `entry` is what the listing says about it
and `records` are the records of its rows. -/
structure Agree (l : Ledger) (runId : String) (entry : RunListing) (records : List Stored) :
    Prop where
  listed : l.listing.filter (·.runId == runId) = [entry]
  records_perm : records.Perm ((l.rowsOf runId).map Row.stored)
  /-- The records are what is read of the run, if none of its rows is too deep. -/
  read : l.candidates runId
    = if ∀ r ∈ l.rowsOf runId, r.Shallow then .ok records else .error .badColumn
  candidates_eq_length : entry.candidates = records.length
  candidates_eq_sum : entry.candidates = ((l.counts runId).map IterationCounts.recorded).sum
  /-- Iterations are counted in ascending order, each of them once, ... -/
  iters_ascend : (l.counts runId).Pairwise fun m n => m.iter < n.iter
  /-- ... and those are counted that have a record. -/
  mem_iters_iff : ∀ iter,
    iter ∈ (l.counts runId).map IterationCounts.iter ↔ ∃ s ∈ records, s.record.iter = iter
  evaluated_le_built : ∀ n ∈ l.counts runId, n.evaluated ≤ n.built
  built_le_recorded : ∀ n ∈ l.counts runId, n.built ≤ n.recorded
  bestScore_eq_counts : entry.bestScore
    = HeuristicEvolution.bestScore ((l.counts runId).filterMap IterationCounts.bestScore)
  bestScore_eq_first : entry.bestScore = (l.eligible runId lastIter).head?.bind Row.score
  /-- The best records are those that are ranked first, if none of their rows is too deep. -/
  top_eq : ∀ limit, ∃ best,
    l.top runId limit
      = (if ∀ r ∈ (l.eligible runId lastIter).take limit, r.Shallow then .ok best
        else .error .badColumn) ∧
      best.map Stored.id = ((l.eligible runId lastIter).map Row.id).take limit ∧
      ∀ s ∈ best, s ∈ records
  /-- The rows that can be parents are the records that can be, and have a score, ... -/
  eligible_perm : ((l.eligible runId lastIter).map Row.id).Perm
    ((records.filter fun s => s.record.eligible && s.record.score.isSome).map Stored.id)
  /-- ... by descending score, and equal scores by ascending id. -/
  eligible_ordered : (l.eligible runId lastIter).Pairwise Row.Better

/-- **The answers agree** in an intact ledger in which the rows of the run are faithful. -/
theorem Intact.agree (h : l.Intact) (hrun : l.HasRun runId)
    (hfaithful : ∀ r ∈ l.rowsOf runId, r.Faithful) :
    ∃ entry records, l.Agree runId entry records := by
  obtain ⟨run, rfl, hlisted⟩ := h.listing_filter hrun
  have hperm := List.mergeSort_perm (l.rowsOf run.runId) Row.slotLE
  have hsub : ∀ r ∈ (l.eligible run.runId lastIter), r ∈ l.rowsOf run.runId := by
    intro r hr
    obtain ⟨hmem, hid, -⟩ := mem_eligible_iff.mp hr
    exact List.mem_filter.mpr ⟨hmem, beq_iff_eq.mpr hid⟩
  have hread := candidates_eq_ite hfaithful
  simp only [List.mem_mergeSort] at hread
  have hbest := bestScore_counts hfaithful
  have hfirst := head?_eligible hfaithful
  refine ⟨l.listingOf run, ((l.rowsOf run.runId).mergeSort Row.slotLE).map Row.stored, ?_⟩
  exact {
    listed := hlisted
    records_perm := hperm.map Row.stored
    read := hread
    candidates_eq_length := by rw [List.length_map, hperm.length_eq]; rfl
    candidates_eq_sum := (sum_recorded l run.runId).symm
    iters_ascend := List.pairwise_map.mpr (pairwise_iterations l run.runId)
    mem_iters_iff := fun iter => by
      have hiters : (l.counts run.runId).map IterationCounts.iter = l.iterations run.runId := by
        rw [counts_eq, List.map_map]
        exact List.map_id _
      rw [hiters, mem_iterations_iff]
      constructor
      · rintro ⟨r, hr, hiter⟩
        exact ⟨r.stored, List.mem_map_of_mem (hperm.mem_iff.mpr hr), hiter⟩
      · rintro ⟨s, hs, hiter⟩
        obtain ⟨r, hr, rfl⟩ := List.mem_map.mp hs
        exact ⟨r, hperm.mem_iff.mp hr, hiter⟩
    evaluated_le_built := fun n hn => (evaluated_le_built_le_recorded hfaithful hn).1
    built_le_recorded := fun n hn => (evaluated_le_built_le_recorded hfaithful hn).2
    bestScore_eq_counts := hbest.symm
    bestScore_eq_first := hfirst.symm
    top_eq := fun limit => by
      refine ⟨_, top_eq_ite hfaithful limit, ?_, fun s hs => ?_⟩
      · rw [Row.map_id_stored, List.map_take]
      · obtain ⟨r, hr, rfl⟩ := List.mem_map.mp hs
        exact List.mem_map_of_mem (hperm.mem_iff.mpr (hsub r (List.mem_of_mem_take hr)))
    eligible_perm := perm_ids_eligible hfaithful hperm
    eligible_ordered := h.eligible_better lastIter }

end Ledger

end HeuristicEvolution

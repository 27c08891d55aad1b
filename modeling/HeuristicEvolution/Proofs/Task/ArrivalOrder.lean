import HeuristicEvolution.Proofs.Task.CacheRows

/-!
# Rows that arrive in another order

The simulator computes sizes side by side, and its rows arrive in whatever order they are finished.
A row that is found by the size it carries is found in every order. A row that is found by its rank
need not be: rows are sorted by the sizes they carry, and sorting is stable, so rows that carry the
same size, or no size at all, stay in the order of their arrival. If one of them has the rank that
counts, any of them gets it when it arrives in the right place.

So the score depends on the order exactly if a row with the same key as the one that counts stands
for another score (`CacheArguments.score_kept_iff`).

## Main definitions

* `CacheArguments.Settled`: rows with the key of the one that counts stand for one score.

## Main results

* `CacheArguments.exists_output`: rows that are printed can be printed in any order.
* `CacheArguments.exists_perm_scoredRow`: a row with the same key can take the place of another one.
* `CacheArguments.score_kept_iff`: when the score is the same in every order.
* `CacheArguments.settled_of_nodup`: it is if no two rows carry the same size.
* `CacheArguments.score_of_tied_rows`
-/

namespace HeuristicEvolution

/-! ## Lines -/

namespace Text

theorem linesFrom_append {line : List Char} (h : '\n' ∉ line) (read rest : List Char) :
    linesFrom read (line ++ '\n' :: rest) =
      dropReturn (read.reverse ++ line) :: linesFrom [] rest := by
  induction line generalizing read with
  | nil => simp [linesFrom]
  | cons c cs ih =>
    obtain ⟨hc, hcs⟩ := List.ne_and_not_mem_of_not_mem_cons h
    rw [List.cons_append, linesFrom, if_neg (Ne.symm hc), ih hcs]
    simp

/-- A line with the end that is cut off it. -/
theorem lines_append {line : List Char} (h : '\n' ∉ line) (rest : List Char) :
    lines (line ++ '\r' :: '\n' :: rest) = line :: lines rest := by
  have hreturn : '\n' ∉ line ++ ['\r'] := by simpa using h
  have hlines := linesFrom_append hreturn [] rest
  rw [List.append_assoc] at hlines
  rw [lines]
  refine hlines.trans ?_
  simp [dropReturn, lines]

theorem break_not_mem_of_mem_linesFrom {line read cs : List Char}
    (hread : '\n' ∉ read) (h : line ∈ linesFrom read cs) : '\n' ∉ line := by
  induction cs generalizing read with
  | nil =>
    rw [linesFrom] at h
    split at h
    · cases h
    · simpa [List.mem_singleton.mp h] using hread
  | cons c cs ih =>
    rw [linesFrom] at h
    split at h
    · rcases List.mem_cons.mp h with rfl | h
      · intro hin
        rw [dropReturn] at hin
        split at hin
        · exact hread (List.mem_reverse.mp (List.mem_of_mem_dropLast hin))
        · exact hread (List.mem_reverse.mp hin)
      · exact ih List.not_mem_nil h
    · next hc =>
      refine ih ?_ h
      simpa [hread] using Ne.symm hc

end Text

namespace CacheArguments

variable {a : CacheArguments} {rs rs' : List Json} {row other : Json}

/-! ## Printing rows in any order -/

/-- A row that is printed can be printed again, before other ones. -/
theorem exists_cons_output {first output : String} (h : row ∈ rows first) :
    ∃ output', rows output' = row :: rows output := by
  obtain ⟨line, hline, hread⟩ := List.mem_filterMap.mp h
  have hbreak : '\n' ∉ line := Text.break_not_mem_of_mem_linesFrom List.not_mem_nil hline
  refine ⟨String.ofList (line ++ '\r' :: '\n' :: output.toList), ?_⟩
  rw [rows, String.toList_ofList, Text.lines_append hbreak, List.filterMap_cons, hread, rows]

theorem exists_output {output : String} (h : ∀ row ∈ rs, row ∈ rows output) :
    ∃ output', rows output' = rs := by
  induction rs with
  | nil => exact ⟨"", rfl⟩
  | cons row rs ih =>
    obtain ⟨hrow, hrest⟩ := List.forall_mem_cons.mp h
    obtain ⟨rest, rfl⟩ := ih hrest
    exact exists_cons_output hrow

/-! ## Rows that are found by their size -/

theorem scoredRow_congr_of_sizes (habsolute : a.percent = false) (h : rs'.Perm rs) :
    a.scoredRow (a.orderedRows rs') = a.scoredRow (a.orderedRows rs) := by
  have hfits := h.filter fun r => (rowSize r).any fun s => sameSize s a.scoredSize
  simp only [orderedRows, scoredRow, habsolute, Bool.false_eq_true, if_false]
  rcases hrs : rs.filter fun r => (rowSize r).any fun s => sameSize s a.scoredSize with
    _ | ⟨row, _ | ⟨next, rest⟩⟩
  · rw [hrs] at hfits
    rw [List.perm_nil.mp hfits]
  · rw [hrs] at hfits
    rw [List.perm_singleton.mp hfits]
  · rw [hrs] at hfits
    split
    · next hone => exact absurd hfits.length_eq (by simp [hone])
    · rfl

/-! ## Rows that are found by their rank -/

theorem pairwise_orderedRows (hpercent : a.percent = true) (rs : List Json) :
    (a.orderedRows rs).Pairwise fun r s => rowKey r ≤ rowKey s := by
  rw [orderedRows, if_pos hpercent]
  exact pairwise_mergeSort_key rowKey rs

theorem orderedRows_of_pairwise (h : rs.Pairwise fun r s => rowKey r ≤ rowKey s) :
    a.orderedRows rs = rs := by
  rw [orderedRows]
  split
  · exact List.mergeSort_of_pairwise (by simpa using h)
  · rfl

/-- The keys stand in the same order whatever the order of the rows. -/
theorem map_rowKey_orderedRows (hpercent : a.percent = true) (h : rs'.Perm rs) :
    (a.orderedRows rs').map rowKey = (a.orderedRows rs).map rowKey := by
  have hperm : (a.orderedRows rs').Perm (a.orderedRows rs) :=
    (perm_orderedRows rs').trans (h.trans (perm_orderedRows rs).symm)
  refine List.Perm.eq_of_pairwise (fun _ _ _ _ => Int.le_antisymm) ?_ ?_ (hperm.map rowKey)
  · exact List.pairwise_map.mpr (pairwise_orderedRows hpercent rs')
  · exact List.pairwise_map.mpr (pairwise_orderedRows hpercent rs)

/-- **The row of a rank has the same key in every order.** -/
theorem exists_scoredRow_of_perm (hpercent : a.percent = true) (h : rs'.Perm rs)
    (hrow : a.scoredRow (a.orderedRows rs) = some row) :
    ∃ other, a.scoredRow (a.orderedRows rs') = some other ∧ rowKey other = rowKey row := by
  obtain ⟨hcount, rank, hrank, hget⟩ := (scoredRow_eq_some_iff hpercent).mp hrow
  have hkeys := congrArg (·[rank]?) (map_rowKey_orderedRows hpercent h)
  simp only [List.getElem?_map, hget, Option.map_some] at hkeys
  obtain ⟨other, hother, hkey⟩ := Option.map_eq_some_iff.mp hkeys
  have hcount' : rs'.length = a.sizes.length := h.length_eq.trans hcount
  exact ⟨other, (scoredRow_eq_some_iff hpercent).mpr ⟨hcount', rank, hrank, hother⟩, hkey⟩

/-- Two rows with one key can change places. -/
theorem map_rowKey_set_set {i j : Nat} (hi : i < rs.length) (hj : j < rs.length)
    (hkey : rowKey rs[i] = rowKey rs[j]) :
    ((rs.set i rs[j]).set j rs[i]).map rowKey = rs.map rowKey := by
  have hat : ∀ k (hk : k < rs.length), (rs.map rowKey).set k (rowKey rs[k]) = rs.map rowKey := by
    intro k hk
    rw [← List.getElem_map rowKey (h := by simpa using hk), List.set_getElem_self]
  rw [List.map_set, List.map_set, ← hkey, hat i hi, hkey, hat j hj]

/-- **A row with the key of the one that counts can take its place.** -/
theorem exists_perm_scoredRow (hpercent : a.percent = true)
    (hrow : a.scoredRow (a.orderedRows rs) = some row) (hmem : other ∈ rs)
    (hkey : rowKey other = rowKey row) :
    ∃ rs', rs'.Perm rs ∧ a.scoredRow (a.orderedRows rs') = some other := by
  have hordered := perm_orderedRows (a := a) rs
  obtain ⟨hcount, rank, hrank, hget⟩ := (scoredRow_eq_some_iff hpercent).mp hrow
  obtain ⟨hlt, rfl⟩ := List.getElem?_eq_some_iff.mp hget
  obtain ⟨place, hplace, rfl⟩ := List.mem_iff_getElem.mp (hordered.mem_iff.mpr hmem)
  let swapped := ((a.orderedRows rs).set place (a.orderedRows rs)[rank]).set rank
    (a.orderedRows rs)[place]
  have hperm : swapped.Perm (a.orderedRows rs) := List.set_set_perm hplace hlt
  -- the keys still ascend, so sorting leaves the rows as they are
  have hsorted : a.orderedRows swapped = swapped := by
    refine orderedRows_of_pairwise (List.pairwise_map.mp ?_)
    rw [map_rowKey_set_set hplace hlt hkey]
    exact List.pairwise_map.mpr (pairwise_orderedRows hpercent rs)
  refine ⟨swapped, hperm.trans hordered, (scoredRow_eq_some_iff hpercent).mpr
    ⟨(hperm.trans hordered).length_eq.trans hcount, rank, hrank, ?_⟩⟩
  rw [hsorted]
  simp [swapped, hlt]

/-! ## The score in another order -/

/-- Rows with the key of the one that counts stand for the same score as it does. -/
def Settled (a : CacheArguments) (rs : List Json) : Prop :=
  a.percent = true → ∀ row, a.scoredRow (a.orderedRows rs) = some row →
    ∀ other ∈ rs, rowKey other = rowKey row → a.rowScore? other = a.rowScore? row

/-- If no two rows carry the same size, there is nothing to settle. -/
theorem settled_of_nodup (h : (rs.map rowKey).Nodup) : a.Settled rs := by
  intro _ row hrow other hmem hkey
  have hrow' : row ∈ rs := (perm_orderedRows rs).mem_iff.mp (mem_of_scoredRow hrow)
  rw [List.inj_on_of_nodup_map h hmem hrow' hkey]

theorem Settled.score_eq (h : a.Settled rs) (hperm : rs'.Perm rs) :
    (a.scoredRow (a.orderedRows rs')).bind a.rowScore? =
      (a.scoredRow (a.orderedRows rs)).bind a.rowScore? := by
  by_cases hpercent : a.percent = true
  · cases hrow : a.scoredRow (a.orderedRows rs) with
    | none =>
      cases hother : a.scoredRow (a.orderedRows rs') with
      | none => rfl
      | some other =>
        obtain ⟨row, hrow', -⟩ := exists_scoredRow_of_perm hpercent hperm.symm hother
        rw [hrow] at hrow'
        cases hrow'
    | some row =>
      obtain ⟨other, hother, hkey⟩ := exists_scoredRow_of_perm hpercent hperm hrow
      have hmem : other ∈ rs :=
        hperm.mem_iff.mp ((perm_orderedRows rs').mem_iff.mp (mem_of_scoredRow hother))
      rw [hother]
      exact h hpercent row hrow other hmem hkey
  · rw [scoredRow_congr_of_sizes (Bool.eq_false_iff.mpr hpercent) hperm]

/-- **When the order of the rows does not matter.** All successful outputs with the rows of a given
one, in any order, count or do not count alike and have one score, exactly if sizes are absolute, or
no row counts, or every row with the key of the one that counts stands for the same score. -/
theorem score_kept_iff {r : CommandResult} (hr : r.success = true) :
    (∀ r' : CommandResult, r'.success = true → (rows r'.stdout).Perm (rows r.stdout) →
      (a.outcome r').executed = (a.outcome r).executed ∧
        (a.outcome r').score = (a.outcome r).score) ↔
      a.Settled (rows r.stdout) := by
  constructor
  · intro hkept hpercent row hrow other hmem hkey
    obtain ⟨rs', hperm, hother⟩ := exists_perm_scoredRow hpercent hrow hmem hkey
    obtain ⟨output, rfl⟩ := exists_output fun s hs => hperm.mem_iff.mp hs
    let r' : CommandResult := { r with stdout := output }
    have hr' : r'.success = true := hr
    obtain ⟨-, hscore⟩ := hkept r' hr' hperm
    rwa [score_outcome hr', score_outcome hr, hother, hrow] at hscore
  · intro hsettled r' hr' hperm
    have hscore : (a.outcome r').score = (a.outcome r).score := by
      rw [score_outcome hr, score_outcome hr', hsettled.score_eq hperm]
    rw [executed_outcome, executed_outcome, hscore]
    exact ⟨rfl, rfl⟩

/-- The score of an output whose rows ascend already, as the percentages do. -/
theorem score_of_pairwise {r : CommandResult} {score : Option Float} (hr : r.success = true)
    (hpercent : a.percent = true)
    (hsizes : a.sizes.Pairwise fun x y => Binary.totalKey x ≤ Binary.totalKey y)
    (h : ((rows r.stdout).Pairwise fun r s => rowKey r ≤ rowKey s) ∧
      (rows r.stdout).length = a.sizes.length ∧
      ((a.sizes.findIdx? fun s => sameSize s a.scoredSize).bind fun rank =>
        (rows r.stdout)[rank]?).bind a.rowScore? = score) :
    (a.outcome r).score = score := by
  obtain ⟨hrows, hcount, hscore⟩ := h
  have hsorted : (a.sizes.mergeSort fun x y => Binary.totalKey x ≤ Binary.totalKey y) = a.sizes :=
    List.mergeSort_of_pairwise (by simpa using hsizes)
  rw [score_outcome hr, orderedRows_of_pairwise hrows, scoredRow, if_pos hpercent]
  simp only [hsorted, if_pos hcount, hscore]

/-- Two rows of different sizes: the score is the same if they arrive the other way round. -/
theorem score_kept_of_two_sizes :
    let a : CacheArguments := ⟨"", [1.0, 10.0], 1.0, true, true, 1, 1⟩
    let r : CommandResult := ⟨some 0,
      "\x7b\"cache_size_mb\": 90.0, \"byte_miss_ratio\": 0.25\x7d\n" ++
        "\x7b\"cache_size_mb\": 900.0, \"byte_miss_ratio\": 0.5\x7d\n", "", false⟩
    ∀ r' : CommandResult, r'.success = true → (rows r'.stdout).Perm (rows r.stdout) →
      (a.outcome r').executed = true ∧ (a.outcome r').score = some 0.75 := by
  intro a r r' hr' hperm
  have hscore : (a.outcome r).score = some 0.75 :=
    score_of_pairwise rfl rfl (by decide +kernel) (by decide +kernel)
  have hexecuted : (a.outcome r).executed = true := by
    rw [executed_outcome, hscore]
    rfl
  have hsettled : a.Settled (rows r.stdout) := settled_of_nodup (by decide +kernel)
  have hkept := (score_kept_iff rfl).mpr hsettled r' hr' hperm
  rwa [hscore, hexecuted] at hkept

/-- **Two rows that carry one size**: the score is that of the row that arrives first. -/
theorem score_of_tied_rows :
    let a : CacheArguments := ⟨"", [1.0, 10.0], 1.0, true, true, 1, 1⟩
    let low := "\x7b\"cache_size_mb\": 5.0, \"byte_miss_ratio\": 0.25\x7d\n"
    let high := "\x7b\"cache_size_mb\": 5.0, \"byte_miss_ratio\": 0.5\x7d\n"
    let r : CommandResult := ⟨some 0, low ++ high, "", false⟩
    let r' : CommandResult := ⟨some 0, high ++ low, "", false⟩
    a.check = .ok () ∧ r.success = true ∧ r'.success = true ∧
      (rows r'.stdout).Perm (rows r.stdout) ∧
      (a.outcome r).score = some 0.75 ∧ (a.outcome r').score = some 0.5 := by
  intro a low high r r'
  have hcheck : a.check.isOk = true := by decide +kernel
  obtain ⟨⟨⟩, hcheck⟩ := Except.exists_ok_of_isOk hcheck
  have hlines : (Text.lines r'.stdout.toList).Perm (Text.lines r.stdout.toList) := by
    decide +kernel
  exact ⟨hcheck, rfl, rfl, hlines.filterMap _,
    score_of_pairwise rfl rfl (by decide +kernel) (by decide +kernel),
    score_of_pairwise rfl rfl (by decide +kernel) (by decide +kernel)⟩

end CacheArguments

end HeuristicEvolution

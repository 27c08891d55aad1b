import HeuristicEvolution.Proofs.Decimal.Order
import HeuristicEvolution.Proofs.Task.Scores

/-!
# The row of the size that counts

The simulator prints one row for each size, in any order and between other lines. If sizes are
absolute, a row carries its size and is found by it. If sizes are percentages, the rows carry sizes
in megabytes that nobody has computed here, and the row that counts is found by its rank: the place
of the percentage among the percentages is looked up among the rows.

What makes the two places agree is that the size that counts differs from all the others. Then the
place of an element in a sorted list is the number of the elements below it
(`exists_split_of_sorted`), and labels that grow with the sizes leave that number as it is.

## Main definitions

* `CacheArguments.rowScore?`: the score that a row stands for.
* `CacheArguments.PrintedRow`: a line of an output that holds the figures of a size.
* `CacheArguments.Printed`, `CacheArguments.Labelled`: outputs with one row for each size.

## Main results

* `CacheArguments.score_outcome`: the score of an output is that of one of its rows.
* `CacheArguments.score_of_scored_size`
-/

namespace HeuristicEvolution

/-! ## Places in a sorted list -/

section Sorted

variable {α : Type} {l others : List α} {x : α}

/-- In a sorted list an element whose key no other one has stands behind those with lower keys. -/
theorem exists_split_of_sorted (key : α → Int)
    (hsorted : l.Pairwise fun y z => key y ≤ key z) (hperm : l.Perm (x :: others))
    (hne : ∀ y ∈ others, key y ≠ key x) :
    ∃ left right, l = left ++ x :: right ∧ (∀ y ∈ left, y ∈ others) ∧
      left.length = others.countP fun y => key y < key x := by
  obtain ⟨left, right, rfl⟩ := List.append_of_mem (hperm.mem_iff.mpr List.mem_cons_self)
  have hothers : (left ++ right).Perm others :=
    (List.perm_middle.symm.trans hperm).cons_inv
  obtain ⟨-, hright, hleft⟩ := List.pairwise_append.mp hsorted
  have hmem : ∀ y ∈ left, y ∈ others := fun y hy =>
    hothers.mem_iff.mp (List.mem_append_left _ hy)
  have hbelow : ∀ y ∈ left, decide (key y < key x) = true := by
    intro y hy
    have hle := hleft y hy x List.mem_cons_self
    have hkey := hne y (hmem y hy)
    exact decide_eq_true (by omega)
  have habove : ∀ y ∈ right, ¬ decide (key y < key x) = true := by
    intro y hy
    have hle := List.rel_of_pairwise_cons hright hy
    simpa using hle
  refine ⟨left, right, rfl, hmem, ?_⟩
  rw [← hothers.countP_eq, List.countP_append, List.countP_eq_length.mpr hbelow,
    List.countP_eq_zero.mpr habove, Nat.add_zero]

theorem pairwise_mergeSort_key (key : α → Int) (l : List α) :
    (l.mergeSort fun y z => key y ≤ key z).Pairwise fun y z => key y ≤ key z := by
  have htrans : ∀ x y z : α, decide (key x ≤ key y) = true → decide (key y ≤ key z) = true →
      decide (key x ≤ key z) = true := by
    intro x y z
    simp only [decide_eq_true_eq]
    exact Int.le_trans
  have htotal : ∀ x y : α, (decide (key x ≤ key y) || decide (key y ≤ key x)) = true := by
    intro x y
    simpa only [Bool.or_eq_true, decide_eq_true_eq] using Int.le_total _ _
  simpa only [decide_eq_true_eq] using List.pairwise_mergeSort htrans htotal l

/-- The place of the only element with a property in the list as it is sorted by `key`. -/
theorem findIdx?_mergeSort {p : α → Bool} (key : α → Int) (hperm : l.Perm (x :: others))
    (hne : ∀ y ∈ others, key y ≠ key x) (hx : p x = true) (hothers : ∀ y ∈ others, p y = false) :
    (l.mergeSort fun y z => key y ≤ key z).findIdx? p =
      some (others.countP fun y => key y < key x) := by
  obtain ⟨left, right, hsplit, hleft, hlength⟩ :=
    exists_split_of_sorted key (pairwise_mergeSort_key key l)
      ((List.mergeSort_perm _ _).trans hperm) hne
  have hnone : left.findIdx? p = none :=
    List.findIdx?_eq_none_iff.mpr fun y hy => hothers y (hleft y hy)
  rw [hsplit, ← hlength, List.findIdx?_append, hnone, List.findIdx?_cons, if_pos hx]
  simp

/-- What stands at that place. -/
theorem getElem?_mergeSort (key : α → Int) (hperm : l.Perm (x :: others))
    (hne : ∀ y ∈ others, key y ≠ key x) :
    (l.mergeSort fun y z => key y ≤ key z)[others.countP fun y => key y < key x]? = some x := by
  obtain ⟨left, right, hsplit, -, hlength⟩ :=
    exists_split_of_sorted key (pairwise_mergeSort_key key l)
      ((List.mergeSort_perm _ _).trans hperm) hne
  rw [hsplit, ← hlength]
  simp

/-- The element that alone has a property, and the others. -/
theorem exists_perm_cons_of_countP {p : α → Bool} (h : l.countP p = 1) :
    ∃ x others, l.Perm (x :: others) ∧ p x = true ∧ ∀ y ∈ others, p y = false := by
  rw [List.countP_eq_length_filter] at h
  obtain ⟨x, hx⟩ := List.length_eq_one_iff.mp h
  have hmem : x ∈ l.filter p := hx ▸ List.mem_singleton_self x
  refine ⟨x, l.filter (!p ·), ?_, (List.mem_filter.mp hmem).2, ?_⟩
  · have hperm := List.filter_append_perm p l
    rw [hx] at hperm
    exact hperm.symm
  · intro y hy
    simpa using (List.mem_filter.mp hy).2

end Sorted

namespace CacheArguments

variable {a : CacheArguments}

/-! ## The score of an output -/

/-- The score that a row stands for: one less the ratio that counts. -/
def rowScore? (a : CacheArguments) (row : Json) : Option Float :=
  ((row.get? a.column).bind Json.number?).map (1.0 - ·)

/-- **The score of an output** is that of the row that counts. -/
theorem score_outcome {r : CommandResult} (h : r.success = true) :
    (a.outcome r).score = (a.scoredRow (a.orderedRows (rows r.stdout))).bind a.rowScore? := by
  have hscore : (a.scoredRow (a.orderedRows (rows r.stdout))).bind a.rowScore? =
      (((a.scoredRow (a.orderedRows (rows r.stdout))).bind fun row => row.get? a.column).bind
        Json.number?).map (1.0 - ·) := by
    cases a.scoredRow (a.orderedRows (rows r.stdout)) <;> rfl
  rw [hscore, outcome, h]
  simp only [Bool.not_true, Bool.false_eq_true, if_false]
  split
  · next miss hmiss =>
    have hfinite : (1.0 - miss).isFinite = true :=
      Binary.isFinite_one_sub (isFinite_of_scoredRow hmiss)
    rw [Outcome.score, scoreOf_scored, if_pos hfinite, hmiss, Option.map_some]
  · next hnone =>
    rw [hnone]
    rfl

/-- The results of an output hold its rows. -/
theorem results_outcome {r : CommandResult} (h : r.success = true) :
    (a.outcome r).results.get? "results" = some (.arr (a.orderedRows (rows r.stdout))) := by
  rw [outcome, h]
  simp only [Bool.not_true, Bool.false_eq_true, if_false]
  split <;> rw [Json.get?_ofMembers (by simp)] <;> rfl

/-! ## Outputs with one row for each size -/

/-- The line opens with a brace. -/
def Braced (line : List Char) : Bool := (Text.trimStartList line).head? = some '\x7b'

/-- A line that holds the figures of a size. -/
structure PrintedRow (a : CacheArguments) where
  /-- The size as it was asked for. -/
  size : Float
  /-- The size that the row carries. -/
  label : Float
  /-- The miss ratio that counts. -/
  miss : Float
  line : List Char
  row : Json
  read : Json.parse? (String.ofList line) = some row
  label_read : rowSize row = some label
  miss_read : (row.get? a.column).bind Json.number? = some miss

/-- The output has one row for each size, in any order. Its other lines do not open with a brace. -/
structure Printed (a : CacheArguments) (ms : List a.PrintedRow) (output : String) : Prop where
  sizes : (ms.map PrintedRow.size).Perm a.sizes
  lines : (Text.lines output.toList).filter Braced = ms.map PrintedRow.line

/-- The labels are the sizes, or grow strictly with them if these are percentages. -/
def Labelled (a : CacheArguments) (ms : List a.PrintedRow) : Prop :=
  if a.percent then
    ∀ m ∈ ms, ∀ n ∈ ms, m.size ≠ n.size →
      m.size < n.size ∧ m.label < n.label ∨ n.size < m.size ∧ n.label < m.label
  else ∀ m ∈ ms, m.label = m.size

namespace PrintedRow

theorem rowKey_eq (m : a.PrintedRow) : rowKey m.row = Binary.totalKey m.label := by
  rw [rowKey, m.label_read, Option.getD_some]

theorem rowScore?_eq (m : a.PrintedRow) : a.rowScore? m.row = some (1.0 - m.miss) := by
  rw [rowScore?, m.miss_read, Option.map_some]

end PrintedRow

theorem Printed.rows_eq {ms : List a.PrintedRow} {output : String} (h : a.Printed ms output) :
    rows output = ms.map PrintedRow.row := by
  have hbraced : rows output = ((Text.lines output.toList).filter Braced).filterMap fun line =>
      Json.parse? (String.ofList line) := by
    rw [List.filterMap_filter, rows]
    simp only [Braced, decide_eq_true_eq]
  rw [hbraced, h.lines, List.filterMap_map, ← List.filterMap_eq_map]
  exact List.filterMap_congr fun m _ => m.read

/-! ## Finding the row -/

/-- The rank of the size that counts. -/
def rank? (a : CacheArguments) : Option Nat :=
  (a.sizes.mergeSort fun x y => Binary.totalKey x ≤ Binary.totalKey y).findIdx? fun s =>
    sameSize s a.scoredSize

theorem scoredRow_eq_some_iff {rs : List Json} {row : Json} (hpercent : a.percent = true) :
    a.scoredRow (a.orderedRows rs) = some row ↔
      rs.length = a.sizes.length ∧ ∃ rank, a.rank? = some rank ∧
        (a.orderedRows rs)[rank]? = some row := by
  rw [scoredRow, if_pos hpercent]
  simp only [List.length_mergeSort, (perm_orderedRows rs).length_eq, rank?,
    ← Option.bind_eq_some_iff]
  split
  · next h => simp [h]
  · next h => simp [h]

section Finding

variable {ms others : List a.PrintedRow} {m : a.PrintedRow}

theorem scoredRow_of_sizes (habsolute : a.percent = false) (hperm : ms.Perm (m :: others))
    (hlabels : ∀ n ∈ ms, n.label = n.size) (hsame : sameSize m.size a.scoredSize = true)
    (hothers : ∀ n ∈ others, sameSize n.size a.scoredSize = false) :
    a.scoredRow (a.orderedRows (ms.map PrintedRow.row)) = some m.row := by
  have hfits : ∀ n ∈ ms, ((rowSize n.row).any fun s => sameSize s a.scoredSize) =
      sameSize n.size a.scoredSize := by
    intro n hn
    rw [n.label_read, Option.any_some, hlabels n hn]
  have hnone : (others.filter fun n => sameSize n.size a.scoredSize) = [] := by
    simpa using hothers
  have hkept : (ms.filter fun n => sameSize n.size a.scoredSize) = [m] := by
    have hfilter := hperm.filter fun n => sameSize n.size a.scoredSize
    rw [List.filter_cons, if_pos hsame, hnone] at hfilter
    exact List.perm_singleton.mp hfilter
  rw [orderedRows, scoredRow, habsolute]
  simp only [Bool.false_eq_true, if_false]
  rw [List.filter_map, Function.comp_def, List.filter_congr hfits, hkept]
  rfl

theorem scoredRow_of_ranks (hpercent : a.percent = true) (hperm : ms.Perm (m :: others))
    (hsizes : (ms.map PrintedRow.size).Perm a.sizes)
    (hlabels : ∀ n ∈ others, m.size < n.size ∧ m.label < n.label ∨
      n.size < m.size ∧ n.label < m.label)
    (hsame : sameSize m.size a.scoredSize = true)
    (hothers : ∀ n ∈ others, sameSize n.size a.scoredSize = false) :
    a.scoredRow (a.orderedRows (ms.map PrintedRow.row)) = some m.row := by
  have hkeys : ∀ n ∈ others,
      Binary.totalKey m.size < Binary.totalKey n.size ∧ rowKey m.row < rowKey n.row ∨
        Binary.totalKey n.size < Binary.totalKey m.size ∧ rowKey n.row < rowKey m.row := by
    intro n hn
    rw [m.rowKey_eq, n.rowKey_eq]
    exact (hlabels n hn).imp (And.imp Binary.totalKey_lt_of_lt Binary.totalKey_lt_of_lt)
      (And.imp Binary.totalKey_lt_of_lt Binary.totalKey_lt_of_lt)
  have hsizesNe : ∀ s ∈ others.map PrintedRow.size,
      Binary.totalKey s ≠ Binary.totalKey m.size := by
    intro s hs
    obtain ⟨n, hn, rfl⟩ := List.mem_map.mp hs
    have hkey := hkeys n hn
    omega
  have hrowsNe : ∀ row ∈ others.map PrintedRow.row, rowKey row ≠ rowKey m.row := by
    intro row hrow
    obtain ⟨n, hn, rfl⟩ := List.mem_map.mp hrow
    have hkey := hkeys n hn
    omega
  -- as many percentages are below the one that counts as there are labels below its label
  have hranks : (others.map PrintedRow.size).countP (fun s =>
      Binary.totalKey s < Binary.totalKey m.size) =
        (others.map PrintedRow.row).countP fun row => rowKey row < rowKey m.row := by
    rw [List.countP_map, List.countP_map]
    refine List.countP_congr fun n hn => ?_
    simp only [Function.comp_apply, decide_eq_true_eq]
    have hkey := hkeys n hn
    omega
  have hrank : a.rank? = some ((others.map PrintedRow.size).countP fun s =>
      Binary.totalKey s < Binary.totalKey m.size) :=
    findIdx?_mergeSort Binary.totalKey (hsizes.symm.trans (hperm.map PrintedRow.size)) hsizesNe
      hsame (by simpa using hothers)
  have hcounts : (ms.map PrintedRow.row).length = a.sizes.length := by
    rw [← hsizes.length_eq, List.length_map, List.length_map]
  refine (scoredRow_eq_some_iff hpercent).mpr ⟨hcounts, _, hrank, ?_⟩
  rw [hranks, orderedRows, if_pos hpercent]
  exact getElem?_mergeSort rowKey (hperm.map PrintedRow.row) hrowsNe

end Finding

/-- **The score is that of the size that counts.** Suppose exactly one size is the one that counts
up to rounding, and a successful run has printed one row for each size, in any order and between
lines that do not open with a brace. The rows are labelled with their sizes, or if these are
percentages with anything that grows strictly with them. Then the run counts, its score is one less
the ratio of the row of that size, and its results hold all rows. -/
theorem score_of_scored_size {r : CommandResult} {ms : List a.PrintedRow}
    (hsuccess : r.success = true) (hprinted : a.Printed ms r.stdout)
    (hone : a.sizes.countP (sameSize · a.scoredSize) = 1) (hlabelled : a.Labelled ms) :
    ∃ m ∈ ms, sameSize m.size a.scoredSize = true ∧ (a.outcome r).executed = true ∧
      (a.outcome r).score = some (1.0 - m.miss) ∧
      ∃ listed, (a.outcome r).results.get? "results" = some (.arr listed) ∧
        listed.Perm (ms.map PrintedRow.row) := by
  have hcount : ms.countP (fun m => sameSize m.size a.scoredSize) = 1 := by
    rw [← hone, ← hprinted.sizes.countP_eq, List.countP_map]
    rfl
  obtain ⟨m, others, hperm, hsame, hothers⟩ := exists_perm_cons_of_countP hcount
  have hm : m ∈ ms := hperm.mem_iff.mpr List.mem_cons_self
  have hrow : a.scoredRow (a.orderedRows (ms.map PrintedRow.row)) = some m.row := by
    rw [Labelled] at hlabelled
    by_cases hpercent : a.percent = true
    · rw [if_pos hpercent] at hlabelled
      refine scoredRow_of_ranks hpercent hperm hprinted.sizes ?_ hsame hothers
      intro n hn
      refine hlabelled m hm n (hperm.mem_iff.mpr (List.mem_cons_of_mem _ hn)) fun heq => ?_
      exact absurd (hothers n hn) (by simp [← heq, hsame])
    · rw [if_neg hpercent] at hlabelled
      exact scoredRow_of_sizes (Bool.eq_false_iff.mpr hpercent) hperm hlabelled hsame hothers
  have hscore : (a.outcome r).score = some (1.0 - m.miss) := by
    rw [score_outcome hsuccess, hprinted.rows_eq, hrow, Option.bind_some, m.rowScore?_eq]
  refine ⟨m, hm, hsame, ?_, hscore, _, results_outcome hsuccess, ?_⟩
  · rw [executed_outcome, hscore]
    rfl
  · rw [hprinted.rows_eq]
    exact perm_orderedRows _

/-- The row of a line that can be read. -/
def PrintedRow.ofLine (size label miss : Float) (line : List Char)
    (hlabel : (Json.parse? (String.ofList line)).bind rowSize = some label)
    (hmiss : (Json.parse? (String.ofList line)).bind
      (fun row => (row.get? a.column).bind Json.number?) = some miss) : a.PrintedRow :=
  have hread : (Json.parse? (String.ofList line)).isSome := Option.isSome_of_isSome_bind (by
    rw [hlabel]
    rfl)
  { size, label, miss, line
    row := (Json.parse? (String.ofList line)).get hread
    read := (Option.some_get hread).symm
    label_read := by rwa [← Option.some_get hread] at hlabel
    miss_read := by rwa [← Option.some_get hread] at hmiss }

/-- Two percentages, of which the greater one counts, and its row is printed first. -/
theorem score_of_scored_size_by_rank :
    let a : CacheArguments := ⟨"", [1.0, 10.0], 10.0, true, false, 1, 1⟩
    let r : CommandResult := ⟨some 0,
      "loading\n\x7b\"cache_size_mb\": 900.0, \"miss_ratio\": 0.25\x7d\n" ++
        "\x7b\"cache_size_mb\": 90.0, \"miss_ratio\": 0.5\x7d\n", "", false⟩
    (a.outcome r).executed = true ∧ (a.outcome r).score = some 0.75 := by
  intro a r
  let large : a.PrintedRow := .ofLine 10.0 900.0 0.25
    "\x7b\"cache_size_mb\": 900.0, \"miss_ratio\": 0.25\x7d".toList
    (by decide +kernel) (by decide +kernel)
  let small : a.PrintedRow := .ofLine 1.0 90.0 0.5
    "\x7b\"cache_size_mb\": 90.0, \"miss_ratio\": 0.5\x7d".toList
    (by decide +kernel) (by decide +kernel)
  have hprinted : a.Printed [large, small] r.stdout := ⟨List.Perm.swap _ _ _, by decide +kernel⟩
  have hgrow : (1.0 : Float) < 10.0 ∧ (90.0 : Float) < 900.0 := by decide +kernel
  have hlabelled : a.Labelled [large, small] := by
    rw [Labelled, if_pos rfl]
    intro m hm n hn hne
    simp only [List.mem_cons, List.not_mem_nil, or_false] at hm hn
    rcases hm with rfl | rfl <;> rcases hn with rfl | rfl
    · exact absurd rfl hne
    · exact .inr hgrow
    · exact .inl hgrow
    · exact absurd rfl hne
  obtain ⟨m, hm, hsame, hexecuted, hscore, -⟩ :=
    score_of_scored_size rfl hprinted (by decide +kernel) hlabelled
  have hratio : (1.0 : Float) - 0.25 = 0.75 := by decide +kernel
  have hother : sameSize 1.0 10.0 = false := by decide +kernel
  simp only [List.mem_cons, List.not_mem_nil, or_false] at hm
  rcases hm with rfl | rfl
  · exact ⟨hexecuted, hscore.trans (congrArg some hratio)⟩
  · exact absurd hsame (by rw [show sameSize small.size a.scoredSize = false from hother]; decide)

end CacheArguments

end HeuristicEvolution

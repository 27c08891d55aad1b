import HeuristicEvolution.Proofs.Candidate.Encoding
import HeuristicEvolution.Proofs.Evolution.Steps
import HeuristicEvolution.Proofs.Json.Depth
import HeuristicEvolution.Ledger.Query

/-!
# Reading rows

A row holds some parts of a candidate as they are and others as values in columns. Queries look at
the former, and whoever asks for records gets what is read from all of them. This module says when
the two tell the same story.

It is a matter of what the record was before it was written. The numbers in it have to fit their
widths, or nothing is read at all; and the results have to be a proper value, or their score may be
lost when they are kept as text. That a built candidate has code and only a built one was executed
is in no column. It is what `Candidate.flaw?` checks.

Even then a record need not be read: a ledger takes results and logs of any depth, and reading gives
up on those that are too deep. So a row is asked two things, which record it describes and whether
this record can be read.

## Main definitions

* `Candidate.Keepable`: records whose rows are faithful.
* `Row.stored`: the record that a row describes.
* `Row.Shallow`: the record can be read.
* `Row.Faithful`: the record of the row agrees with what queries see of it.

## Main results

* `Row.stored_of_fits`, `Row.candidate_of_fits`: what a row describes, and when it is read.
* `Row.faithful_ofCandidate`
-/

namespace HeuristicEvolution

open Json (bound32)

/-- Where each element is read, all are. -/
theorem mapM_eq_ok {ε α β : Type} {f : α → Except ε β} {g : α → β} {xs : List α}
    (h : ∀ x ∈ xs, f x = .ok (g x)) : xs.mapM f = .ok (xs.map g) := by
  induction xs with
  | nil => rfl
  | cons x rest ih =>
    obtain ⟨hfirst, hrest⟩ := List.forall_mem_cons.mp h
    rw [List.mapM_cons, hfirst, ih hrest]
    rfl

/-- Where some elements are not read, a list is read if it has none of them. -/
theorem mapM_eq_ite {ε α β : Type} {f : α → Except ε β} {g : α → β} {e : ε} {P : α → Prop}
    [DecidablePred P] {xs : List α} (h : ∀ x ∈ xs, f x = if P x then .ok (g x) else .error e) :
    xs.mapM f = if ∀ x ∈ xs, P x then .ok (xs.map g) else .error e := by
  induction xs with
  | nil => simp [pure, Except.pure]
  | cons x rest ih =>
    obtain ⟨hfirst, hrest⟩ := List.forall_mem_cons.mp h
    rw [List.mapM_cons, hfirst, ih hrest]
    by_cases hx : P x
    · by_cases hall : ∀ y ∈ rest, P y
      · rw [if_pos hx, if_pos hall, if_pos (List.forall_mem_cons.mpr ⟨hx, hall⟩)]
        rfl
      · rw [if_pos hx, if_neg hall, if_neg fun hboth => hall (List.forall_mem_cons.mp hboth).2]
        rfl
    · rw [if_neg hx, if_neg fun hboth => hx (List.forall_mem_cons.mp hboth).1]
      rfl

/-- What is read of a list is read of its elements. -/
theorem exists_of_mem_mapM {ε α β : Type} {f : α → Except ε β} {xs : List α} {ys : List β}
    (h : xs.mapM f = .ok ys) : ∀ y ∈ ys, ∃ x ∈ xs, f x = .ok y := by
  induction xs generalizing ys with
  | nil =>
    obtain rfl := Except.ok.inj h
    exact nofun
  | cons x rest ih =>
    rw [List.mapM_cons] at h
    obtain ⟨y, hy, h⟩ := Except.bind_eq_ok h
    obtain ⟨zs, hzs, h⟩ := Except.bind_eq_ok h
    obtain rfl := Except.ok.inj h
    refine List.forall_mem_cons.mpr ⟨⟨x, List.mem_cons_self, hy⟩, fun z hz => ?_⟩
    obtain ⟨w, hw, hread⟩ := ih hzs z hz
    exact ⟨w, List.mem_cons_of_mem _ hw, hread⟩

namespace Column

/-- What is read of a column comes from a value. -/
theorem exists_of_read {α : Type} {decode : Json → Option α} {column : Column} {a : α}
    (h : column.read decode = .ok (some a)) : ∃ j, decode j = some a := by
  have hfound : ∀ {a? : Option α}, read.found a? = .ok (some a) → a? = some a := by
    rintro (_ | b) hb
    · cases hb
    · exact Except.ok.inj hb
  cases column with
  | absent => cases h
  | value j =>
    rw [read] at h
    split at h
    · exact ⟨j, hfound h⟩
    · cases h
  | text s =>
    rw [read] at h
    split at h
    · cases h
    · obtain ⟨j, -, hj⟩ := Option.bind_eq_some_iff.mp (hfound h)
      exact ⟨j, hj⟩

/-- The value that a column describes. It may be too deep to be read. -/
def described {α : Type} (decode : Json → Option α) : Column → Option α
  | .absent => none
  | .value j => decode j
  | .text s => (Json.parseRaw? s).bind decode

theorem described_ofValue {α : Type} {decode : Json → Option α} {encode : α → Json} {a? : Option α}
    (h : ∀ a ∈ a?, decode (encode a) = some a) :
    described decode (ofValue (a?.map encode)) = a? := by
  cases a? with
  | none => rfl
  | some a => exact h a rfl

end Column

namespace Candidate

variable {c : Candidate}

/-- What comes back of a record: its results and logs were kept as text. -/
def reread (c : Candidate) : Candidate :=
  { c with
    results := c.results.map fun j => j.asStored.sorted
    logs := c.logs.map fun j => j.asStored.sorted }

/-- A record that passed the check of its flaws, whose numbers fit the widths in which they are kept
and whose results are a proper value. Its parents have ids below the given one. -/
structure Keepable (c : Candidate) (top : Int) : Prop where
  flawless : ∃ bound, c.flaw? bound = none
  iter_lt : c.iter < bound32
  revisions_fit : ∀ v ∈ c.revisions, v.Fits
  results_proper : ∀ j ∈ c.results, j.Proper
  parentIds_lt : ∀ ids ∈ c.parentIds, ∀ id ∈ ids, 1 ≤ id ∧ id < top

theorem Keepable.mono {top top' : Int} (h : c.Keepable top) (hle : top ≤ top') :
    c.Keepable top' :=
  { h with
    parentIds_lt := fun ids hids id hid =>
      ⟨(h.parentIds_lt ids hids id hid).1,
        Int.lt_of_lt_of_le (h.parentIds_lt ids hids id hid).2 hle⟩ }

/-- What a record without flaws says of its builds. -/
theorem built_of_flaw?_eq_none {bound : Nat} (h : c.flaw? bound = none) :
    ∃ built, c.buildStatus = some built ∧ c.results.isSome = built ∧ c.execStatus.isSome = built ∧
      (built = true → c.finalCode.isSome = true) := by
  rw [flaw?] at h
  split at h
  · exact nomatch h
  · next last _ =>
    split at h
    · exact nomatch h
    split at h
    · exact nomatch h
    next hstatus =>
    split at h
    · exact nomatch h
    next hevaluated =>
    split at h
    · exact nomatch h
    next hcode =>
    simp only [ne_eq, not_not] at hstatus
    simp only [ne_eq, Bool.or_eq_true, decide_eq_true_eq, not_or, not_not] at hevaluated
    refine ⟨last.built, hstatus, hevaluated.1.symm, hevaluated.2.symm, fun hbuilt => ?_⟩
    simpa [hbuilt, Option.isSome_iff_ne_none] using hcode

/-! ### Structures are never too deep -/

theorem shallow_revisions (c : Candidate) :
    (Column.value (.arr (c.revisions.map Revision.toJson))).Shallow :=
  Nat.le_trans (Json.depth_arr_map_le fun v _ => v.depth_toJson_le) (by decide)

theorem shallow_parentIds (c : Candidate) :
    (Column.ofValue (c.parentIds.map fun ids => .arr (ids.map .int))).Shallow := by
  cases c.parentIds with
  | none => trivial
  | some ids => exact Nat.le_trans (Json.depth_arr_map_le fun _ _ => Nat.le_refl 0) (by decide)

theorem shallow_parentCodes (c : Candidate) :
    (Column.ofValue (c.parentCodes.map .ofTexts)).Shallow := by
  cases c.parentCodes with
  | none => trivial
  | some codes => exact Nat.le_trans (Json.depth_ofTexts_le codes) (by decide)

end Candidate

/-! ## What is read back -/

/-- Ids are kept in 64 bits with a sign. -/
def idBound : Int := Int.ofNat (Nat.pow 2 63)

namespace Row

/-- The record that a row describes. Values in it may be too deep to be read. -/
def stored (r : Row) : Stored where
  id := r.id
  recordedAt := r.recordedAt
  record :=
    { iter := r.iter, sample := r.sample, finalCode := r.finalCode, buildStatus := r.buildStatus,
      execStatus := r.execStatus
      results := r.results.described fun j => some j.sorted
      logs := r.logs.described fun j => some j.sorted
      revisions := (r.revisions.described (Json.listOf? Revision.ofJson?)).getD []
      parentIds := r.parentIds.described (Json.listOf? Json.int64?)
      parentCodes := r.parentCodes.described Json.texts? }

/-- The ids of records are those of their rows. -/
theorem map_id_stored (rows : List Row) : (rows.map stored).map Stored.id = rows.map id :=
  List.map_map

/-- The values that come from outside can be read again. -/
def Shallow (r : Row) : Prop := r.results.Shallow ∧ r.logs.Shallow

instance (r : Row) : Decidable r.Shallow :=
  inferInstanceAs (Decidable (r.results.Shallow ∧ r.logs.Shallow))

section Fits

variable {c : Candidate} (hfits : ∀ v ∈ c.revisions, v.Fits)
  (hids : ∀ ids ∈ c.parentIds, ∀ id ∈ ids, -idBound ≤ id ∧ id < idBound)
include hfits

theorem listOf?_revisions :
    Json.listOf? Revision.ofJson? (.arr (c.revisions.map Revision.toJson)) = some c.revisions :=
  Json.listOf?_arr_map fun v hv => Revision.ofJson?_toJson (hfits v hv)

omit hfits in
include hids in
theorem listOf?_parentIds : ∀ ids ∈ c.parentIds,
    Json.listOf? Json.int64? (.arr (ids.map .int)) = some ids := by
  refine fun ids hsome => Json.listOf?_arr_map fun id hid => ?_
  obtain ⟨hlow, hhigh⟩ := hids ids hsome id hid
  exact Json.int64?_int hlow hhigh

include hids

/-- **What the row of a record describes.** Apart from the values that were kept as text the record
is what it was. -/
theorem stored_of_fits (id : Int) (runId now : String) :
    (ofCandidate id runId now c).stored = ⟨id, now, c.reread⟩ := by
  have hvalue : ∀ j? : Option Json,
      (Column.ofValue (j?.map Json.asStored)).described (fun j => some j.sorted)
        = j?.map fun j => j.asStored.sorted := by
    intro j?
    cases j? <;> rfl
  have hrevisions : (Column.value (.arr (c.revisions.map Revision.toJson))).described
      (Json.listOf? Revision.ofJson?) = some c.revisions := listOf?_revisions hfits
  have hparentIds := Column.described_ofValue (listOf?_parentIds hids)
  have hparentCodes := Column.described_ofValue
    fun codes (_ : codes ∈ c.parentCodes) => Json.texts?_ofTexts codes
  simp only [stored, ofCandidate, hvalue, hrevisions, hparentIds, hparentCodes, Option.getD_some]
  rfl

/-- **When the row of a record is read**: the numbers of the record have to fit, and its results and
logs must not be too deep. -/
theorem candidate_of_fits (id : Int) (runId now : String) :
    (ofCandidate id runId now c).candidate
      = if (ofCandidate id runId now c).Shallow then .ok ⟨id, now, c.reread⟩
        else .error .badColumn := by
  have hvalue : ∀ j? : Option Json,
      (Column.ofValue (j?.map Json.asStored)).read (fun j => some j.sorted)
        = if (Column.ofValue (j?.map Json.asStored)).Shallow
          then .ok (j?.map fun j => j.asStored.sorted) else .error .badColumn := by
    intro j?
    cases j? with
    | none => rfl
    | some j => exact Column.read_value rfl
  have hrevisions := Column.read_value (listOf?_revisions hfits)
  have hparentIds := Column.read_ofValue (listOf?_parentIds hids)
  have hparentCodes := Column.read_ofValue
    fun codes (_ : codes ∈ c.parentCodes) => Json.texts?_ofTexts codes
  -- The structures are never too deep.
  rw [if_pos (c.shallow_revisions)] at hrevisions
  rw [if_pos (c.shallow_parentIds)] at hparentIds
  rw [if_pos (c.shallow_parentCodes)] at hparentCodes
  simp only [candidate, ofCandidate, hvalue, hrevisions, hparentIds, hparentCodes, Shallow]
  by_cases hresults : (Column.ofValue (c.results.map Json.asStored)).Shallow <;>
    by_cases hlogs : (Column.ofValue (c.logs.map Json.asStored)).Shallow <;>
      simp only [hresults, hlogs, and_self, and_true, and_false, if_true, if_false] <;> rfl

end Fits

/-- The record that is read from a row agrees with what queries see of the row. -/
structure Faithful (r : Row) : Prop where
  iter_lt : r.iter < bound32
  built_of_executed : r.execStatus = some true → r.buildStatus = some true
  code_of_built : r.buildStatus = some true → r.finalCode.isSome = true
  /-- A zero score has no sign. -/
  unsigned : ∀ x ∈ r.score, Binary.dropZeroSign x = x
  isSome_score : r.stored.record.score.isSome = r.score.isSome
  read : r.candidate = if r.Shallow then .ok r.stored else .error .badColumn

/-- A row is ranked exactly if its record can be a parent and has a score. -/
theorem Faithful.ranked_stored {r : Row} (h : r.Faithful) :
    (r.stored.record.eligible && r.stored.record.score.isSome) = r.ranked := by
  rw [h.isSome_score]
  rfl

end Row

theorem Binary.dropZeroSign_dropZeroSign (x : Float) :
    dropZeroSign (dropZeroSign x) = dropZeroSign x := by
  unfold dropZeroSign
  split
  · split <;> rfl
  · rfl

/-- The ids of a record that can be kept fit their width. -/
theorem Candidate.Keepable.parentIds_fit {c : Candidate} {top : Int} (h : c.Keepable top)
    (htop : top ≤ idBound) : ∀ ids ∈ c.parentIds, ∀ id ∈ ids, -idBound ≤ id ∧ id < idBound := by
  intro ids hids id hid
  obtain ⟨hpos, hlt⟩ := h.parentIds_lt ids hids id hid
  have hlow : -idBound ≤ 0 := Int.neg_nonpos_of_nonneg (Int.natCast_nonneg _)
  exact ⟨Int.le_trans hlow (Int.le_trans Int.one_nonneg hpos), Int.lt_of_lt_of_le hlt htop⟩

/-- **The row of a record that can be kept is faithful.** -/
theorem Row.faithful_ofCandidate {c : Candidate} {top : Int} (h : c.Keepable top)
    (htop : top ≤ idBound) (id : Int) (runId now : String) :
    (Row.ofCandidate id runId now c).Faithful := by
  obtain ⟨bound, hflaw⟩ := h.flawless
  obtain ⟨built, hstatus, hresults, hexec, hcode⟩ := Candidate.built_of_flaw?_eq_none hflaw
  have hids := h.parentIds_fit htop
  have hstored := stored_of_fits h.revisions_fit hids id runId now
  refine ⟨h.iter_lt, fun hexecuted => ?_, fun hbuilt => ?_, fun x hx => ?_, ?_,
    hstored ▸ candidate_of_fits h.revisions_fit hids id runId now⟩
  · change c.execStatus = some true at hexecuted
    change c.buildStatus = some true
    rw [hexecuted, Option.isSome_some] at hexec
    rw [hstatus, hexec]
  · change c.buildStatus = some true at hbuilt
    rw [hstatus, Option.some.injEq] at hbuilt
    exact hcode hbuilt
  · obtain ⟨y, -, rfl⟩ := Option.map_eq_some_iff.mp (hx : c.score.map Binary.dropZeroSign = some x)
    exact Binary.dropZeroSign_dropZeroSign y
  · rw [hstored]
    change (c.reread.results.bind scoreOf).isSome = (c.score.map Binary.dropZeroSign).isSome
    rw [Option.isSome_map, Candidate.score, Candidate.reread]
    cases hj : c.results with
    | none => rfl
    | some j => exact Json.isSome_scoreOf_asStored_sorted (h.results_proper j hj)

end HeuristicEvolution

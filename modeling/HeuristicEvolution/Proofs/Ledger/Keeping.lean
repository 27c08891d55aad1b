import HeuristicEvolution.Proofs.Json.Reread
import HeuristicEvolution.Proofs.Ledger.History
import HeuristicEvolution.Proofs.Ledger.Reading

/-!
# Records come back

A record goes into a row of thirteen columns: some parts as they are, some as values that may be
absent, and the revisions as a value that is always there. It comes out of the row by a different
piece of code, much later, when other rows stand around it. This module says that it comes out as it
went in, whatever is done with the ledger between the two.

The records are those that the types of the columns allow for (`Candidate.Storable`): numbers fit
their widths, and values are such as the format's library makes and reads back, which takes no more
levels than it reads. Nothing is asked of texts, of which parts are there, or of how long the lists
are. Nor are flaws of a record any concern of the ledger.

## Main definitions

* `Candidate.Storable`: what is asked of a record.
* `Ledger.inserted`: the records that a history has put into a run.

## Main results

* `Row.candidate_of_storable`: a row is read as the record that was put in.
* `Ledger.rowsOf_performAll`: the rows of a run are those of its records.
* `Ledger.records_come_back`
-/

namespace HeuristicEvolution

/-! ## Rows -/

/-- The numbers of the record fit the widths in which they are kept, and its values come back from
text as they were. -/
structure Candidate.Storable (c : Candidate) : Prop where
  revisions_fit : ∀ v ∈ c.revisions, v.Fits
  parentIds_fit : ∀ ids ∈ c.parentIds, ∀ id ∈ ids, -idBound ≤ id ∧ id < idBound
  results_readBack : ∀ j ∈ c.results, j.ReadBack
  logs_readBack : ∀ j ∈ c.logs, j.ReadBack

/-- A value that is read back is itself after it was kept. -/
theorem Json.map_reread_eq_self {j? : Option Json} (h : ∀ j ∈ j?, j.ReadBack) :
    j?.map (fun j => j.asStored.sorted) = j? := by
  cases j? with
  | none => rfl
  | some j =>
    have hj : j.Lasting := (h j rfl).lasting
    rw [Option.map_some, Json.asStored_eq_self j hj, Json.sorted_eq_self j hj]

/-- Its column can be read. -/
theorem Column.shallow_of_readBack {j? : Option Json} (h : ∀ j ∈ j?, j.ReadBack) :
    (Column.ofValue (j?.map Json.asStored)).Shallow := by
  cases j? with
  | none => trivial
  | some j => exact Nat.le_trans (Json.depth_asStored_le j) (h j rfl).depth_le

namespace Row

/-- The row of a record that was stored. -/
def ofStored (runId : String) (s : Stored) : Row := ofCandidate s.id runId s.recordedAt s.record

/-- What comes back of a record that can be stored is the record. -/
theorem reread_of_storable {c : Candidate} (h : c.Storable) : c.reread = c := by
  rw [Candidate.reread, Json.map_reread_eq_self h.results_readBack,
    Json.map_reread_eq_self h.logs_readBack]

/-- **The row of a record that can be stored describes the record.** -/
theorem stored_ofStored {s : Stored} (h : s.record.Storable) (runId : String) :
    (ofStored runId s).stored = s := by
  have hstored := stored_of_fits h.revisions_fit h.parentIds_fit s.id runId s.recordedAt
  rwa [reread_of_storable h] at hstored

/-- **A row is read as the record that was put in.** -/
theorem candidate_of_storable {s : Stored} (h : s.record.Storable) (runId : String) :
    (ofStored runId s).candidate = .ok s := by
  have hread := candidate_of_fits h.revisions_fit h.parentIds_fit s.id runId s.recordedAt
  have hshallow : (ofStored runId s).Shallow :=
    ⟨Column.shallow_of_readBack h.results_readBack, Column.shallow_of_readBack h.logs_readBack⟩
  rw [reread_of_storable h] at hread
  exact hread.trans (if_pos hshallow)

/-- The columns that hold values. -/
def columns (r : Row) : List Column := [r.results, r.logs, r.revisions, r.parentIds, r.parentCodes]

/-- No column of a record is blank, so none is taken for an absent one. -/
theorem not_blank_of_mem_columns {id : Int} {runId now : String} {c : Candidate} :
    ∀ column ∈ (ofCandidate id runId now c).columns, ∀ s ∈ column.text?,
      Text.trimList s.toList ≠ [] := by
  have hvalue : ∀ (j? : Option Json), ∀ s ∈ (Column.ofValue j?).text?,
      Text.trimList s.toList ≠ [] := by
    intro j? s hs
    cases j? with
    | none => exact nomatch hs
    | some j => exact Column.not_blank_of_value j s hs
  have hcolumns : (ofCandidate id runId now c).columns = [
      .ofValue (c.results.map Json.asStored), .ofValue (c.logs.map Json.asStored),
      .ofValue (some (.arr (c.revisions.map Revision.toJson))),
      .ofValue (c.parentIds.map fun ids => .arr (ids.map .int)),
      .ofValue (c.parentCodes.map .ofTexts)] := rfl
  rw [hcolumns]
  simp only [List.forall_mem_cons]
  exact ⟨hvalue _, hvalue _, hvalue _, hvalue _, hvalue _, by simp⟩

end Row

/-! ## Records of a run -/

/-- What the operation puts into the run: a record, if it was taken and got an id. -/
def Operation.stored? (runId : String) (l : Ledger) : Operation → Option Stored
  | .insertCandidate run now c =>
    match ((insertCandidate run now c).perform l).1 with
    | .ok (.inserted id) => if run = runId then some ⟨id, now, c⟩ else none
    | _ => none
  | _ => none

namespace Ledger

variable {l : Ledger} {runId : String}

/-- The records that operations put into a run, in order. -/
def inserted (runId : String) : Ledger → List Operation → List Stored
  | _, [] => []
  | l, op :: ops => (op.stored? runId l).toList ++ inserted runId (op.perform l).2 ops

/-- An operation adds the row of the record that it puts in, and no other. -/
theorem rowsOf_perform (l : Ledger) (runId : String) (op : Operation) :
    (op.perform l).2.rowsOf runId
      = l.rowsOf runId ++ (op.stored? runId l).toList.map (Row.ofStored runId) := by
  cases op with
  | insertCandidate run now c =>
    rw [Operation.stored?, perform_insertCandidate, Operation.perform]
    cases hi : l.insert run now c with
    | error e => simp [Except.map, Operation.settle]
    | ok found =>
      obtain ⟨id, l'⟩ := found
      obtain ⟨-, -, rfl, rfl⟩ := insert_eq_ok_iff.mp hi
      have hrows : (l.append run now c).rowsOf runId
          = l.rowsOf runId ++ if run = runId then [Row.ofCandidate l.nextId run now c] else [] := by
        by_cases hrun : run = runId
        · simp [rowsOf, append, List.filter_append, Row.ofCandidate, hrun]
        · simp [rowsOf, append, List.filter_append, Row.ofCandidate, hrun]
      show (l.append run now c).rowsOf runId = _
      rw [hrows]
      by_cases hrun : run = runId
      · subst hrun
        simp [Except.map, Row.ofStored]
      · simp [Except.map, hrun]
  | createRun run =>
    rw [Operation.perform]
    cases hadd : l.addRun run with
    | error e => simp [Except.map, Operation.settle, Operation.stored?]
    | ok l' =>
      obtain ⟨-, rfl⟩ := addRun_eq_ok_iff.mp hadd
      simp [Except.map, Operation.settle, Operation.stored?, rowsOf]
  | recordInvocation call =>
    rw [Operation.perform]
    cases hnote : l.recordInvocation call with
    | error e => simp [Except.map, Operation.settle, Operation.stored?]
    | ok l' =>
      obtain ⟨-, rfl⟩ := recordInvocation_eq_ok_iff.mp hnote
      simp [Except.map, Operation.settle, Operation.stored?, rowsOf]
  | _ => exact (List.append_nil _).symm

/-- **The rows of a run are those of its records.** -/
theorem rowsOf_performAll (l : Ledger) (runId : String) (ops : List Operation) :
    (l.performAll ops).rowsOf runId
      = l.rowsOf runId ++ (inserted runId l ops).map (Row.ofStored runId) := by
  induction ops generalizing l with
  | nil => exact (List.append_nil _).symm
  | cons op ops ih =>
    rw [inserted, List.map_append, ← List.append_assoc, ← rowsOf_perform]
    exact ih _

theorem rowsOf_after (ops : List Operation) (runId : String) :
    (after ops).rowsOf runId = (inserted runId empty ops).map (Row.ofStored runId) :=
  rowsOf_performAll empty runId ops

/-! ## One record -/

/-- In an intact ledger a slot leads to its row. -/
theorem Intact.row?_eq (h : l.Intact) {r : Row} (hr : r ∈ l.rows) :
    l.row? r.runId r.iter r.sample = some r := by
  have hat : r.isAt r.runId r.iter r.sample = true := Row.isAt_iff.mpr rfl
  obtain ⟨found, hfound⟩ :
      ∃ found, l.rows.find? (fun x => x.isAt r.runId r.iter r.sample) = some found := by
    refine Option.isSome_iff_exists.mp ?_
    rw [List.find?_isSome]
    exact ⟨r, hr, hat⟩
  have hthere := List.find?_some hfound
  have hplace : found.place = r.place := Row.isAt_iff.mp hthere
  have hsame : found = r :=
    List.inj_on_of_nodup_map h.places_nodup (List.mem_of_find?_eq_some hfound) hr hplace
  rw [row?, hfound, hsame]

/-- The record of a row that stands in an intact ledger is found. -/
theorem Intact.candidate?_eq (h : l.Intact) {s : Stored} (hs : Row.ofStored runId s ∈ l.rows)
    (hstorable : s.record.Storable) :
    l.candidate? runId s.record.iter s.record.sample = .ok (some s) := by
  have hrow : l.row? runId s.record.iter s.record.sample = some (Row.ofStored runId s) :=
    h.row?_eq hs
  rw [candidate?, hrow]
  show (Row.ofStored runId s).candidate.map some = .ok (some s)
  rw [Row.candidate_of_storable hstorable]
  rfl

/-! ## All records of a run -/

/-- The first record stands in an earlier slot. -/
def SlotBefore (a b : Stored) : Prop :=
  a.record.iter < b.record.iter ∨
    (a.record.iter = b.record.iter ∧ a.record.sample < b.record.sample)

theorem slotLE_iff {a b : Row} :
    a.slotLE b = true ↔ a.iter < b.iter ∨ (a.iter = b.iter ∧ a.sample ≤ b.sample) := by
  simp [Row.slotLE]

/-- Rows of a run are listed in the order of their slots. -/
theorem pairwise_slots_mergeSort (rows : List Row) :
    (rows.mergeSort Row.slotLE).Pairwise fun a b => a.slotLE b = true := by
  refine List.pairwise_mergeSort (fun a b c hab hbc => ?_) (fun a b => ?_) rows
  · rw [slotLE_iff] at hab hbc ⊢
    omega
  · rw [Bool.or_eq_true, slotLE_iff, slotLE_iff]
    omega

/-- In an intact ledger no two rows of a run stand in one slot. -/
theorem Intact.nodup_places_mergeSort (h : l.Intact) (runId : String) :
    (((l.rowsOf runId).mergeSort Row.slotLE).map Row.place).Nodup := by
  have hsub : ((l.rowsOf runId).map Row.place).Sublist (l.rows.map Row.place) :=
    List.filter_sublist.map Row.place
  exact ((List.mergeSort_perm _ _).map Row.place).nodup_iff.mpr (hsub.nodup h.places_nodup)

/-- **The records of a run are listed** as they were put in, each once, by their slots. -/
theorem Intact.candidates_eq (h : l.Intact) {stored : List Stored}
    (hrows : l.rowsOf runId = stored.map (Row.ofStored runId))
    (hstorable : ∀ s ∈ stored, s.record.Storable) :
    ∃ listed, l.candidates runId = .ok listed ∧ listed.Perm stored ∧
      listed.Pairwise SlotBefore := by
  have hperm : ((l.rowsOf runId).mergeSort Row.slotLE).Perm (stored.map (Row.ofStored runId)) :=
    hrows ▸ List.mergeSort_perm _ _
  have hall : ∀ r ∈ (l.rowsOf runId).mergeSort Row.slotLE,
      ∃ s ∈ stored, Row.ofStored runId s = r :=
    fun r hr => List.mem_map.mp (hperm.mem_iff.mp hr)
  refine ⟨((l.rowsOf runId).mergeSort Row.slotLE).map Row.stored, ?_, ?_, ?_⟩
  · refine mapM_eq_ok fun r hr => ?_
    obtain ⟨s, hs, rfl⟩ := hall r hr
    rw [Row.stored_ofStored (hstorable s hs), Row.candidate_of_storable (hstorable s hs)]
  · have hback : (stored.map (Row.ofStored runId)).map Row.stored = stored := by
      have hself : ∀ s ∈ stored, (Row.stored ∘ Row.ofStored runId) s = id s :=
        fun s hs => Row.stored_ofStored (hstorable s hs) runId
      rw [List.map_map, List.map_congr_left hself, List.map_id]
    exact (hperm.map Row.stored).trans (.of_eq hback)
  · have hplaces := List.pairwise_map.mp (h.nodup_places_mergeSort runId)
    refine List.pairwise_map.mpr
      (((pairwise_slots_mergeSort (l.rowsOf runId)).and hplaces).imp_of_mem ?_)
    rintro a b ha hb ⟨hle, hne⟩
    obtain ⟨s, hs, rfl⟩ := hall a ha
    obtain ⟨t, ht, rfl⟩ := hall b hb
    rw [Row.stored_ofStored (hstorable s hs), Row.stored_ofStored (hstorable t ht)]
    have hslots : s.record.iter < t.record.iter ∨
        (s.record.iter = t.record.iter ∧ s.record.sample ≤ t.record.sample) := slotLE_iff.mp hle
    have hother : ¬ (s.record.iter = t.record.iter ∧ s.record.sample = t.record.sample) := by
      rintro ⟨hiter, hsample⟩
      exact hne (by rw [Row.ofStored, Row.ofStored, Row.place_ofCandidate, Row.place_ofCandidate,
        hiter, hsample])
    rw [SlotBefore]
    omega

/-! ## Histories -/

theorem mem_rowsOf_self {r : Row} : r ∈ l.rowsOf r.runId ↔ r ∈ l.rows := by
  simp [rowsOf]

/-- Every row of a history is that of a record. -/
theorem exists_ofStored_of_mem_after {ops : List Operation} {r : Row}
    (hr : r ∈ (after ops).rows) :
    ∃ s ∈ inserted r.runId empty ops, Row.ofStored r.runId s = r := by
  have hof := mem_rowsOf_self.mpr hr
  rw [rowsOf_after] at hof
  exact List.mem_map.mp hof

theorem after_concat (ops : List Operation) (op : Operation) :
    after (ops ++ [op]) = (op.perform (after ops)).2 :=
  List.foldl_append

/-- The row of a record that got an id is there from then on. -/
theorem mem_rows_of_inserted {ops : List Operation} {runId now : String} {c : Candidate} {id : Int}
    (h : ((Operation.insertCandidate runId now c).perform (after ops)).1 = .ok (.inserted id))
    (more : List Operation) :
    Row.ofStored runId ⟨id, now, c⟩ ∈
      (after (ops ++ .insertCandidate runId now c :: more)).rows := by
  rw [perform_insertCandidate] at h
  cases hi : (after ops).insert runId now c with
  | error e => simp [hi, Except.map] at h
  | ok found =>
    obtain ⟨id', l'⟩ := found
    obtain rfl : id' = id := by simpa [hi, Except.map] using h
    obtain ⟨-, -, rfl, rfl⟩ := insert_eq_ok_iff.mp hi
    have hnow : after (ops ++ [.insertCandidate runId now c]) = (after ops).append runId now c := by
      rw [after_concat, Operation.perform, hi]
      rfl
    have hlater := (extends_after_append (ops ++ [.insertCandidate runId now c]) more).rows
    rw [List.append_assoc, List.singleton_append, hnow] at hlater
    exact hlater.subset (List.mem_append_right _ List.mem_cons_self)

/-- **Records come back.** Let anything be done with a ledger that was empty. If a record can be
stored at all, and if it is put into a run and gets an id, then, whatever is done later,

* asking for its slot gives this id with exactly this record;
* listing the run gives exactly the records that were put into it, each once, in the order of their
  slots, if they all can be stored.

No column in which a record is kept is blank, so a value that is there is never taken for one that
is absent. -/
theorem records_come_back (ops : List Operation) :
    (∀ (runId now : String) (c : Candidate) (id : Int), c.Storable →
      ((Operation.insertCandidate runId now c).perform (after ops)).1 = .ok (.inserted id) →
      ∀ more : List Operation,
        ((Operation.getCandidate runId c.iter c.sample).perform
          (after (ops ++ .insertCandidate runId now c :: more))).1
            = .ok (.candidate (some ⟨id, now, c⟩))) ∧
    (∀ runId : String, (∀ s ∈ inserted runId empty ops, s.record.Storable) →
      ∃ listed, ((Operation.candidatesForRun runId).perform (after ops)).1
          = .ok (.candidates listed) ∧
        listed.Perm (inserted runId empty ops) ∧ listed.Pairwise SlotBefore) ∧
    ∀ r ∈ (after ops).rows, ∀ column ∈ r.columns, ∀ s ∈ column.text?,
      Text.trimList s.toList ≠ [] := by
  refine ⟨fun runId now c id hc h more => ?_, fun runId hstorable => ?_, fun r hr => ?_⟩
  · have hmem := mem_rows_of_inserted h more
    have hfound := (intact_after _).candidate?_eq hmem hc
    show ((after _).candidate? runId c.iter c.sample).map Answer.candidate = _
    rw [hfound]
    rfl
  · obtain ⟨listed, hlisted, hperm, hascend⟩ :=
      (intact_after ops).candidates_eq (rowsOf_after ops runId) hstorable
    refine ⟨listed, ?_, hperm, hascend⟩
    show ((after ops).candidates runId).map Answer.candidates = _
    rw [hlisted]
    rfl
  · obtain ⟨s, -, hs⟩ := exists_ofStored_of_mem_after hr
    rw [← hs]
    exact Row.not_blank_of_mem_columns

/-- A `null` that is there, an empty list and an absent one, and a record of an earlier slot that is
put in later. -/
theorem records_come_back_mixed :
    let c : Candidate :=
      { iter := 1, sample := 0, finalCode := some "", buildStatus := some true, execStatus := none,
        results := some .null, logs := none, revisions := [⟨0, true, "", " ", "p",
          ⟨"x", ["x"], [], [], ⟨none, 3, 4⟩⟩⟩], parentIds := some [], parentCodes := none }
    let d : Candidate :=
      { iter := 0, sample := 2, finalCode := none, buildStatus := none, execStatus := some false,
        results := some (.obj [("a", .arr [.float 0.5]), ("b", .str "")]), logs := some (.arr []),
        revisions := [], parentIds := some [-1, 7], parentCodes := some [] }
    let ops : List Operation := [.createRun ⟨"sort_0", "sort", "scripted", "", .null⟩]
    let later : List Operation := ops ++
      .insertCandidate "sort_0" "first" c :: [.insertCandidate "sort_0" "then" d]
    ((Operation.getCandidate "sort_0" 1 0).perform (after later)).1
        = .ok (.candidate (some ⟨1, "first", c⟩)) ∧
      ∃ listed, ((Operation.candidatesForRun "sort_0").perform (after later)).1
          = .ok (.candidates listed) ∧
        listed.Perm [⟨1, "first", c⟩, ⟨2, "then", d⟩] ∧ listed.Pairwise SlotBefore := by
  intro c d ops later
  have hc : c.Storable := by
    refine ⟨fun v hv => ?_, fun ids hids id hid => ?_, fun j hj => ?_, fun j hj => ?_⟩
    · obtain rfl := List.mem_singleton.mp hv
      exact ⟨by decide, by decide, by decide⟩
    · obtain rfl : [] = ids := Option.some.inj hids
      exact absurd hid List.not_mem_nil
    · obtain rfl : .null = j := Option.some.inj hj
      exact ⟨trivial, by decide⟩
    · exact nomatch hj
  have hd : d.Storable := by
    refine ⟨fun v hv => absurd hv List.not_mem_nil, fun ids hids => ?_, fun j hj => ?_,
      fun j hj => ?_⟩
    · obtain rfl : [-1, 7] = ids := Option.some.inj hids
      decide
    · obtain rfl : .obj [("a", .arr [.float 0.5]), ("b", .str "")] = j := Option.some.inj hj
      have hhalf : (Json.float 0.5).Lasting :=
        Json.lasting_float (by decide +kernel) (by decide +kernel)
      have hnames : "a" < "b" := by decide +kernel
      exact ⟨⟨List.pairwise_pair.mpr hnames, ⟨hhalf, trivial⟩, trivial, trivial⟩, by decide⟩
    · obtain rfl : .arr [] = j := Option.some.inj hj
      exact ⟨trivial, by decide⟩
  have hinserted : inserted "sort_0" empty later = [⟨1, "first", c⟩, ⟨2, "then", d⟩] := by rfl
  obtain ⟨hget, -⟩ := records_come_back ops
  obtain ⟨-, hlist, -⟩ := records_come_back later
  rw [← hinserted]
  refine ⟨hget "sort_0" "first" c 1 hc (by rfl) _, hlist "sort_0" ?_⟩
  rw [hinserted]
  simp only [List.forall_mem_cons]
  exact ⟨hc, hd, by simp⟩

end Ledger

end HeuristicEvolution

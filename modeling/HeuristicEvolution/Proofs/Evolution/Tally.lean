import HeuristicEvolution.Evolution.Scripted
import HeuristicEvolution.Proofs.Decimal.Order
import HeuristicEvolution.Proofs.Evolution.SlotOrder
import HeuristicEvolution.Proofs.Ledger.Overview

/-!
# What a call tells of itself

A call counts while it works: the slots that it passed over, the records that it added, how many of
them were built and measured, and their best score. This module says that the counts are a
description of the ledger: whoever compares the ledger before the call with the ledger after it
comes to the same summary.

A pass is described once, by `adds_of_visitAll`: what it adds to the ledger, and what it adds to
the summary that it was given. The induction is on the slots that are left. A slot is open when the
pass comes to it exactly if it was open at the start, because the slots before it are others
(`openSlots_append`).

## Main definitions

* `Evolution.openSlots`: the slots that have no candidate.
* `Evolution.merits`: the scores that count.
* `Evolution.Summary.addAll`: a summary after some slots were passed over and others filled.
* `Evolution.Summary.Tells`: a summary is a description of two ledgers.

## Main results

* `Evolution.adds_of_visitAll`: what a pass that succeeds adds.
* `Evolution.summary_tells_growth`
-/

namespace HeuristicEvolution

namespace Evolution

variable {σ : Type} {lab : Laboratory σ} {runId now : String} {settings : Settings} {slot : Slot}

/-! ## Open slots -/

theorem Taken.slot_of_record {l : Ledger} {c : Candidate} (h : Taken lab runId settings slot l c) :
    c.slot = slot := by
  obtain ⟨hiter, hsample⟩ := h.slot_eq
  rw [Candidate.slot, hiter, hsample]

/-- The slots that are open in a ledger. -/
def openSlots (l : Ledger) (runId : String) (xs : List Slot) : List Slot :=
  xs.filter fun x => !l.holds runId x.iter x.sample

theorem mem_openSlots_iff {l : Ledger} {xs : List Slot} {x : Slot} :
    x ∈ openSlots l runId xs ↔ x ∈ xs ∧ ¬ l.HasCandidate runId x.iter x.sample := by
  rw [openSlots, List.mem_filter, ← Ledger.holds_iff, Bool.not_eq_true', Bool.not_eq_true]

/-- A record that fills one slot leaves all others as they were. -/
theorem openSlots_append {l : Ledger} {c : Candidate} {xs : List Slot} (h : c.slot ∉ xs) :
    openSlots (l.append runId now c) runId xs = openSlots l runId xs := by
  refine List.filter_congr fun x hx => ?_
  have hne : ¬ (c.iter = x.iter ∧ c.sample = x.sample) := by
    rintro ⟨hiter, hsample⟩
    have hslot : c.slot = x := by rw [Candidate.slot, hiter, hsample]
    exact h (hslot ▸ hx)
  congr 1
  rw [Bool.eq_iff_iff, Ledger.holds_iff, Ledger.holds_iff, Ledger.hasCandidate_append_iff]
  simp [hne]

/-! ## Counting -/

/-- The scores that count: those of candidates that can be parents. -/
def merits (cs : List Candidate) : List Float :=
  (cs.filter Candidate.eligible).filterMap Candidate.score

theorem mem_merits_iff {cs : List Candidate} {x : Float} :
    x ∈ merits cs ↔ ∃ c ∈ cs, c.eligible = true ∧ c.score = some x := by
  simp only [merits, List.mem_filterMap, List.mem_filter, and_assoc]

theorem merits_cons (c : Candidate) (cs : List Candidate) :
    merits (c :: cs) = (if c.eligible then c.score.toList else []) ++ merits cs := by
  unfold merits
  cases hc : c.eligible with
  | false => rw [List.filter_cons_of_neg (by simp [hc]), if_neg (by simp), List.nil_append]
  | true =>
    rw [List.filter_cons_of_pos hc, if_pos rfl]
    cases hscore : c.score with
    | none => rw [List.filterMap_cons_none hscore, Option.toList_none, List.nil_append]
    | some x => rw [List.filterMap_cons_some hscore, Option.toList_some, List.singleton_append]

namespace Summary

/-- The summary after so many slots were passed over and the candidates were recorded. -/
def addAll (summary : Summary) (passed : Nat) (new : List Candidate) : Summary where
  runId := summary.runId
  recorded := summary.recorded + new.length
  skipped := summary.skipped + passed
  built := summary.built + new.countP (·.buildStatus = some true)
  evaluated := summary.evaluated + new.countP (·.execStatus = some true)
  bestScore := HeuristicEvolution.bestScore (summary.bestScore.toList ++ merits new)

theorem addAll_nil (summary : Summary) : summary.addAll 0 [] = summary := by
  obtain ⟨runId, recorded, skipped, built, evaluated, best⟩ := summary
  cases best <;> rfl

theorem addAll_skip (summary : Summary) (passed : Nat) (new : List Candidate) :
    summary.skip.addAll passed new = summary.addAll (passed + 1) new := by
  simp [addAll, skip, Nat.add_assoc, Nat.add_comm 1]

theorem bestScore_add (summary : Summary) (c : Candidate) (xs : List Float) :
    HeuristicEvolution.bestScore ((summary.add c).bestScore.toList ++ xs) =
      HeuristicEvolution.bestScore
        (summary.bestScore.toList ++ ((if c.eligible then c.score.toList else []) ++ xs)) := by
  cases hc : c.eligible with
  | true => simp only [add, hc, ↓reduceIte, bestScore_toList_append, List.append_assoc]
  | false => simp [add, hc]

theorem addAll_add (summary : Summary) (c : Candidate) (passed : Nat) (new : List Candidate) :
    (summary.add c).addAll passed new = summary.addAll passed (c :: new) := by
  have hcount : ∀ (p : Prop) [Decidable p] (n m : Nat),
      (if p then n + 1 else n) + m = n + (m + if p then 1 else 0) := by
    intro p _ n m
    split <;> omega
  rw [addAll, bestScore_add, ← merits_cons]
  simp only [addAll, add, List.length_cons, List.countP_cons, decide_eq_true_eq, hcount,
    Nat.add_assoc, Nat.add_comm 1]

end Summary

/-- **What a pass that succeeds adds**: one record for every slot that was open, in the order in
which they were visited, and every slot to one of the counts. -/
theorem adds_of_visitAll {xs : List Slot} {summary summary' : Summary} {s s' : State σ}
    (hnodup : xs.Nodup)
    (h : visitAll lab runId now settings xs summary s = .ok summary' s') :
    ∃ new passed, s'.ledger = s.ledger.appendAll runId now new ∧
      (∀ c ∈ new, ∃ slot l, Taken lab runId settings slot l c) ∧
      new.map Candidate.slot = openSlots s.ledger runId xs ∧
      passed + new.length = xs.length ∧ summary' = summary.addAll passed new := by
  induction xs generalizing summary s with
  | nil =>
    obtain ⟨rfl, rfl⟩ := EStateM.Result.ok.inj h
    exact ⟨[], 0, by simp, by simp, rfl, rfl, summary.addAll_nil.symm⟩
  | cons slot rest ih =>
    obtain ⟨c?, t, hvisit, hrest⟩ := bind_eq_ok_iff.mp h
    obtain ⟨hnotin, hnodup⟩ := List.nodup_cons.mp hnodup
    obtain ⟨new, passed, hledger, htaken, hslots, hlength, hsummary⟩ := ih hnodup hrest
    rcases returned_of_visit hvisit with ⟨rfl, hheld, hsame⟩ | ⟨c, rfl, hc, hmore⟩
    · rw [hsame] at hledger hslots
      refine ⟨new, passed + 1, hledger, htaken, ?_, ?_, ?_⟩
      · rw [hslots, openSlots, openSlots, List.filter_cons_of_neg]
        simpa using Ledger.holds_iff.mpr hheld
      · rw [List.length_cons, ← hlength, Nat.add_right_comm]
      · rw [hsummary, Summary.count, Summary.addAll_skip]
    · have hslot : c.slot = slot := hc.slot_of_record
      rw [hmore] at hledger hslots
      refine ⟨c :: new, passed, ?_, ?_, ?_, ?_, ?_⟩
      · rw [hledger, Ledger.appendAll_cons]
      · exact List.forall_mem_cons.mpr ⟨⟨slot, s.ledger, hc⟩, htaken⟩
      · rw [openSlots_append (hslot ▸ hnotin)] at hslots
        rw [List.map_cons, hslots, hslot, openSlots, openSlots, List.filter_cons_of_pos]
        simpa using mt Ledger.holds_iff.mp hc.free
      · rw [List.length_cons, List.length_cons, ← hlength, Nat.add_assoc]
      · rw [hsummary, Summary.count, Summary.addAll_add]

/-! ## Summaries as descriptions -/

/-- The summary describes how the second ledger differs from the first one in a range of slots of a
run: what it says can be read off the rows that were added. -/
structure Summary.Tells (summary : Summary) (runId : String) (start stop samples : Nat)
    (before after : Ledger) (added : List Row) : Prop where
  runId_eq : summary.runId = runId
  rows_eq : after.rows = before.rows ++ added
  skipped_eq : summary.skipped = Set.ncard {x : Slot |
    x.Within start stop samples ∧ before.HasCandidate runId x.iter x.sample}
  recorded_eq : summary.recorded = added.length
  recorded_add_skipped : summary.recorded + summary.skipped = (stop - start) * samples
  /-- No slot of the range is open. -/
  filled : ∀ x : Slot, x.Within start stop samples → after.HasCandidate runId x.iter x.sample
  /-- Rows were added for the open slots of the range, and for no others. -/
  place_iff : ∀ place, place ∈ added.map Row.place ↔ ∃ x : Slot, x.Within start stop samples ∧
    ¬ before.HasCandidate runId x.iter x.sample ∧ place = (runId, x.iter, x.sample)
  built_eq : summary.built = added.countP (·.buildStatus = some true)
  evaluated_eq : summary.evaluated = added.countP (·.execStatus = some true)
  bestScore_eq_none_iff : summary.bestScore = none ↔ ∀ r ∈ added, r.ranked = false
  /-- A zero is kept in the ledger without its sign. -/
  bestScore_mem : ∀ b, summary.bestScore = some b →
    ∃ r ∈ added, r.ranked = true ∧ r.score = some (Binary.dropZeroSign b)
  bestScore_max : ∀ b, summary.bestScore = some b → ∀ r ∈ added, r.ranked = true →
    ∀ x, r.score = some x → Binary.NotAbove x b

/-- The scores that count are those of the ranked rows. -/
theorem exists_ranked_iff (id : Int) (runId now : String) (cs : List Candidate) (x : Float) :
    (∃ r ∈ Ledger.rowsFrom id runId now cs, r.ranked = true ∧ r.score = some x) ↔
      ∃ y ∈ merits cs, x = Binary.dropZeroSign y := by
  have hmap : (Ledger.rowsFrom id runId now cs).map (fun r => (r.ranked, r.score)) =
      cs.map fun c => (c.eligible && c.score.isSome, c.score.map Binary.dropZeroSign) := by
    refine Ledger.map_rowsFrom (fun id c => ?_) id cs
    exact congrArg (fun scored => (c.eligible && scored, _)) Option.isSome_map
  calc (∃ r ∈ Ledger.rowsFrom id runId now cs, r.ranked = true ∧ r.score = some x)
      ↔ (true, some x) ∈ (Ledger.rowsFrom id runId now cs).map fun r => (r.ranked, r.score) := by
        simp only [List.mem_map, Prod.mk.injEq]
    _ ↔ ∃ c ∈ cs, (c.eligible && c.score.isSome) = true ∧
          c.score.map Binary.dropZeroSign = some x := by
        rw [hmap]
        simp only [List.mem_map, Prod.mk.injEq]
    _ ↔ ∃ y ∈ merits cs, x = Binary.dropZeroSign y := by
        simp only [mem_merits_iff, Bool.and_eq_true, Option.map_eq_some_iff]
        constructor
        · rintro ⟨c, hc, ⟨heligible, -⟩, y, hy, rfl⟩
          exact ⟨y, ⟨c, hc, heligible, hy⟩, rfl⟩
        · rintro ⟨y, ⟨c, hc, heligible, hy⟩, rfl⟩
          exact ⟨c, hc, ⟨heligible, Option.isSome_iff_exists.mpr ⟨y, hy⟩⟩, y, hy, rfl⟩

/-- Slots of a range that were filled before are those that are not open. -/
theorem ncard_held (l : Ledger) (runId : String) (start stop samples : Nat) :
    Set.ncard {x : Slot | x.Within start stop samples ∧ l.HasCandidate runId x.iter x.sample} +
      (openSlots l runId (slots start stop samples)).length = (stop - start) * samples := by
  have hheld : {x : Slot | x.Within start stop samples ∧ l.HasCandidate runId x.iter x.sample} =
      (((slots start stop samples).filter fun x => l.holds runId x.iter x.sample).toFinset :
        Set Slot) := by
    ext x
    simp [mem_slots_iff, Ledger.holds_iff]
  rw [hheld, Set.ncard_coe_finset, List.toFinset_card_of_nodup ((nodup_slots _ _ _).filter _),
    openSlots, ← List.length_eq_length_filter_add, length_slots]

/-- The rows of a pass stand in the slots that were open. -/
theorem mem_places_iff {id : Int} {l : Ledger} {xs : List Slot} {new : List Candidate}
    (h : new.map Candidate.slot = openSlots l runId xs) (place : String × Nat × Nat) :
    place ∈ (Ledger.rowsFrom id runId now new).map Row.place ↔
      ∃ x ∈ xs, ¬ l.HasCandidate runId x.iter x.sample ∧ place = (runId, x.iter, x.sample) := by
  have hplaces : (Ledger.rowsFrom id runId now new).map Row.place =
      (new.map Candidate.slot).map fun x => (runId, x.iter, x.sample) := by
    rw [List.map_map]
    exact Ledger.map_rowsFrom (fun _ _ => rfl) id new
  rw [hplaces, h]
  simp only [List.mem_map, mem_openSlots_iff, and_assoc, eq_comm]

/-- What a pass adds to a summary in which nothing was counted yet describes the rows it adds. -/
theorem tells_of_adds {l l' : Ledger} {new : List Candidate} {passed start stop samples : Nat}
    (hrows : l'.rows = l.rows ++ Ledger.rowsFrom l.nextId runId now new)
    (hslots : new.map Candidate.slot = openSlots l runId (slots start stop samples))
    (hlength : passed + new.length = (stop - start) * samples)
    (hfilled : ∀ x ∈ slots start stop samples, l'.HasCandidate runId x.iter x.sample) :
    ((Summary.start runId).addAll passed new).Tells runId start stop samples l l'
      (Ledger.rowsFrom l.nextId runId now new) := by
  have hopen : new.length = (openSlots l runId (slots start stop samples)).length := by
    rw [← hslots, List.length_map]
  have hheld := ncard_held l runId start stop samples
  have hbest : ((Summary.start runId).addAll passed new).bestScore = bestScore (merits new) := rfl
  have hranked := exists_ranked_iff l.nextId runId now new
  constructor
  case runId_eq => rfl
  case rows_eq => exact hrows
  case skipped_eq =>
    simp only [Summary.addAll, Summary.start]
    omega
  case recorded_eq => simp [Summary.addAll, Summary.start]
  case recorded_add_skipped =>
    simp only [Summary.addAll, Summary.start]
    omega
  case filled => exact fun x hx => hfilled x (mem_slots_iff.mpr hx)
  case place_iff =>
    intro place
    simp only [mem_places_iff hslots, mem_slots_iff]
  case built_eq =>
    exact (Nat.zero_add _).trans (Ledger.countP_rowsFrom (fun _ _ => rfl) _ new).symm
  case evaluated_eq =>
    exact (Nat.zero_add _).trans (Ledger.countP_rowsFrom (fun _ _ => rfl) _ new).symm
  case bestScore_eq_none_iff =>
    rw [hbest, HeuristicEvolution.bestScore_eq_none_iff, List.eq_nil_iff_forall_not_mem]
    constructor
    · refine fun hnone r hr => Bool.eq_false_iff.mpr fun htrue => ?_
      obtain ⟨x, hx⟩ := Row.exists_score_of_ranked htrue
      obtain ⟨y, hy, -⟩ := (hranked x).mp ⟨r, hr, htrue, hx⟩
      exact hnone y hy
    · intro hall y hy
      obtain ⟨r, hr, htrue, -⟩ := (hranked _).mpr ⟨y, hy, rfl⟩
      rw [hall r hr] at htrue
      exact nomatch htrue
  case bestScore_mem =>
    intro b hb
    exact (hranked _).mpr ⟨b, (HeuristicEvolution.bestScore_mem (hbest ▸ hb)).1, rfl⟩
  case bestScore_max =>
    intro b hb r hr htrue x hx
    obtain ⟨y, hy, rfl⟩ := (hranked x).mp ⟨r, hr, htrue, hx⟩
    rw [Binary.notAbove_iff, Binary.key_dropZeroSign]
    exact (HeuristicEvolution.bestScore_mem (hbest ▸ hb)).2 y hy

/-- **The summary of a call describes what the call did to the ledger.** -/
theorem summary_tells_growth (lab : Laboratory σ) (runId now : String) (settings : Settings)
    (start stop : Nat) (checkout : Option Checkout) (s s' : State σ) (summary : Summary)
    (h : evolve lab runId now settings start stop checkout s = .ok summary s') :
    ∃ added, summary.Tells runId start stop settings.samples s.ledger s'.ledger added := by
  rw [evolve_eq] at h
  cases hnoted : s.ledger.recordInvocation (noteOf lab runId settings start stop checkout) with
  | error e =>
    rw [hnoted] at h
    exact nomatch h
  | ok l =>
    rw [hnoted] at h
    obtain ⟨-, rfl⟩ := Ledger.recordInvocation_eq_ok_iff.mp hnoted
    have hfilled := hasCandidate_of_visitAll h
    obtain ⟨new, passed, hledger, -, hslots, hlength, rfl⟩ :=
      adds_of_visitAll (nodup_slots start stop settings.samples) h
    rw [length_slots] at hlength
    have hrows : s'.ledger.rows =
        s.ledger.rows ++ Ledger.rowsFrom s.ledger.nextId runId now new := by
      rw [hledger]
      rfl
    exact ⟨_, tells_of_adds hrows hslots hlength hfilled⟩

/-- Of three slots one was filled before, one is filled by a record without code, and one by a
record that was built and measured. -/
theorem summary_tells_growth_scripted :
    let row : Row :=
      { id := 1, runId := "sort_0", iter := 0, sample := 0, finalCode := some "code",
        buildStatus := some true, execStatus := some true, score := some 2, results := .absent,
        logs := .absent, revisions := .absent, parentIds := .absent, parentCodes := .absent,
        recordedAt := "" }
    let lab := Script.laboratory Script.repairPrompt
    let settings : Settings := ⟨3, 1, 2, .standard⟩
    let s : State Script :=
      ⟨{ runs := [⟨"sort_0", "sort", "scripted", "", .null⟩], invocations := [], rows := [row],
         nextId := 2 },
        { replies := [.text "no", .text "\x60\x60\x60c\nv3\n\x60\x60\x60"] }⟩
    ∃ summary s' added, evolve lab "sort_0" "" settings 0 1 none s = .ok summary s' ∧
      summary.Tells "sort_0" 0 1 3 s.ledger s'.ledger added ∧
      (summary.recorded, summary.skipped, summary.built, summary.evaluated) = (2, 1, 1, 1) := by
  intro row lab settings s
  have hcounts : (EStateM.run' (evolve lab "sort_0" "" settings 0 1 none) s).map
      (fun t => (t.recorded, t.skipped, t.built, t.evaluated)) = some (2, 1, 1, 1) := by
    decide +kernel
  rw [EStateM.run', EStateM.run] at hcounts
  cases h : evolve lab "sort_0" "" settings 0 1 none s with
  | error e s' =>
    rw [h] at hcounts
    exact nomatch hcounts
  | ok summary s' =>
    rw [h] at hcounts
    obtain ⟨added, htells⟩ :=
      summary_tells_growth lab "sort_0" "" settings 0 1 none s s' summary h
    exact ⟨summary, s', added, rfl, htells, Option.some.inj hcounts⟩

end Evolution

end HeuristicEvolution

import HeuristicEvolution.Proofs.Evolution.Passes
import Mathlib.Data.List.Pairwise
import Mathlib.Data.List.Nodup

/-!
# The order of slots

A call visits the slots of its range in lexicographic order, each of them once. What a call has
done when it stops is therefore told by the slot at which it stops. This module states the order
without the loops that make it, so that results about calls can be read without them.

## Main definitions

* `Slot.Before`, `Slot.Within`: the order of slots, and the slots of a range.
* `Candidate.slot`: the slot of a record.

## Main results

* `Evolution.mem_slots_iff`, `Evolution.pairwise_slots`, `Evolution.nodup_slots`
* `Evolution.mem_left_iff`: the slots before a given one.
* `Evolution.slots_append`: a range is taken in two pieces.
-/

namespace HeuristicEvolution

/-- The first slot is visited before the second one. -/
def Slot.Before (x y : Slot) : Prop := x.iter < y.iter ∨ (x.iter = y.iter ∧ x.sample < y.sample)

/-- The slot belongs to the iterations from `start` to before `stop`, with so many samples each. -/
def Slot.Within (start stop samples : Nat) (x : Slot) : Prop :=
  start ≤ x.iter ∧ x.iter < stop ∧ x.sample < samples

/-- The slot that a record is for. -/
def Candidate.slot (c : Candidate) : Slot := ⟨c.iter, c.sample⟩

theorem Slot.Before.asymm {x y : Slot} (h : x.Before y) : ¬ y.Before x := by
  unfold Slot.Before at *
  omega

theorem Slot.Before.ne {x y : Slot} (h : x.Before y) : x ≠ y := by
  rintro rfl
  exact h.asymm h

namespace Evolution

variable {start stop samples : Nat} {x : Slot}

theorem mem_slotsOf_iff {iter : Nat} :
    x ∈ slotsOf iter samples ↔ x.iter = iter ∧ x.sample < samples := by
  obtain ⟨i, j⟩ := x
  simp [slotsOf, and_comm, eq_comm]

theorem mem_slots_iff : x ∈ slots start stop samples ↔ x.Within start stop samples := by
  simp only [slots, List.mem_flatMap, List.mem_range'_1, mem_slotsOf_iff, Slot.Within]
  constructor
  · rintro ⟨iter, ⟨hstart, hstop⟩, rfl, hsample⟩
    exact ⟨hstart, by omega, hsample⟩
  · rintro ⟨hstart, hstop, hsample⟩
    exact ⟨x.iter, ⟨hstart, by omega⟩, rfl, hsample⟩

/-- **A call visits its slots in order.** -/
theorem pairwise_slots (start stop samples : Nat) :
    (slots start stop samples).Pairwise Slot.Before := by
  rw [slots, List.pairwise_flatMap]
  constructor
  · intro iter _
    exact List.pairwise_map.mpr (List.pairwise_lt_range.imp fun hlt => .inr ⟨rfl, hlt⟩)
  · refine (List.pairwise_lt_range' 1).imp fun hlt x hx y hy => .inl ?_
    rwa [(mem_slotsOf_iff.mp hx).1, (mem_slotsOf_iff.mp hy).1]

theorem nodup_slots (start stop samples : Nat) : (slots start stop samples).Nodup :=
  (pairwise_slots start stop samples).imp Slot.Before.ne

theorem length_slots (start stop samples : Nat) :
    (slots start stop samples).length = (stop - start) * samples := by
  simp [slots, slotsOf, List.length_flatMap]

/-- The slots of a range that a call visits before a given one. -/
theorem mem_left_iff {left right : List Slot} {slot : Slot}
    (h : slots start stop samples = left ++ slot :: right) :
    x ∈ left ↔ x.Within start stop samples ∧ x.Before slot := by
  have hpair := pairwise_slots start stop samples
  rw [h, List.pairwise_append] at hpair
  obtain ⟨-, hright, hleft⟩ := hpair
  rw [← mem_slots_iff, h, List.mem_append, List.mem_cons]
  constructor
  · exact fun hx => ⟨.inl hx, hleft x hx slot List.mem_cons_self⟩
  · rintro ⟨hx | rfl | hx, hbefore⟩
    · exact hx
    · exact absurd rfl hbefore.ne
    · exact absurd hbefore (List.rel_of_pairwise_cons hright hx).asymm

/-- A range is taken in two pieces. -/
theorem slots_append {mid : Nat} (samples : Nat) (hstart : start ≤ mid) (hstop : mid ≤ stop) :
    slots start stop samples = slots start mid samples ++ slots mid stop samples := by
  have hcount : stop - start = (mid - start) + (stop - mid) := by omega
  have hmid : mid = start + (mid - start) := by omega
  rw [slots, slots, slots, ← List.flatMap_append, hcount, ← List.range'_append_1, ← hmid]

/-- The first iteration of a range, and the others. -/
theorem slots_eq_cons (samples : Nat) (h : start < stop) :
    slots start stop samples = slotsOf start samples ++ slots (start + 1) stop samples := by
  have hcount : stop - start = (stop - (start + 1)) + 1 := by omega
  rw [slots, hcount, List.range'_succ, List.flatMap_cons, slots]

end Evolution

end HeuristicEvolution

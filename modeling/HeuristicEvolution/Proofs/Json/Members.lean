import HeuristicEvolution.Json.Basic
import Mathlib.Data.List.Induction
import Mathlib.Data.String.Basic

/-!
# Members and their order

An object is a list of members, and what a name stands for in it is its first member of that name.
An object that is made by `ofMembers` has its members in ascending order, so each of its names
stands there once, and whatever was in the members that it was made of is found in it.

A value is put into order as a whole: the members of each object in it. That changes no value that
is in order to begin with, and nothing that is found under a name but for the order within it.

## Main definitions

* `Json.Ascending`: members in ascending order.

## Main results

* `Json.get?_ofMembers`: ordering the members of an object does not change what it holds.
* `Json.exists_ofMembers`, `Json.ofMembers_eq_self`
* `Json.get?_sorted_obj`, `Json.sorted_sorted`
-/

namespace HeuristicEvolution.Json

variable {name : String} {ms : List (String × Json)}

/-! ## Names -/

theorem lookup_eq_none_iff : lookup name ms = none ↔ name ∉ ms.map Prod.fst := by
  induction ms with
  | nil => simp [lookup]
  | cons m rest ih =>
    obtain ⟨k, v⟩ := m
    rw [lookup]
    split
    · next h => simp [h]
    · next h => simp [ih, Ne.symm h]

theorem mem_of_lookup {v : Json} (h : lookup name ms = some v) : (name, v) ∈ ms := by
  induction ms with
  | nil => exact nomatch h
  | cons m rest ih =>
    obtain ⟨k, u⟩ := m
    rw [lookup] at h
    split at h
    · next hk =>
      obtain rfl := Option.some.inj h
      rw [hk]
      exact List.mem_cons_self
    · exact List.mem_cons_of_mem _ (ih h)

/-- Of the members that are put in, the last one of a name counts. -/
theorem lookup_foldl_insertMember (ms ns : List (String × Json)) :
    lookup name (ns.foldl (fun ms (k, v) => insertMember k v ms) ms)
      = (lookup name ns.reverse).or (lookup name ms) := by
  induction ns using List.reverseRecOn with
  | nil => rfl
  | append_singleton rest m ih =>
    obtain ⟨k, v⟩ := m
    rw [List.foldl_append, List.foldl_cons, List.foldl_nil, List.reverse_append,
      List.reverse_singleton, List.singleton_append, lookup]
    by_cases hk : k = name
    · subst hk
      rw [if_pos rfl, lookup_insertMember_self, Option.some_or]
    · rw [if_neg hk, lookup_insertMember_of_ne (Ne.symm hk), ih]

/-- Where names are distinct, a member is found from either end. -/
theorem lookup_reverse (h : (ms.map Prod.fst).Nodup) : lookup name ms.reverse = lookup name ms := by
  have happend : ∀ xs ys : List (String × Json),
      lookup name (xs ++ ys) = (lookup name xs).or (lookup name ys) := by
    intro xs ys
    induction xs with
    | nil => rfl
    | cons m rest ih =>
      obtain ⟨k, v⟩ := m
      rw [List.cons_append, lookup, lookup]
      split
      · rfl
      · exact ih
  induction ms with
  | nil => rfl
  | cons m rest ih =>
    obtain ⟨k, v⟩ := m
    rw [List.map_cons, List.nodup_cons] at h
    rw [List.reverse_cons, happend, ih h.2]
    by_cases hk : k = name
    · subst hk
      simp only [lookup_eq_none_iff.mpr h.1, lookup, if_true, Option.none_or]
    · simp only [lookup, if_neg hk, Option.or_none]

/-- **Ordering the members** of an object does not change what it holds. -/
theorem get?_ofMembers (h : (ms.map Prod.fst).Nodup) :
    (ofMembers ms).get? name = lookup name ms := by
  rw [ofMembers, get?, lookup_foldl_insertMember, lookup_reverse h, lookup, Option.or_none]

/-! ## Members in ascending order -/

/-- The members are in ascending order of their names. -/
def Ascending (ms : List (String × Json)) : Prop := ms.Pairwise fun a b => a.1 < b.1

/-- Such members have distinct names. -/
theorem Ascending.nodup (h : Ascending ms) : (ms.map Prod.fst).Nodup :=
  List.pairwise_map.mpr (h.imp fun hlt => ne_of_lt hlt)

/-- Putting a member in adds this member at most. -/
theorem mem_insertMember {value : Json} {m : String × Json} (h : m ∈ insertMember name value ms) :
    m = (name, value) ∨ m ∈ ms := by
  induction ms with
  | nil => simp_all [insertMember]
  | cons first rest ih =>
    rw [insertMember] at h
    split at h
    · rcases List.mem_cons.mp h with rfl | hm
      · exact .inl rfl
      · exact .inr hm
    · split at h
      · rcases List.mem_cons.mp h with rfl | hm
        · exact .inl rfl
        · exact .inr (List.mem_cons_of_mem _ hm)
      · rcases List.mem_cons.mp h with rfl | hm
        · exact .inr List.mem_cons_self
        · exact (ih hm).imp_right (List.mem_cons_of_mem _)

/-- A member that is put in comes after all of smaller names. -/
theorem ascending_insertMember (value : Json) (h : Ascending ms) :
    Ascending (insertMember name value ms) := by
  induction ms with
  | nil => exact List.pairwise_singleton ..
  | cons m rest ih =>
    obtain ⟨k, v⟩ := m
    obtain ⟨hfirst, hrest⟩ := List.pairwise_cons.mp h
    rw [insertMember]
    split
    · next hlt =>
      refine List.pairwise_cons.mpr ⟨fun m hm => ?_, h⟩
      rcases List.mem_cons.mp hm with rfl | hm
      · exact hlt
      · exact hlt.trans (hfirst m hm)
    · next hnlt =>
      split
      · next heq =>
        subst heq
        exact List.pairwise_cons.mpr ⟨hfirst, hrest⟩
      · next hne =>
        refine List.pairwise_cons.mpr ⟨fun m hm => ?_, ih hrest⟩
        rcases mem_insertMember hm with rfl | hm
        · exact lt_of_le_of_ne (not_lt.mp hnlt) hne
        · exact hfirst m hm

theorem ascending_foldl_insertMember (h : Ascending ms) (ns : List (String × Json)) :
    Ascending (ns.foldl (fun ms (k, v) => insertMember k v ms) ms) := by
  induction ns generalizing ms with
  | nil => exact h
  | cons m rest ih => exact ih (ascending_insertMember m.2 h)

theorem mem_foldl_insertMember {m : String × Json} {ns : List (String × Json)}
    (h : m ∈ ns.foldl (fun ms (k, v) => insertMember k v ms) ms) : m ∈ ns ∨ m ∈ ms := by
  induction ns generalizing ms with
  | nil => exact .inr h
  | cons first rest ih =>
    rcases ih h with hm | hm
    · exact .inl (List.mem_cons_of_mem _ hm)
    · rcases mem_insertMember hm with rfl | hm
      · exact .inl List.mem_cons_self
      · exact .inr hm

/-- **An object that is made of members** has some of them, in ascending order. -/
theorem exists_ofMembers (ms : List (String × Json)) :
    ∃ ns, ofMembers ms = .obj ns ∧ Ascending ns ∧ ns ⊆ ms :=
  ⟨_, rfl, ascending_foldl_insertMember .nil ms,
    fun _ hm => (mem_foldl_insertMember hm).resolve_right List.not_mem_nil⟩

/-- A member with a greater name than all others comes last. -/
theorem insertMember_of_lt (h : ∀ m ∈ ms, m.1 < name) (value : Json) :
    insertMember name value ms = ms ++ [(name, value)] := by
  induction ms with
  | nil => rfl
  | cons m rest ih =>
    obtain ⟨k, v⟩ := m
    obtain ⟨hfirst, hrest⟩ := List.forall_mem_cons.mp h
    have hlt : k < name := hfirst
    rw [insertMember, if_neg (not_lt.mpr (le_of_lt hlt)), if_neg (ne_of_lt hlt), ih hrest,
      List.cons_append]

theorem ofMembers_eq_self (h : Ascending ms) : ofMembers ms = .obj ms := by
  induction ms using List.reverseRecOn with
  | nil => rfl
  | append_singleton rest m ih =>
    obtain ⟨hrest, -, hlast⟩ := List.pairwise_append.mp h
    have hfold := Json.obj.inj (ih hrest)
    have hlate : ∀ other ∈ rest, other.1 < m.1 := fun other hother => hlast other hother m (by simp)
    rw [ofMembers, List.foldl_append, hfold]
    exact congrArg Json.obj (insertMember_of_lt hlate m.2)

/-! ## Values in order -/

theorem sortedElems_eq_map (xs : List Json) : sortedElems xs = xs.map sorted := by
  induction xs with
  | nil => rfl
  | cons x rest ih => rw [sortedElems, ih, List.map_cons]

theorem sortedMembers_eq_map (ms : List (String × Json)) :
    sortedMembers ms = ms.map fun m => (m.1, m.2.sorted) := by
  induction ms with
  | nil => rfl
  | cons m rest ih =>
    obtain ⟨k, v⟩ := m
    rw [sortedMembers, ih, List.map_cons]

theorem names_sortedMembers (ms : List (String × Json)) :
    (sortedMembers ms).map Prod.fst = ms.map Prod.fst := by
  rw [sortedMembers_eq_map, List.map_map]
  rfl

theorem lookup_sortedMembers (name : String) (ms : List (String × Json)) :
    lookup name (sortedMembers ms) = (lookup name ms).map sorted := by
  induction ms with
  | nil => rfl
  | cons m rest ih =>
    obtain ⟨k, v⟩ := m
    simp only [sortedMembers, lookup]
    split
    · rfl
    · exact ih

theorem mem_sortedMembers {m : String × Json} (h : m ∈ sortedMembers ms) :
    ∃ v, (m.1, v) ∈ ms ∧ m.2 = v.sorted := by
  rw [sortedMembers_eq_map] at h
  obtain ⟨⟨k, v⟩, hmem, rfl⟩ := List.mem_map.mp h
  exact ⟨v, hmem, rfl⟩

/-- An array of values without members stays as it is. -/
theorem sorted_arr_map {α : Type} {write : α → Json} (h : ∀ a, (write a).sorted = write a)
    (xs : List α) : (arr (xs.map write)).sorted = .arr (xs.map write) := by
  rw [sorted, sortedElems_eq_map, List.map_map]
  exact congrArg arr (List.map_congr_left fun a _ => h a)

theorem sorted_ofTexts (xs : List String) : (ofTexts xs).sorted = .ofTexts xs :=
  sorted_arr_map (fun _ => rfl) xs

/-- A member of an object that was put into order is the member, put into order. -/
theorem get?_sorted_obj (h : (ms.map Prod.fst).Nodup) (name : String) :
    (obj ms).sorted.get? name = (lookup name ms).map sorted := by
  rw [sorted, get?_ofMembers ((names_sortedMembers ms).symm ▸ h), lookup_sortedMembers]

/-- An object that is made of values in order is in order. -/
theorem sorted_ofMembers (h : ∀ m ∈ ms, m.2.sorted = m.2) :
    (ofMembers ms).sorted = ofMembers ms := by
  obtain ⟨ns, hns, hascend, hsubset⟩ := exists_ofMembers ms
  have hvalues : sortedMembers ns = ns :=
    calc sortedMembers ns = ns.map fun m => (m.1, m.2.sorted) := sortedMembers_eq_map ns
      _ = ns.map id := List.map_congr_left fun m hm => by rw [h m (hsubset hm), id_eq]
      _ = ns := List.map_id ns
  rw [hns, sorted, hvalues, ofMembers_eq_self hascend]

mutual

/-- **What was put into order stays as it is.** -/
theorem sorted_sorted : (j : Json) → j.sorted.sorted = j.sorted
  | .null | .bool _ | .int _ | .float _ | .str _ => rfl
  | .arr xs => by rw [sorted, sorted, sortedElems_sortedElems xs]
  | .obj ms => sorted_ofMembers (sorted_of_mem_sortedMembers ms)

theorem sortedElems_sortedElems : (xs : List Json) → sortedElems (sortedElems xs) = sortedElems xs
  | [] => rfl
  | x :: rest => by
    rw [sortedElems, sortedElems, sorted_sorted x, sortedElems_sortedElems rest]

theorem sorted_of_mem_sortedMembers :
    (ms : List (String × Json)) → ∀ m ∈ sortedMembers ms, m.2.sorted = m.2
  | [] => nofun
  | (_, v) :: rest =>
    List.forall_mem_cons.mpr ⟨sorted_sorted v, sorted_of_mem_sortedMembers rest⟩

end

end HeuristicEvolution.Json

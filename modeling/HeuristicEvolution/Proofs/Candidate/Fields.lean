import HeuristicEvolution.Proofs.Candidate.Encoding
import HeuristicEvolution.Proofs.Json.Members
import Mathlib.Data.List.Forall2
import Mathlib.Logic.Function.Basic

/-!
# Structures are read by their fields

A structure is read from the members of an object, each by its name. So a reader cannot tell two
objects apart that agree on the fields, whatever else stands in them, and in whichever order.

## The distinction that matters

Two changes of an object are met in practice, and neither touches what is in a field. Members with
unknown names may be added, also inside the structures that stand in fields; and members may be put
into ascending order. They are different relations between values, but for a reader both come down
to one, agreement on the fields (`Agree`). What is related in a field is left open there: most
fields hold the same value before and after, and a field with a structure in it holds values that
the reader of that structure cannot tell apart.

## Main definitions

* `Json.Alike`, `Json.Agree`: two lists of members agree on the fields of a structure.
* `Json.Padded`: unknown members were added to an object, and within its fields.

## Main results

* `Json.Alike.lookup_eq`, `Json.Alike.bind_within`: a field is read alike.
* `Json.MembersPadded.agree`, `Json.agree_sorted`: the two changes keep the fields.
-/

namespace HeuristicEvolution.Json

variable {names : List String} {part part' : String → Json → Json → Prop}
  {ms ns : List (String × Json)} {name field : String} {α : Type}

/-! ## What is in a field -/

/-- Values in one field are related by `R`, and in all others they are the same. -/
def within (field : String) (R : Json → Json → Prop) : String → Json → Json → Prop :=
  Function.update (fun _ => Eq) field R

@[simp] theorem within_self (field : String) (R : Json → Json → Prop) :
    within field R field = R := Function.update_self ..

theorem within_of_ne (h : name ≠ field) (R : Json → Json → Prop) : within field R name = Eq :=
  Function.update_of_ne h ..

theorem within_mono {R S : Json → Json → Prop} (h : ∀ v w, R v w → S v w) (name : String)
    (v w : Json) (hvw : within field R name v w) : within field S name v w := by
  by_cases hname : name = field
  · subst hname
    rw [within_self] at hvw ⊢
    exact h v w hvw
  · rwa [within_of_ne hname] at hvw ⊢

theorem within_refl {R : Json → Json → Prop} (h : ∀ v, R v v) (name : String) (v : Json) :
    within field R name v v := by
  by_cases hname : name = field
  · rw [hname, within_self]
    exact h v
  · rw [within_of_ne hname]

/-- A reader cannot tell the two values apart. -/
def ReadAlike (read : Json → Option α) (v w : Json) : Prop := read w = read v

@[simp] theorem readAlike_refl (read : Json → Option α) (v : Json) : ReadAlike read v v := rfl

/-- An optional field is written as `null` or left out if it is absent, which reads the same. -/
theorem optional_eq_some {read : Json → Option α} (write : α → Json) {a? : Option α}
    (hlookup : (lookup name ms).getD .null = (a?.map write).getD .null)
    (hread : ∀ a ∈ a?, write a ≠ .null ∧ read (write a) = some a) :
    optional ms name read = some a? := by
  cases a? with
  | none =>
    rw [Option.map_none, Option.getD_none] at hlookup
    cases hfound : lookup name ms with
    | none => rw [optional, hfound]
    | some v =>
      obtain rfl : v = .null := by simpa [hfound] using hlookup
      rw [optional, hfound]
  | some a =>
    obtain ⟨hnull, hread⟩ := hread a rfl
    rw [Option.map_some, Option.getD_some] at hlookup
    cases hfound : lookup name ms with
    | none => exact absurd (by simpa [hfound] using hlookup.symm) hnull
    | some v =>
      obtain rfl : v = write a := by simpa [hfound] using hlookup
      rw [optional, hfound]
      cases hwritten : write a with
      | null => exact absurd hwritten hnull
      | _ => simp only [← hwritten, hread, Option.map_some]

theorem optional_ofText? {text? : Option String} (h : lookup name ms = some (.ofText? text?)) :
    optional ms name str? = some text? := by
  refine optional_eq_some .str ?_ fun _ _ => ⟨nofun, rfl⟩
  rw [h]
  cases text? <;> rfl

theorem optional_ofBool? {b? : Option Bool} (h : lookup name ms = some (.ofBool? b?)) :
    optional ms name bool? = some b? := by
  refine optional_eq_some .bool ?_ fun _ _ => ⟨nofun, rfl⟩
  rw [h]
  cases b? <;> rfl

/-- A value that may be absent is read as it was, unless it is `null`. -/
theorem optional_value {j? : Option Json} (h : lookup name ms = some (j?.getD .null))
    (hnull : j? ≠ some .null) : optional ms name some = some j? := by
  refine optional_eq_some id ?_ fun v hv => ⟨fun heq => hnull (heq ▸ hv), rfl⟩
  rw [h, Option.map_id, id_eq, Option.getD_some]

/-- A list is read alike if its elements are. -/
theorem listOf?_congr {read : Json → Option α} {xs ys : List Json}
    (h : List.Forall₂ (ReadAlike read) xs ys) :
    ReadAlike (listOf? read) (.arr xs) (.arr ys) := by
  simp only [ReadAlike, listOf?]
  induction h with
  | nil => rfl
  | cons hfirst _ ih => rw [List.mapM_cons, List.mapM_cons, hfirst, ih]

/-! ## Agreement on fields -/

/-- In each field there is nothing here and there, or what is in it is related as `part` says. -/
def Alike (names : List String) (part : String → Json → Json → Prop)
    (ms ns : List (String × Json)) : Prop :=
  ∀ name ∈ names, Option.Rel (part name) (lookup name ms) (lookup name ns)

/-- The members agree on the fields of a structure. Whether a field is named twice is a matter of
the fields as well, since then the structure is not read at all. -/
structure Agree (names : List String) (part : String → Json → Json → Prop)
    (ms ns : List (String × Json)) : Prop where
  distinct : fieldsDistinct names ns = fieldsDistinct names ms
  alike : Alike names part ms ns

namespace Alike

theorem lookup_eq (h : Alike names part ms ns) (hname : name ∈ names) (hpart : part name = Eq) :
    lookup name ns = lookup name ms := by
  have hfield := h name hname
  rw [hpart] at hfield
  generalize lookup name ms = before, lookup name ns = after at hfield ⊢
  cases hfield with
  | some hvw => rw [hvw]
  | none => rfl

/-- All fields but one hold the same values. -/
theorem lookup_within {R : Json → Json → Prop} (h : Alike names (within field R) ms ns) :
    ∀ name ∈ names, name ≠ field → lookup name ns = lookup name ms :=
  fun _ hname hne => h.lookup_eq hname (within_of_ne hne R)

/-- The one field is read alike by a reader that cannot tell its values apart. -/
theorem bind_within {read : Json → Option α} (h : Alike names (within field (ReadAlike read)) ms ns)
    (hfield : field ∈ names) : (lookup field ns).bind read = (lookup field ms).bind read := by
  have hvalues := h field hfield
  rw [within_self] at hvalues
  generalize lookup field ms = before, lookup field ns = after at hvalues ⊢
  cases hvalues with
  | some hvw => exact hvw
  | none => rfl

theorem isSome_eq (h : Alike names part ms ns) (hname : name ∈ names) :
    (lookup name ns).isSome = (lookup name ms).isSome := by
  have hfield := h name hname
  generalize lookup name ms = before, lookup name ns = after at hfield ⊢
  cases hfield <;> rfl

end Alike

/-- The structure is read alike if that holds of what is made of its fields. -/
theorem Agree.structure?_bind (h : Agree names part ms ns) (missing : Nat)
    {make : List (String × Json) → Option α} (hmake : make ns = make ms) :
    (structure? names missing (.obj ns)).bind make
      = (structure? names missing (.obj ms)).bind make := by
  rw [structure?, structure?, h.distinct]
  split
  · exact hmake
  · rfl

/-! ## Members that were added -/

/-- The second members are the first ones and, anywhere between them, members whose names are none
of the fields. What is in a field may have changed as `part` says. -/
inductive MembersPadded (names : List String) (part : String → Json → Json → Prop) :
    List (String × Json) → List (String × Json) → Prop
  | nil : MembersPadded names part [] []
  | kept {k : String} {v w : Json} {ms ns : List (String × Json)} :
    part k v w → MembersPadded names part ms ns →
      MembersPadded names part ((k, v) :: ms) ((k, w) :: ns)
  | added {k : String} {v : Json} {ms ns : List (String × Json)} :
    k ∉ names → MembersPadded names part ms ns → MembersPadded names part ms ((k, v) :: ns)

/-- Unknown members were added to a structure with the given fields, if it is an object, and within
its fields as `part` says. -/
inductive Padded (names : List String) (part : String → Json → Json → Prop) : Json → Json → Prop
  | same (j : Json) : Padded names part j j
  | object {ms ns : List (String × Json)} :
    MembersPadded names part ms ns → Padded names part (.obj ms) (.obj ns)

/-- Unknown members were added within the elements of an array, as `R` says. -/
inductive ElementsPadded (R : Json → Json → Prop) : Json → Json → Prop
  | same (j : Json) : ElementsPadded R j j
  | array {xs ys : List Json} : List.Forall₂ R xs ys → ElementsPadded R (.arr xs) (.arr ys)

/-- Nothing has to be added. -/
theorem MembersPadded.refl (hpart : ∀ name v, part name v v) (ms : List (String × Json)) :
    MembersPadded names part ms ms := by
  induction ms with
  | nil => exact .nil
  | cons m rest ih => exact .kept (hpart m.1 m.2) ih

/-- It is enough to change one field. -/
theorem MembersPadded.inside {R : Json → Json → Prop} {v w : Json} (hrefl : ∀ v, R v v)
    (hvw : R v w) (rest before : List (String × Json)) :
    MembersPadded names (within field R) (before ++ (field, v) :: rest)
      (before ++ (field, w) :: rest) := by
  induction before with
  | nil => exact .kept (by rwa [within_self]) (.refl (within_refl hrefl) rest)
  | cons m before ih => exact .kept (within_refl hrefl m.1 m.2) ih

theorem any_eq_isSome_lookup (name : String) (ms : List (String × Json)) :
    (ms.any fun m => m.1 == name) = (lookup name ms).isSome := by
  induction ms with
  | nil => rfl
  | cons m rest ih =>
    obtain ⟨k, v⟩ := m
    rw [List.any_cons, lookup, ih]
    by_cases hk : k = name
    · simp [hk]
    · simp [hk]

/-- **Members with unknown names** leave the fields as they are. -/
theorem MembersPadded.agree (h : MembersPadded names part ms ns)
    (hpart : ∀ name v w, part name v w → part' name v w) : Agree names part' ms ns := by
  induction h with
  | nil => exact ⟨rfl, fun _ _ => .none⟩
  | @kept k v w ms ns hvw _ ih =>
    have hnamed : (names.contains k && ns.any fun m => m.1 == k)
        = (names.contains k && ms.any fun m => m.1 == k) := by
      by_cases hk : k ∈ names
      · rw [any_eq_isSome_lookup, any_eq_isSome_lookup, ih.alike.isSome_eq hk]
      · simp [hk]
    refine ⟨by rw [fieldsDistinct, fieldsDistinct, hnamed, ih.distinct], fun name hname => ?_⟩
    rw [lookup, lookup]
    split
    · next hk => exact .some (hk ▸ hpart k v w hvw)
    · exact ih.alike name hname
  | @added k v ms ns hk _ ih =>
    have hunnamed : names.contains k = false := by simpa using hk
    refine ⟨by rw [fieldsDistinct, hunnamed, ← ih.distinct]; simp, fun name hname => ?_⟩
    have hne : k ≠ name := fun heq => hk (heq ▸ hname)
    rw [lookup, if_neg hne]
    exact ih.alike name hname

/-- A structure that is read by its fields is read alike when unknown members are added to it, if
that holds of what is in its fields. -/
theorem Padded.readAlike {read : Json → Option α} {j j' : Json}
    (hread : ∀ {ms ns}, Agree names part' ms ns → ReadAlike read (.obj ms) (.obj ns))
    (hpart : ∀ name v w, part name v w → part' name v w) (h : Padded names part j j') :
    ReadAlike read j j' := by
  cases h with
  | same => rfl
  | object h => exact hread (h.agree hpart)

theorem ElementsPadded.readAlike {read : Json → Option α} {R : Json → Json → Prop} {j j' : Json}
    (hread : ∀ {v w}, R v w → ReadAlike read v w) (h : ElementsPadded R j j') :
    ReadAlike (listOf? read) j j' := by
  cases h with
  | same => rfl
  | array h => exact listOf?_congr (h.imp fun _ _ => hread)

/-! ## Members that were put into order -/

/-- Where all names differ, so do those of the fields. -/
theorem fieldsDistinct_of_nodup (names : List String) (h : (ms.map Prod.fst).Nodup) :
    fieldsDistinct names ms = true := by
  induction ms with
  | nil => rfl
  | cons m rest ih =>
    obtain ⟨k, v⟩ := m
    rw [List.map_cons, List.nodup_cons] at h
    rw [fieldsDistinct, any_eq_isSome_lookup, lookup_eq_none_iff.mpr h.1, ih h.2]
    simp

/-- **Members that are put into order** leave the fields as they are, but for the order within their
values. -/
theorem agree_sorted (hnodup : (ms.map Prod.fst).Nodup)
    (hpart : ∀ m ∈ ms, part m.1 m.2 m.2.sorted) :
    ∃ ns, (obj ms).sorted = .obj ns ∧ Agree names part ms ns := by
  obtain ⟨ns, hns, hascend, -⟩ := exists_ofMembers (sortedMembers ms)
  have hsorted : (obj ms).sorted = .obj ns := by rw [sorted, hns]
  have hlookup : ∀ name, lookup name ns = (lookup name ms).map sorted := fun name => by
    have hget := get?_sorted_obj hnodup name
    rwa [hsorted] at hget
  refine ⟨ns, hsorted, ?_, fun name _ => ?_⟩
  · rw [fieldsDistinct_of_nodup names hascend.nodup, fieldsDistinct_of_nodup names hnodup]
  · rw [hlookup]
    cases hfound : lookup name ms with
    | none => exact .none
    | some v => exact .some (hpart (name, v) (mem_of_lookup hfound))

/-- A structure that is read by its fields is read alike when its members are put into order, if
that holds of what is in its fields. -/
theorem readAlike_sorted {read : Json → Option α}
    (hread : ∀ {ms ns}, Agree names part ms ns → ReadAlike read (.obj ms) (.obj ns))
    (hnodup : (ms.map Prod.fst).Nodup) (hpart : ∀ m ∈ ms, part m.1 m.2 m.2.sorted) :
    ReadAlike read (.obj ms) (obj ms).sorted := by
  obtain ⟨ns, hns, hagree⟩ : ∃ ns, (obj ms).sorted = .obj ns ∧ Agree names part ms ns :=
    agree_sorted hnodup hpart
  rw [hns]
  exact hread hagree

/-- A list is read alike when the members within its elements are put into order, if each of these
is. -/
theorem listOf?_sorted {read : Json → Option α} {xs : List Json}
    (h : ∀ x ∈ xs, ReadAlike read x x.sorted) :
    ReadAlike (listOf? read) (.arr xs) (arr xs).sorted := by
  rw [sorted, sortedElems_eq_map]
  exact listOf?_congr (List.forall₂_map_right_iff.mpr (List.forall₂_same.mpr h))

end HeuristicEvolution.Json

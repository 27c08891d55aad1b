import HeuristicEvolution.Ledger.Column
import HeuristicEvolution.Proofs.Json.Stored

/-!
# Values that come back as they were

A value that is kept as text comes back with its members in ascending order, and with the doubles
that the reader makes of the written digits. If its members are in ascending order to begin with, as
those of the format's library are, and if its doubles are among those that are read back, then it
comes back as it was. Nothing else can happen to a value that is read at all, which it is if it does
not nest too deep.

A column that is kept as text could still be taken for an empty one, if its text were blank. It
never is: the text of every value begins with a character that belongs to the value.

## Main definitions

* `Json.Lasting`: values that come back as they were, if they are read.
* `Json.ReadBack`: they are read.

## Main results

* `Json.asStored_eq_self`, `Json.sorted_eq_self`
* `Column.not_blank_of_value`: a column that is written is not taken for an empty one.
-/

namespace HeuristicEvolution

namespace Json

/-! ## Values that come back -/

mutual

/-- Within the value members are in ascending order, and doubles are finite and read back from the
text that is written of them. -/
def Lasting : Json → Prop
  | .float x => x.isFinite = true ∧ parseRaw? (atom (.float x)) = some (.float x)
  | .arr xs => LastingElems xs
  | .obj ms => Ascending ms ∧ LastingMembers ms
  | _ => True

/-- All elements are such values. -/
def LastingElems : List Json → Prop
  | [] => True
  | x :: rest => Lasting x ∧ LastingElems rest

/-- The values of all members are. -/
def LastingMembers : List (String × Json) → Prop
  | [] => True
  | (_, v) :: rest => Lasting v ∧ LastingMembers rest

end

/-- The value is read back as it was: it lasts, and is not too deep to be read. -/
structure ReadBack (j : Json) : Prop where
  lasting : j.Lasting
  depth_le : j.depth ≤ depthLimit

/-- The double is the one that is read from its text. -/
def readsBack (x : Float) : Bool :=
  match parseRaw? (atom (.float x)) with
  | some (.float y) => y.toBits == x.toBits
  | _ => false

/-- Whether a double lasts can be computed. -/
theorem lasting_float {x : Float} (hfinite : x.isFinite = true) (h : readsBack x = true) :
    (Json.float x).Lasting := by
  refine ⟨hfinite, ?_⟩
  rw [readsBack] at h
  split at h
  · next y hread =>
    have hbits : y.toBits = x.toBits := beq_iff_eq.mp h
    rw [hread, Binary.eq_of_toBits_eq hbits]
  · exact Bool.noConfusion h

mutual

/-- **Such a value comes back as it was.** -/
theorem asStored_eq_self : (j : Json) → j.Lasting → j.asStored = j
  | .null, _ | .bool _, _ | .int _, _ | .str _, _ => rfl
  | .float x, ⟨hfinite, hread⟩ => by
    show atomAsStored (.float x) = .float x
    rw [atomAsStored, if_pos hfinite, hread, Option.getD_some]
  | .arr xs, h => by rw [asStored, elemsAsStored_eq_self xs h]
  | .obj ms, ⟨hascend, h⟩ => by
    rw [asStored, membersAsStored_eq_self ms h, ofMembers_eq_self hascend]

theorem elemsAsStored_eq_self : (xs : List Json) → LastingElems xs → elemsAsStored xs = xs
  | [], _ => rfl
  | x :: rest, ⟨hfirst, hrest⟩ => by
    rw [elemsAsStored, asStored_eq_self x hfirst, elemsAsStored_eq_self rest hrest]

theorem membersAsStored_eq_self :
    (ms : List (String × Json)) → LastingMembers ms → membersAsStored ms = ms
  | [], _ => rfl
  | (k, v) :: rest, ⟨hfirst, hrest⟩ => by
    rw [membersAsStored, asStored_eq_self v hfirst, membersAsStored_eq_self rest hrest]

end

mutual

/-- Its members need no ordering. -/
theorem sorted_eq_self : (j : Json) → j.Lasting → j.sorted = j
  | .null, _ | .bool _, _ | .int _, _ | .float _, _ | .str _, _ => rfl
  | .arr xs, h => by rw [sorted, sortedElems_eq_self xs h]
  | .obj ms, ⟨hascend, h⟩ => by
    rw [sorted, sortedMembers_eq_self ms h, ofMembers_eq_self hascend]

theorem sortedElems_eq_self : (xs : List Json) → LastingElems xs → sortedElems xs = xs
  | [], _ => rfl
  | x :: rest, ⟨hfirst, hrest⟩ => by
    rw [sortedElems, sorted_eq_self x hfirst, sortedElems_eq_self rest hrest]

theorem sortedMembers_eq_self :
    (ms : List (String × Json)) → LastingMembers ms → sortedMembers ms = ms
  | [], _ => rfl
  | (k, v) :: rest, ⟨hfirst, hrest⟩ => by
    rw [sortedMembers, sorted_eq_self v hfirst, sortedMembers_eq_self rest hrest]

end

/-! ## The text of a value is not blank -/

/-- The text begins with a character that is not a blank. -/
def BeginsVisibly (s : String) : Prop := ∃ c rest, s.toList = c :: rest ∧ Text.isBlank c = false

theorem beginsVisibly_append {s : String} (h : BeginsVisibly s) (t : String) :
    BeginsVisibly (s ++ t) := by
  obtain ⟨c, rest, hs, hc⟩ := h
  exact ⟨c, rest ++ t.toList, by rw [String.toList_append, hs, List.cons_append], hc⟩

theorem beginsVisibly_number {s : String} (h : Decimal.BeginsLikeNumber s.toList) :
    BeginsVisibly s := by
  obtain ⟨c, rest, hs, hc⟩ := h
  refine ⟨c, rest, hs, ?_⟩
  rcases hc with hdigit | rfl | rfl | rfl
  · exact Text.isBlank_of_isDigit hdigit
  · decide
  · decide
  · decide

theorem beginsVisibly_int (i : Int) : BeginsVisibly (toString i) := by
  refine beginsVisibly_number ?_
  cases i with
  | ofNat n =>
    obtain ⟨c, rest, hcs, hdigit⟩ := Decimal.beginsWithDigit_repr n
    exact ⟨c, rest, hcs, .inl hdigit⟩
  | negSucc n => exact ⟨'-', (Nat.repr (n + 1)).toList, by simp [toString, Int.repr], by simp⟩

theorem beginsVisibly_quoted (s : String) : BeginsVisibly (quoted s) :=
  ⟨'"', s.toList.flatMap escape ++ ['"'], by simp [quoted], by decide⟩

/-- **The text of a value is not blank.** -/
theorem beginsVisibly_compact (j : Json) : BeginsVisibly j.compact := by
  cases j with
  | null => exact ⟨'n', ['u', 'l', 'l'], rfl, by decide⟩
  | bool b =>
    cases b with
    | false => exact ⟨'f', ['a', 'l', 's', 'e'], rfl, by decide⟩
    | true => exact ⟨'t', ['r', 'u', 'e'], rfl, by decide⟩
  | int i => exact beginsVisibly_int i
  | float x =>
    show BeginsVisibly (if x.isFinite then Decimal.dataStyle.write x else "null")
    split
    · exact beginsVisibly_number (Decimal.beginsLikeNumber_write _ x)
    · exact ⟨'n', ['u', 'l', 'l'], rfl, by decide⟩
  | str s => exact beginsVisibly_quoted s
  | arr xs =>
    have hopening : BeginsVisibly "[" := ⟨'[', [], rfl, by decide⟩
    exact beginsVisibly_append (beginsVisibly_append hopening (compactElems xs)) "]"
  | obj ms =>
    have hopening : BeginsVisibly "\x7b" := ⟨'\x7b', [], rfl, by decide⟩
    exact beginsVisibly_append (beginsVisibly_append hopening (compactMembers ms)) "\x7d"

/-- Such a text is not trimmed away. -/
theorem trimList_ne_nil_of_beginsVisibly {s : String} (h : BeginsVisibly s) :
    Text.trimList s.toList ≠ [] := by
  obtain ⟨c, rest, hs, hc⟩ := h
  have hstart : Text.trimStartList (c :: rest) = c :: rest :=
    List.dropWhile_cons_of_neg (by simp [hc])
  rw [hs, Text.trimList, hstart, Text.trimEndList]
  intro hempty
  have hblank : ∀ d ∈ (c :: rest).reverse, Text.isBlank d = true :=
    List.dropWhile_eq_nil_iff.mp (List.reverse_eq_nil_iff.mp hempty)
  have hfirst : Text.isBlank c = true := hblank c (by simp)
  rw [hc] at hfirst
  exact Bool.noConfusion hfirst

end Json

namespace Column

/-- **No column that is written is blank.** -/
theorem not_blank_of_value (j : Json) :
    ∀ s ∈ (value j).text?, Text.trimList s.toList ≠ [] := by
  intro s hs
  obtain rfl : j.compact = s := Option.some.inj hs
  exact Json.trimList_ne_nil_of_beginsVisibly (Json.beginsVisibly_compact j)

end Column

end HeuristicEvolution

import HeuristicEvolution.Candidate.Basic
import HeuristicEvolution.Json.Stored
import HeuristicEvolution.Proofs.Json.Finite
import HeuristicEvolution.Proofs.Json.Members

/-!
# Scores in values that were kept

A value that was kept as text and read again has its members in another order, and its doubles may
differ in the last digit, because the reader of the format is not exact. What is still true of its
score is shown here: there is one afterwards exactly if there was one before.

The only question is what a number can turn into. Its text begins with a digit or a sign, or spells
a double that is not finite, and a reader that sees such a text reads a number or nothing
(`number?_of_parseRaw?`). Members keep their values under reordering if no name is used twice; an
object in which a name is used twice is not a value of the format's library.

## Main definitions

* `Json.Proper`: values in which names are distinct and doubles finite.

## Main results

* `Json.isSome_scoreOf_asStored_sorted`
-/

namespace HeuristicEvolution

namespace Decimal

/-! ## How the text of a double begins -/

/-- The text begins with a digit. -/
def BeginsWithDigit (cs : List Char) : Prop := ∃ c rest, cs = c :: rest ∧ c.isDigit = true

theorem beginsWithDigit_positional (style : Style) {digits : List Char} (point : Int)
    (h : BeginsWithDigit digits) : BeginsWithDigit (style.positional digits point) := by
  obtain ⟨c, rest, rfl, hc⟩ := h
  rw [Style.positional]
  split
  · exact ⟨'0', _, rfl, rfl⟩
  · split
    · exact ⟨c, _, rfl, hc⟩
    · next hpos _ =>
      obtain ⟨n, hn⟩ : ∃ n, point.toNat = n + 1 := ⟨point.toNat - 1, by omega⟩
      rw [hn]
      exact ⟨c, _, rfl, hc⟩

theorem beginsWithDigit_scientific (style : Style) {digits : List Char} (exponent : Int)
    (h : BeginsWithDigit digits) : BeginsWithDigit (style.scientific digits exponent) := by
  obtain ⟨c, rest, rfl, hc⟩ := h
  exact ⟨c, _, rfl, hc⟩

theorem beginsWithDigit_repr (n : Nat) : BeginsWithDigit (Nat.repr n).toList := by
  have htext : (Nat.repr n).toList = Nat.toDigits 10 n := String.toList_ofList
  obtain ⟨c, rest, hcs⟩ := List.exists_cons_of_ne_nil (Nat.toDigits_ne_nil (n := n) (b := 10))
  refine ⟨c, rest, htext.trans hcs, ?_⟩
  exact Nat.isDigit_of_mem_toDigits (by decide) (by decide) (hcs ▸ List.mem_cons_self)

/-- A text that can be that of a double: it begins with a digit or a sign, or spells a double that
is not finite. -/
def BeginsLikeNumber (cs : List Char) : Prop :=
  ∃ c rest, cs = c :: rest ∧ (c.isDigit = true ∨ c = '-' ∨ c = 'N' ∨ c = 'i')

theorem beginsLikeNumber_write (style : Style) (x : Float) :
    BeginsLikeNumber (style.write x).toList := by
  have hdigit : ∀ cs, BeginsWithDigit cs → BeginsLikeNumber cs :=
    fun _ ⟨c, rest, hcs, hc⟩ => ⟨c, rest, hcs, .inl hc⟩
  rw [Style.write]
  split
  · split
    · exact ⟨'N', ['a', 'N'], by decide, by simp⟩
    · split
      · exact ⟨'-', ['i', 'n', 'f'], by decide, by simp⟩
      · exact ⟨'i', ['n', 'f'], by decide, by simp⟩
  · next v _ =>
    simp only [String.toList_ofList]
    split
    · exact ⟨'-', _, rfl, by simp⟩
    · refine hdigit _ ?_
      split
      · exact beginsWithDigit_positional style 1 ⟨'0', [], rfl, rfl⟩
      · split
        · exact beginsWithDigit_positional style _ (beginsWithDigit_repr _)
        · exact beginsWithDigit_scientific style _ (beginsWithDigit_repr _)

end Decimal

namespace Json

/-! ## What such a text is read as -/

/-- **A text that begins like a number is read as a number or not at all.** -/
theorem isSome_number?_of_valueAt {fuel depth : Nat} {cs rest : List Char} {v : Json}
    (hcs : Decimal.BeginsLikeNumber cs) (h : valueAt fuel depth cs = some (v, rest)) :
    v.number?.isSome = true := by
  obtain ⟨c, tail, rfl, hc⟩ := hcs
  have hne : ∀ d : Char, ¬ (d.isDigit = true ∨ d = '-' ∨ d = 'N' ∨ d = 'i') → c ≠ d := by
    rintro d hd rfl
    exact hd hc
  have hspace : isSpace c = false := by
    simp [isSpace, hne ' ' (by decide), hne '\n' (by decide), hne '\t' (by decide),
      hne '\r' (by decide)]
  have hskip : skipSpace (c :: tail) = c :: tail := by simp [skipSpace, hspace]
  cases fuel with
  | zero => exact nomatch h
  | succ fuel =>
    obtain hnumber | hopened := valueAt_cases h
    · obtain ⟨x, hx, -⟩ := finiteNumber_of_numberAt hnumber
      rw [hx, Option.isSome_some]
    · obtain ⟨d, hd, hhead⟩ := hopened.opener
      rw [hskip] at hhead
      obtain rfl := Option.some.inj hhead
      have hplain : ∀ d ∈ openers, ¬ (d.isDigit = true ∨ d = '-' ∨ d = 'N' ∨ d = 'i') := by
        simp [openers]
      exact absurd rfl (hne _ (hplain _ hd))

/-- The same of a whole text. -/
theorem isSome_number?_of_parseRaw? {s : String} {v : Json}
    (hs : Decimal.BeginsLikeNumber s.toList) (h : parseRaw? s = some v) :
    v.number?.isSome = true := by
  unfold parseRaw? at h
  simp only at h
  split at h
  · next w rest hvalue =>
    split at h
    · obtain rfl := Option.some.inj h
      exact isSome_number?_of_valueAt hs hvalue
    · exact nomatch h
  · exact nomatch h

/-! ## Proper values -/

mutual

/-- Within the value doubles are finite, and the members of each object have distinct names. All
values of the format's library are like this. -/
def Proper : Json → Prop
  | .float x => x.isFinite = true
  | .arr xs => ProperElems xs
  | .obj ms => (ms.map Prod.fst).Nodup ∧ ProperMembers ms
  | _ => True

/-- All elements are proper. -/
def ProperElems : List Json → Prop
  | [] => True
  | x :: rest => Proper x ∧ ProperElems rest

/-- The values of all members are proper. -/
def ProperMembers : List (String × Json) → Prop
  | [] => True
  | (_, v) :: rest => Proper v ∧ ProperMembers rest

end

theorem proper_of_lookup {name : String} {v : Json} {ms : List (String × Json)}
    (h : ProperMembers ms) (hv : lookup name ms = some v) : v.Proper := by
  induction ms with
  | nil => exact nomatch hv
  | cons m rest ih =>
    obtain ⟨k, w⟩ := m
    obtain ⟨hfirst, hrest⟩ := h
    rw [lookup] at hv
    split at hv
    · obtain rfl := Option.some.inj hv
      exact hfirst
    · exact ih hrest hv

/-! ## The score -/

theorem isSome_number?_iff {v : Json} :
    v.number?.isSome = true ↔ (∃ i, v = .int i) ∨ ∃ x, v = .float x := by
  cases v <;> simp [number?]

/-- A finite double comes back as a number. -/
theorem asStored_float {x : Float} (h : x.isFinite = true) :
    (∃ i, asStored (.float x) = .int i) ∨ ∃ y, asStored (.float x) = .float y := by
  have hstored : asStored (.float x)
      = (parseRaw? (Decimal.dataStyle.write x)).getD (.float x) := by
    simp only [asStored, atomAsStored, atom, h, if_true]
  rw [hstored]
  cases hread : parseRaw? (Decimal.dataStyle.write x) with
  | none => exact .inr ⟨x, rfl⟩
  | some v =>
    exact isSome_number?_iff.mp
      (isSome_number?_of_parseRaw? (Decimal.beginsLikeNumber_write _ x) hread)

/-- A value is a number after it was kept exactly if it was one before. -/
theorem isSome_number?_asStored_sorted {v : Json} (h : v.Proper) :
    v.asStored.sorted.number?.isSome = v.number?.isSome := by
  cases v with
  | float x => rcases asStored_float h with ⟨i, hi⟩ | ⟨y, hy⟩ <;> simp [*, sorted, number?]
  | obj ms => simp only [asStored, ofMembers, sorted, number?]
  | _ => simp only [asStored, atomAsStored, sorted, number?]

theorem names_membersAsStored (ms : List (String × Json)) :
    (membersAsStored ms).map Prod.fst = ms.map Prod.fst := by
  induction ms with
  | nil => rfl
  | cons m rest ih =>
    obtain ⟨k, v⟩ := m
    exact congrArg (k :: ·) ih

theorem lookup_membersAsStored (name : String) (ms : List (String × Json)) :
    lookup name (membersAsStored ms) = (lookup name ms).map asStored := by
  induction ms with
  | nil => rfl
  | cons m rest ih =>
    obtain ⟨k, v⟩ := m
    simp only [membersAsStored, lookup]
    split
    · rfl
    · exact ih

/-- A member of an object that was kept is the member, kept. -/
theorem get?_asStored_obj {ms : List (String × Json)} (h : (ms.map Prod.fst).Nodup)
    (name : String) : (obj ms).asStored.get? name = (lookup name ms).map asStored := by
  rw [asStored, get?_ofMembers ((names_membersAsStored ms).symm ▸ h), lookup_membersAsStored]

/-- The same of an object that was kept and then put into order. -/
theorem get?_asStored_sorted {j : Json} (h : j.Proper) (name : String) :
    j.asStored.sorted.get? name = (j.get? name).map fun v => v.asStored.sorted := by
  cases j with
  | obj ms =>
    obtain ⟨ns, hns, hascend, -⟩ := exists_ofMembers (membersAsStored ms)
    have hget := get?_asStored_obj h.1 name
    have hread : (obj ns).get? name = lookup name ns := rfl
    rw [asStored, hns, hread] at hget
    rw [asStored, hns, get?_sorted_obj hascend.nodup, hget, Option.map_map]
    rfl
  | float x => rcases asStored_float h with ⟨i, hi⟩ | ⟨y, hy⟩ <;> simp [*, sorted, get?]
  | _ => simp only [asStored, atomAsStored, sorted, get?, Option.map_none]

/-- **A score is found in a value that was kept** exactly if it was there before. -/
theorem isSome_scoreOf_asStored_sorted {j : Json} (h : j.Proper) :
    (scoreOf j.asStored.sorted).isSome = (scoreOf j).isSome := by
  rw [scoreOf, scoreOf, get?_asStored_sorted h]
  cases hscore : j.get? "score" with
  | none => rfl
  | some v =>
    have hv : v.Proper := by
      cases j with
      | obj ms => exact proper_of_lookup h.2 hscore
      | _ => exact nomatch hscore
    exact isSome_number?_asStored_sorted hv

end Json

end HeuristicEvolution

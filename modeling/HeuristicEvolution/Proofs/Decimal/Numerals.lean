import HeuristicEvolution.Decimal.Read
import HeuristicEvolution.Text.Blank
import Mathlib.Data.List.TakeWhile

/-!
# The characters of numerals

A text that stands for a double is made of digits, signs, a point, and the letters of an exponent,
of an infinity or of NaN. What has any other character in it is no numeral. That is all that is
needed to tell the numbers of a report from the words around them.

## Main results

* `Decimal.isNumeralChar_of_readFloat?`
* `Decimal.isBlank_of_isNumeralChar`
-/

namespace HeuristicEvolution.Decimal

/-- The characters of numerals other than digits. -/
def numeralMarks : List Char := "+-.eEinftyaINFTYA".toList

/-- The character can stand in a numeral. -/
def isNumeralChar (c : Char) : Bool := c.isDigit || numeralMarks.contains c

theorem isNumeralChar_of_mem {c : Char} (h : c ∈ numeralMarks) : isNumeralChar c = true := by
  simp [isNumeralChar, h]

theorem isNumeralChar_of_isDigit {c : Char} (h : c.isDigit = true) : isNumeralChar c = true := by
  simp [isNumeralChar, h]

theorem isBlank_of_isNumeralChar {c : Char} (h : isNumeralChar c = true) :
    Text.isBlank c = false := by
  rcases Bool.or_eq_true_iff.mp h with hdigit | hmark
  · exact Text.isBlank_of_isDigit hdigit
  · have hmarks : numeralMarks.any Text.isBlank = false := by decide
    exact Bool.eq_false_iff.mpr (List.any_eq_false.mp hmarks c (List.contains_iff_mem.mp hmark))

/-- A sign is all that is split off. -/
theorem mem_splitSign {c : Char} {cs : List Char} (h : c ∈ cs) :
    c ∈ numeralMarks ∨ c ∈ (splitSign cs).2 := by
  unfold splitSign
  split
  · rcases List.mem_cons.mp h with rfl | hrest
    · exact .inl (by decide)
    · exact .inr hrest
  · rcases List.mem_cons.mp h with rfl | hrest
    · exact .inl (by decide)
    · exact .inr hrest
  · exact .inr h

theorem isNumeralChar_of_exponent? {cs : List Char} {e : Int} (h : exponent? cs = some e) :
    ∀ c ∈ cs, isNumeralChar c = true := by
  cases cs with
  | nil =>
    intro c hc
    cases hc
  | cons first rest =>
    rw [exponent?] at h
    split at h
    · next hmark =>
      have hfirst : first ∈ numeralMarks := by
        rcases (by simpa using hmark : first = 'e' ∨ first = 'E') with rfl | rfl
        · decide
        · decide
      simp only at h
      split at h
      · next hdigits =>
        obtain ⟨-, hall⟩ := Bool.and_eq_true_iff.mp hdigits
        rintro c (_ | ⟨_, hc⟩)
        · exact isNumeralChar_of_mem hfirst
        · rcases mem_splitSign hc with hsign | hdigit
          · exact isNumeralChar_of_mem hsign
          · exact isNumeralChar_of_isDigit (List.all_eq_true.mp hall c hdigit)
      · cases h
    · cases h

/-- The digits at the head of a text, and what comes behind them. -/
theorem isNumeralChar_of_dropWhile {cs : List Char}
    (h : ∀ c ∈ cs.dropWhile Char.isDigit, isNumeralChar c = true) :
    ∀ c ∈ cs, isNumeralChar c = true := by
  intro c hc
  rw [← List.takeWhile_append_dropWhile (p := Char.isDigit) (l := cs)] at hc
  rcases List.mem_append.mp hc with hhead | htail
  · exact isNumeralChar_of_isDigit (List.mem_takeWhile_imp hhead)
  · exact h c htail

theorem isNumeralChar_of_ofList? {cs : List Char} {n : Numeral}
    (h : Numeral.ofList? cs = some n) : ∀ c ∈ cs, isNumeralChar c = true := by
  refine isNumeralChar_of_dropWhile ?_
  unfold Numeral.ofList? at h
  simp only at h
  -- the text behind the whole digits opens with a point, or is the exponent
  split at h
  · next more hmore =>
    rw [hmore]
    split at h
    · cases h
    · obtain ⟨e, he, -⟩ := Option.map_eq_some_iff.mp h
      rintro c (_ | ⟨_, hc⟩)
      · decide
      · exact isNumeralChar_of_dropWhile (isNumeralChar_of_exponent? he) c hc
  · split at h
    · cases h
    · obtain ⟨e, he, -⟩ := Option.map_eq_some_iff.mp h
      exact isNumeralChar_of_exponent? he

/-- Small letters stand 32 places behind large ones, and nothing else is changed. -/
theorem toNat_toLower (c : Char) :
    c.toLower.toNat = c.toNat ∨ c.toLower.toNat = c.toNat + 32 := by
  by_cases hupper : c.val ≥ 'A'.val ∧ c.val ≤ 'Z'.val
  · have hlower : c.toLower = ⟨c.val + ('a'.val - 'A'.val), _⟩ := dif_pos hupper
    have hcode : c.val.toNat ≤ 90 := hupper.2
    have hsum : (c.val + ('a'.val - 'A'.val)).toNat = (c.val.toNat + 32) % 2 ^ 32 := rfl
    rw [hlower]
    exact .inr (hsum.trans (Nat.mod_eq_of_lt (by omega)))
  · have hlower : c.toLower = c := dif_neg hupper
    exact .inl (by rw [hlower])

/-- The letters of infinities and of NaN, large or small. -/
theorem isNumeralChar_of_toLower {c : Char} (h : c.toLower ∈ "infatyn".toList) :
    isNumeralChar c = true := by
  have hletters : "infatyn".toList.all (fun d =>
      decide (d ∈ numeralMarks ∧ Char.ofNat (d.toNat - 32) ∈ numeralMarks)) = true := by decide
  obtain ⟨hsmall, hlarge⟩ := of_decide_eq_true (List.all_eq_true.mp hletters _ h)
  rw [← Char.ofNat_toNat c]
  rcases toNat_toLower c with hsame | hshift
  · rw [← hsame, Char.ofNat_toNat]
    exact isNumeralChar_of_mem hsmall
  · rw [hshift, Nat.add_sub_cancel] at hlarge
    exact isNumeralChar_of_mem hlarge

/-- **The characters of a numeral.** -/
theorem isNumeralChar_of_readFloat? {s : String} {x : Float} (h : readFloat? s = some x) :
    ∀ c ∈ s.toList, isNumeralChar c = true := by
  intro c hc
  rcases mem_splitSign hc with hsign | hrest
  · exact isNumeralChar_of_mem hsign
  · unfold readFloat? at h
    simp only at h
    obtain ⟨y, hy, -⟩ := Option.map_eq_some_iff.mp h
    split at hy
    · next z hz =>
      obtain ⟨n, hn, -⟩ := Option.map_eq_some_iff.mp hz
      exact isNumeralChar_of_ofList? hn c hrest
    · -- the text is a word, whatever its case
      refine isNumeralChar_of_toLower ?_
      have hlower : c.toLower ∈ (splitSign s.toList).2.map Char.toLower :=
        List.mem_map_of_mem hrest
      have hspelled : ∀ word : String, word.toList.all ("infatyn".toList.contains ·) = true →
          String.ofList ((splitSign s.toList).2.map Char.toLower) = word →
          c.toLower ∈ "infatyn".toList := by
        rintro word hword rfl
        refine List.contains_iff_mem.mp (List.all_eq_true.mp hword _ ?_)
        rwa [String.toList_ofList]
      split at hy
      · next hinfinite =>
        rcases (Bool.or_eq_true_iff.mp hinfinite).imp of_decide_eq_true of_decide_eq_true with h | h
        · exact hspelled _ (by decide) h
        · exact hspelled _ (by decide) h
      · split at hy
        · next hnan => exact hspelled _ (by decide) hnan
        · cases hy

end HeuristicEvolution.Decimal

/-!
# Blanks and trimmed text

A *blank* is a character with the Unicode property `White_Space`. Prose, codes and the output of
commands are kept trimmed, so the class has to be the whole property: `U+0085`, `U+00A0` and
`U+3000` are blanks, the zero-width space and the byte order mark are not.

## Main statements

* `isBlank_of_isDigit`: no digit is a blank.
* `toList_trim`: trimming a text trims its list of characters.
* `isBlank_of_head?_trimList`, `isBlank_of_getLast?_trimList`: no blank is left at either end.
* `trimList_append`, `trimList_eq_self`: blanks around a text go, and nothing else.
-/

namespace HeuristicEvolution.Text

/-- The code points of the property `White_Space`, as closed ranges in ascending order. -/
def blankRanges : List (Nat × Nat) :=
  [(0x09, 0x0D), (0x20, 0x20), (0x85, 0x85), (0xA0, 0xA0), (0x1680, 0x1680), (0x2000, 0x200A),
   (0x2028, 0x2029), (0x202F, 0x202F), (0x205F, 0x205F), (0x3000, 0x3000)]

/-- A blank lies in one of the ranges of `White_Space`. -/
def isBlank (c : Char) : Bool :=
  blankRanges.any fun (lo, hi) => lo ≤ c.toNat && c.toNat ≤ hi

theorem isBlank_of_isDigit {c : Char} (h : c.isDigit = true) : isBlank c = false := by
  have hcode : 48 ≤ c.toNat ∧ c.toNat ≤ 57 := by
    simpa [Char.isDigit, UInt32.le_iff_toNat_le] using h
  simp [isBlank, blankRanges]
  omega

/-! ## Trimming -/

/-- Leading blanks are dropped. -/
def trimStartList (cs : List Char) : List Char := cs.dropWhile isBlank

/-- Blanks are dropped from the end. -/
def trimEndList (cs : List Char) : List Char := (cs.reverse.dropWhile isBlank).reverse

/-- Blanks are dropped from both ends and kept inside. -/
def trimList (cs : List Char) : List Char := trimEndList (trimStartList cs)

/-- A text without the blanks at its ends. -/
def trim (s : String) : String := String.ofList (trimList s.toList)

@[simp] theorem toList_trim (s : String) : (trim s).toList = trimList s.toList := by
  simp [trim]

theorem prefix_trimEndList (cs : List Char) : trimEndList cs <+: cs := by
  have h : cs.reverse.dropWhile isBlank <:+ cs.reverse := List.dropWhile_suffix _
  rw [trimEndList, ← List.reverse_suffix, List.reverse_reverse]
  exact h

theorem infix_trimList (cs : List Char) : trimList cs <:+: cs :=
  (prefix_trimEndList _).isInfix.trans (List.dropWhile_suffix _).isInfix

/-- A trimmed text does not begin with a blank. -/
theorem isBlank_of_head?_trimList {cs : List Char} {c : Char}
    (h : (trimList cs).head? = some c) : isBlank c = false := by
  have hstart : (cs.dropWhile isBlank).head? = some c := by
    obtain ⟨rest, hrest⟩ := prefix_trimEndList (trimStartList cs)
    rw [← trimStartList, ← hrest, List.head?_append, ← trimList, h]
    rfl
  have hnot := List.head?_dropWhile_not isBlank cs
  rw [hstart] at hnot
  simpa using hnot

/-- A trimmed text does not end with a blank. -/
theorem isBlank_of_getLast?_trimList {cs : List Char} {c : Char}
    (h : (trimList cs).getLast? = some c) : isBlank c = false := by
  rw [trimList, trimEndList, List.getLast?_reverse] at h
  have hnot := List.head?_dropWhile_not isBlank (trimStartList cs).reverse
  rw [h] at hnot
  simpa using hnot

/-! ### Blanks around a text -/

theorem trimStartList_append {lead : List Char} (h : ∀ c ∈ lead, isBlank c = true)
    (cs : List Char) : trimStartList (lead ++ cs) = trimStartList cs := by
  induction lead with
  | nil => rfl
  | cons c rest ih =>
    obtain ⟨hc, hrest⟩ := List.forall_mem_cons.mp h
    rw [List.cons_append, trimStartList, List.dropWhile_cons, if_pos hc]
    exact ih hrest

theorem trimEndList_append {trail : List Char} (h : ∀ c ∈ trail, isBlank c = true)
    (cs : List Char) : trimEndList (cs ++ trail) = trimEndList cs := by
  have hreverse : ∀ c ∈ trail.reverse, isBlank c = true := fun c hc => h c (List.mem_reverse.mp hc)
  have hdrop := trimStartList_append hreverse cs.reverse
  rw [trimStartList, trimStartList, ← List.reverse_append] at hdrop
  rw [trimEndList, trimEndList, hdrop]

/-- A text is trimmed together with the blanks around it. -/
theorem trimList_append {lead trail : List Char} (hlead : ∀ c ∈ lead, isBlank c = true)
    (htrail : ∀ c ∈ trail, isBlank c = true) (cs : List Char) :
    trimList (lead ++ cs ++ trail) = trimList cs := by
  rw [trimList, List.append_assoc, trimStartList_append hlead, trimStartList, List.dropWhile_append]
  split
  · -- nothing but blanks: the whole text is trimmed away
    next hempty =>
    have hcs : trimStartList cs = [] := List.isEmpty_iff.mp hempty
    have hblank := trimStartList_append htrail []
    rw [List.append_nil] at hblank
    rw [← trimStartList, hblank, trimList, hcs]
    rfl
  · exact trimEndList_append htrail (trimStartList cs)

/-- A text that neither begins nor ends with a blank is trimmed. -/
theorem trimList_eq_self {cs : List Char} (hhead : ∀ c, cs.head? = some c → isBlank c = false)
    (hlast : ∀ c, cs.getLast? = some c → isBlank c = false) : trimList cs = cs := by
  have hkept : ∀ xs : List Char, (∀ c, xs.head? = some c → isBlank c = false) →
      xs.dropWhile isBlank = xs := by
    intro xs hxs
    cases xs with
    | nil => rfl
    | cons c rest => rw [List.dropWhile_cons, hxs c rfl]; rfl
  have hreverse : cs.reverse.dropWhile isBlank = cs.reverse :=
    hkept cs.reverse fun c hc => hlast c (by rwa [List.head?_reverse] at hc)
  rw [trimList, trimStartList, hkept cs hhead, trimEndList, hreverse, List.reverse_reverse]

end HeuristicEvolution.Text

import HeuristicEvolution.Reply.Fence
import Mathlib.Data.List.Infix
import Mathlib.Data.List.TakeWhile

/-!
# How a reply is parted

A reply is searched from the left for a block, and then again behind that block. What the search
finds is said here without the search: the text of the reply is cut into prose and blocks, no
block could have been opened further left, and a block ends at the first fence behind its first
line.

Runs of more than three backticks, fences that look like an opening and a closing one at once, and
fences that are never closed need no rule of their own. They are settled by the two words `left`
and `first` above, and `blocks_eq_iff` says that nothing else is left to settle: a reply is parted
in exactly one way.

## Main definitions

* `Fence.Opens`: a block stands at the head of a text.
* `Fence.Parted`: a text is made of these blocks and this prose behind them.

## Main results

* `Fence.splitAtMark_eq_some_iff`, `Fence.nextBlock?_eq_some_iff`: what one search finds.
* `Fence.blocks_eq_iff`: what all searches find.
* `Segments.reply_parted_exactly`
-/

namespace HeuristicEvolution

namespace Fence

/-- An ASCII letter. -/
def IsLetter (c : Char) : Prop := ('a' ≤ c ∧ c ≤ 'z') ∨ ('A' ≤ c ∧ c ≤ 'Z')

instance : DecidablePred IsLetter := fun c =>
  inferInstanceAs (Decidable (('a' ≤ c ∧ c ≤ 'z') ∨ ('A' ≤ c ∧ c ≤ 'Z')))

theorem isTagChar_iff {c : Char} : isTagChar c = true ↔ IsLetter c := by
  have hletter : isTagChar c =
      (decide ('A' ≤ c ∧ c ≤ 'Z') || (decide ('a' ≤ c) && decide (c ≤ 'z'))) := rfl
  simp only [hletter, Bool.or_eq_true, Bool.and_eq_true, decide_eq_true_eq, IsLetter]
  exact or_comm

/-- A block as it is written: a fence, a tag, a line break, a body and a fence. -/
def Block.fenced (b : Block) : List Char := mark ++ b.tag ++ '\n' :: b.body ++ mark

/-- A block with the prose before it. -/
def Block.text (b : Block) : List Char := b.before ++ b.fenced

/-- A block stands at the head of the text. -/
def Opens (cs : List Char) : Prop :=
  ∃ tag body rest : List Char, (∀ c ∈ tag, IsLetter c) ∧
    cs = mark ++ tag ++ '\n' :: body ++ mark ++ rest

/-- No block stands anywhere in the text. -/
def Closed (cs : List Char) : Prop := ∀ left right : List Char, cs = left ++ right → ¬ Opens right

/-- The block is the one to choose if the text behind it is `rest`. -/
structure Block.Chosen (b : Block) (rest : List Char) : Prop where
  tag_letters : ∀ c ∈ b.tag, IsLetter c
  /-- The first fence behind the first line is the closing one. -/
  closes_first : ∀ left right, b.body ++ mark = left ++ mark ++ right → left = b.body
  /-- No block opens further left. -/
  opens_first : ∀ left right, b.text ++ rest = left ++ right → left.length < b.before.length →
    ¬ Opens right

/-- The text is made of the blocks, with the prose before each of them, and of `tail`. -/
inductive Parted : List Char → List Block → List Char → Prop
  | prose {tail : List Char} : Closed tail → Parted tail [] tail
  | block {b : Block} {rest : List Char} {bs : List Block} {tail : List Char} :
      b.Chosen rest → Parted rest bs tail → Parted (b.text ++ rest) (b :: bs) tail

/-! ## The first fence -/

theorem mark_length : mark.length = 3 := rfl

theorem splitAtMark_of_mark (rest : List Char) : splitAtMark (mark ++ rest) = some ([], rest) := by
  simp [mark, splitAtMark]

theorem splitAtMark_of_not_mark {c : Char} {cs : List Char} (h : ¬ mark <+: c :: cs) :
    splitAtMark (c :: cs) = (splitAtMark cs).map fun p => (c :: p.1, p.2) := by
  have hno : mark.isPrefixOf (c :: cs) = false := by
    rw [Bool.eq_false_iff]
    exact mt List.isPrefixOf_iff_prefix.mp h
  rw [splitAtMark, hno]

/-- There is a fence, and what is found before it holds no earlier one. -/
theorem splitAtMark_spec (cs : List Char) :
    (splitAtMark cs = none ∧ ¬ mark <:+: cs) ∨
      ∃ before after, splitAtMark cs = some (before, after) ∧ cs = before ++ mark ++ after ∧
        ∀ left right, cs = left ++ mark ++ right → before.length ≤ left.length := by
  induction cs with
  | nil => exact .inl ⟨rfl, by simp [mark]⟩
  | cons c cs ih =>
    by_cases hmark : mark <+: c :: cs
    · obtain ⟨rest, hrest⟩ := hmark
      rw [← hrest, splitAtMark_of_mark]
      exact .inr ⟨[], rest, rfl, rfl, fun _ _ _ => Nat.zero_le _⟩
    · -- an occurrence in the whole text is one in what follows the first character
      have hlater : ∀ left right, c :: cs = left ++ mark ++ right →
          ∃ left', left = c :: left' ∧ cs = left' ++ mark ++ right := by
        intro left right h
        cases left with
        | nil => exact absurd ⟨right, h.symm⟩ hmark
        | cons d left' =>
          obtain ⟨rfl, hcs⟩ := List.cons.inj h
          exact ⟨left', rfl, hcs⟩
      rw [splitAtMark_of_not_mark hmark]
      rcases ih with ⟨hnone, hno⟩ | ⟨before, after, hsome, hcs, hfirst⟩
      · refine .inl ⟨by rw [hnone]; rfl, ?_⟩
        rintro ⟨left, right, h⟩
        obtain ⟨left', -, h'⟩ := hlater left right h.symm
        exact hno ⟨left', right, h'.symm⟩
      · refine .inr ⟨c :: before, after, by rw [hsome]; rfl, by rw [hcs]; rfl, ?_⟩
        intro left right h
        obtain ⟨left', rfl, h'⟩ := hlater left right h
        have hle := hfirst left' right h'
        simpa using hle

theorem splitAtMark_eq_none_iff {cs : List Char} : splitAtMark cs = none ↔ ¬ mark <:+: cs := by
  rcases splitAtMark_spec cs with ⟨hnone, hno⟩ | ⟨before, after, hsome, hcs, -⟩
  · simp [hnone, hno]
  · have hthere : mark <:+: cs := ⟨before, after, hcs.symm⟩
    simp [hsome, hthere]

/-- A fence that is the first one of its line is the first one of the whole text. -/
theorem first_of_closes_first {before after left right : List Char}
    (h : ∀ left right, before ++ mark = left ++ mark ++ right → left = before)
    (hcs : before ++ mark ++ after = left ++ mark ++ right) : before.length ≤ left.length := by
  by_contra hlt
  have hle : (left ++ mark).length ≤ (before ++ mark).length := by
    simp only [List.length_append]
    omega
  have hprefix : left ++ mark <+: before ++ mark :=
    List.prefix_of_prefix_length_le ⟨right, hcs.symm⟩ ⟨after, rfl⟩ hle
  obtain ⟨between, hbetween⟩ := hprefix
  have heq : left = before := h left between hbetween.symm
  rw [heq] at hlt
  exact hlt (Nat.le_refl _)

/-- **The first fence of a text.** -/
theorem splitAtMark_eq_some_iff {cs before after : List Char} :
    splitAtMark cs = some (before, after) ↔ cs = before ++ mark ++ after ∧
      ∀ left right, before ++ mark = left ++ mark ++ right → left = before := by
  constructor
  · intro h
    rcases splitAtMark_spec cs with ⟨hnone, -⟩ | ⟨before', after', hsome, hcs, hfirst⟩
    · rw [hnone] at h
      exact nomatch h
    · rw [hsome] at h
      obtain ⟨rfl, rfl⟩ := Prod.mk.inj (Option.some.inj h)
      refine ⟨hcs, fun left right h => ?_⟩
      have hle : before'.length ≤ left.length := by
        refine hfirst left (right ++ after') ?_
        rw [hcs, h, List.append_assoc]
      have hlength := congrArg List.length h
      simp only [List.length_append] at hlength
      have hempty : right = [] := List.eq_nil_of_length_eq_zero (by omega)
      rw [hempty, List.append_nil] at h
      exact (List.append_cancel_right h).symm
  · rintro ⟨hcs, hfirst⟩
    rcases splitAtMark_spec cs with ⟨-, hno⟩ | ⟨before', after', hsome, hcs', hfirst'⟩
    · exact absurd ⟨before, after, hcs.symm⟩ hno
    · have hle : before'.length ≤ before.length := hfirst' before after hcs
      have hge : before.length ≤ before'.length :=
        first_of_closes_first hfirst (hcs.symm.trans hcs')
      have heq : before ++ mark ++ after = before' ++ mark ++ after' := hcs.symm.trans hcs'
      rw [List.append_assoc, List.append_assoc] at heq
      obtain ⟨rfl, htail⟩ := List.append_inj heq (Nat.le_antisymm hge hle)
      rw [hsome, List.append_cancel_left htail]

/-- A body up to the first fence holds no fence. -/
theorem no_mark_of_first {body : List Char}
    (h : ∀ left right, body ++ mark = left ++ mark ++ right → left = body) : ¬ mark <:+: body := by
  rintro ⟨left, right, hbody⟩
  have heq : left = body := h left (right ++ mark) (by rw [← hbody, List.append_assoc])
  have hlength := congrArg List.length hbody
  simp only [List.length_append, mark_length, heq] at hlength
  omega

/-! ## The first block -/

theorem takeWhile_line {tag : List Char} (htag : ∀ c ∈ tag, IsLetter c) (rest : List Char) :
    (tag ++ '\n' :: rest).takeWhile isTagChar = tag ∧
      (tag ++ '\n' :: rest).dropWhile isTagChar = '\n' :: rest := by
  have hall : ∀ c ∈ tag, isTagChar c = true := fun c hc => isTagChar_iff.mpr (htag c hc)
  have hbreak : isTagChar '\n' = false := by decide
  rw [List.takeWhile_append_of_pos hall, List.dropWhile_append_of_pos hall,
    List.takeWhile_cons_of_neg (by simp [hbreak]), List.dropWhile_cons_of_neg (by simp [hbreak]),
    List.append_nil]
  exact ⟨rfl, rfl⟩

theorem blockAtHead?_of_line {tag rest : List Char} (htag : ∀ c ∈ tag, IsLetter c) :
    blockAtHead? (mark ++ tag ++ '\n' :: rest) =
      (splitAtMark rest).map fun p => (⟨[], tag, p.1⟩, p.2) := by
  obtain ⟨htake, hdrop⟩ := takeWhile_line htag rest
  have hmark : mark.isPrefixOf (mark ++ (tag ++ '\n' :: rest)) = true :=
    List.isPrefixOf_iff_prefix.mpr (List.prefix_append _ _)
  have hline : (mark ++ (tag ++ '\n' :: rest)).drop 3 = tag ++ '\n' :: rest :=
    List.drop_left' mark_length
  rw [List.append_assoc, blockAtHead?, if_pos hmark]
  simp only [hline, hdrop, htake]

/-- A block at the head of a text begins with a line that is a fence and a tag. -/
theorem line_of_blockAtHead? {cs : List Char} (h : blockAtHead? cs ≠ none) :
    ∃ tag rest, (∀ c ∈ tag, IsLetter c) ∧ cs = mark ++ tag ++ '\n' :: rest := by
  rw [blockAtHead?] at h
  split at h
  · next hmark =>
    obtain ⟨line, rfl⟩ := List.isPrefixOf_iff_prefix.mp hmark
    have hline : (mark ++ line).drop 3 = line := List.drop_left' mark_length
    simp only [hline] at h
    split at h
    · next rest hrest =>
      refine ⟨line.takeWhile isTagChar, rest, fun c hc => ?_, ?_⟩
      · exact isTagChar_iff.mp (List.mem_takeWhile_imp hc)
      · rw [List.append_assoc, ← hrest, List.takeWhile_append_dropWhile]
    · exact absurd rfl h
  · exact absurd rfl h

theorem blockAtHead?_eq_none_iff {cs : List Char} : blockAtHead? cs = none ↔ ¬ Opens cs := by
  constructor
  · rintro h ⟨tag, body, rest, htag, rfl⟩
    have hline : mark ++ tag ++ '\n' :: body ++ mark ++ rest
        = mark ++ tag ++ '\n' :: (body ++ mark ++ rest) := by simp
    rw [hline, blockAtHead?_of_line htag, Option.map_eq_none_iff] at h
    exact splitAtMark_eq_none_iff.mp h ⟨body, rest, rfl⟩
  · intro h
    by_contra hsome
    obtain ⟨tag, rest, htag, rfl⟩ := line_of_blockAtHead? hsome
    rw [blockAtHead?_of_line htag, Option.map_eq_none_iff, splitAtMark_eq_none_iff,
      not_not] at hsome
    obtain ⟨body, after, hbody⟩ := hsome
    exact h ⟨tag, body, after, htag, by rw [← hbody]; simp⟩

theorem blockAtHead?_eq_some_iff {cs after : List Char} {b : Block} :
    blockAtHead? cs = some (b, after) ↔
      b.before = [] ∧ b.Chosen after ∧ cs = b.text ++ after := by
  constructor
  · intro h
    obtain ⟨tag, rest, htag, rfl⟩ := line_of_blockAtHead? (by rw [h]; simp)
    rw [blockAtHead?_of_line htag] at h
    obtain ⟨⟨body, after'⟩, hsplit, hb⟩ := Option.map_eq_some_iff.mp h
    obtain ⟨rfl, rfl⟩ := Prod.mk.inj hb
    obtain ⟨hrest, hfirst⟩ := splitAtMark_eq_some_iff.mp hsplit
    refine ⟨rfl, ⟨htag, hfirst, fun left _ _ hlt => absurd hlt (Nat.not_lt_zero _)⟩, ?_⟩
    simp [Block.text, Block.fenced, hrest]
  · rintro ⟨hbefore, hchosen, rfl⟩
    have hline : b.text ++ after = mark ++ b.tag ++ '\n' :: (b.body ++ mark ++ after) := by
      simp [Block.text, Block.fenced, hbefore]
    have hsplit : splitAtMark (b.body ++ mark ++ after) = some (b.body, after) :=
      splitAtMark_eq_some_iff.mpr ⟨rfl, hchosen.closes_first⟩
    rw [hline, blockAtHead?_of_line hchosen.tag_letters, hsplit, ← hbefore]
    rfl

theorem closed_cons_iff {c : Char} {cs : List Char} :
    Closed (c :: cs) ↔ ¬ Opens (c :: cs) ∧ Closed cs := by
  constructor
  · intro h
    exact ⟨h [] (c :: cs) rfl, fun left right hcs => h (c :: left) right (by rw [hcs]; rfl)⟩
  · rintro ⟨hhead, hrest⟩ left right hcs
    cases left with
    | nil =>
      have hall : c :: cs = right := hcs
      exact hall ▸ hhead
    | cons d left => exact hrest left right (List.cons.inj hcs).2

theorem not_opens_nil : ¬ Opens [] := by
  rintro ⟨tag, body, rest, -, h⟩
  simp [mark] at h

/-- A block is chosen behind one more character exactly if nothing opens at that character. -/
theorem chosen_cons_iff {c : Char} {b : Block} {rest : List Char} :
    Block.Chosen { b with before := c :: b.before } rest ↔
      ¬ Opens (c :: (b.text ++ rest)) ∧ b.Chosen rest := by
  constructor
  · intro h
    refine ⟨h.opens_first [] _ rfl (Nat.succ_pos _), h.tag_letters, h.closes_first, ?_⟩
    intro left right htext hlt
    exact h.opens_first (c :: left) right (congrArg (c :: ·) htext) (Nat.succ_lt_succ hlt)
  · rintro ⟨hhead, h⟩
    refine ⟨h.tag_letters, h.closes_first, fun left right htext hlt => ?_⟩
    cases left with
    | nil =>
      have hall : c :: (b.text ++ rest) = right := htext
      exact hall ▸ hhead
    | cons d left =>
      exact h.opens_first left right (List.cons.inj htext).2 (Nat.lt_of_succ_lt_succ hlt)

theorem nextBlock?_of_not_opens {c : Char} {cs : List Char} (h : ¬ Opens (c :: cs)) :
    nextBlock? (c :: cs) =
      (nextBlock? cs).map fun p => ({ p.1 with before := c :: p.1.before }, p.2) := by
  rw [nextBlock?, blockAtHead?_eq_none_iff.mpr h]

theorem nextBlock?_eq_none_iff {cs : List Char} : nextBlock? cs = none ↔ Closed cs := by
  induction cs with
  | nil =>
    have hclosed : Closed [] := by
      intro left right h
      rw [(List.append_eq_nil_iff.mp h.symm).2]
      exact not_opens_nil
    simp [nextBlock?, hclosed]
  | cons c cs ih =>
    rw [closed_cons_iff, ← ih]
    by_cases hopens : Opens (c :: cs)
    · obtain ⟨found, hfound⟩ := Option.ne_none_iff_exists'.mp (mt blockAtHead?_eq_none_iff.mp
        (not_not.mpr hopens))
      simp [nextBlock?, hfound, hopens]
    · rw [nextBlock?_of_not_opens hopens, Option.map_eq_none_iff]
      simp [hopens]

/-- **The first block of a text.** -/
theorem nextBlock?_eq_some_iff {cs after : List Char} {b : Block} :
    nextBlock? cs = some (b, after) ↔ b.Chosen after ∧ cs = b.text ++ after := by
  induction cs generalizing b with
  | nil =>
    simp [nextBlock?, Block.text, Block.fenced, mark]
  | cons c cs ih =>
    by_cases hopens : Opens (c :: cs)
    · -- the block at the head is found, and no block behind it is the first one
      obtain ⟨⟨b', after'⟩, hfound⟩ := Option.ne_none_iff_exists'.mp
        (mt blockAtHead?_eq_none_iff.mp (not_not.mpr hopens))
      have hhead : (b.Chosen after ∧ c :: cs = b.text ++ after) → b.before = [] := by
        rintro ⟨hchosen, hcs⟩
        by_contra hbefore
        exact hchosen.opens_first [] (c :: cs) hcs.symm (List.length_pos_iff.mpr hbefore) hopens
      have hnext : nextBlock? (c :: cs) = blockAtHead? (c :: cs) := by rw [nextBlock?, hfound]
      rw [hnext, blockAtHead?_eq_some_iff]
      exact ⟨fun h => h.2, fun h => ⟨hhead h, h⟩⟩
    · rw [nextBlock?_of_not_opens hopens]
      constructor
      · intro h
        obtain ⟨⟨b', after'⟩, hnext, hb⟩ := Option.map_eq_some_iff.mp h
        obtain ⟨rfl, rfl⟩ := Prod.mk.inj hb
        obtain ⟨hchosen, rfl⟩ := ih.mp hnext
        exact ⟨chosen_cons_iff.mpr ⟨hopens, hchosen⟩, rfl⟩
      · rintro ⟨hchosen, hcs⟩
        obtain ⟨before, tag, body⟩ := b
        cases before with
        | nil =>
          refine absurd ⟨tag, body, after, hchosen.tag_letters, ?_⟩ hopens
          simp [hcs, Block.text, Block.fenced]
        | cons d before =>
          obtain ⟨rfl, hrest⟩ := List.cons.inj hcs
          have hchosen' := (chosen_cons_iff (b := ⟨before, tag, body⟩)).mp hchosen
          rw [ih.mpr ⟨hchosen'.2, hrest⟩]
          rfl

/-! ## All blocks -/

theorem Parted.text_eq {cs tail : List Char} {bs : List Block} (h : Parted cs bs tail) :
    cs = bs.flatMap Block.text ++ tail := by
  induction h with
  | prose _ => rfl
  | block _ _ ih => rw [List.flatMap_cons, List.append_assoc, ← ih]

theorem blocks_of_none {cs : List Char} (h : nextBlock? cs = none) : blocks cs = ([], cs) := by
  rw [blocks]
  split
  · rfl
  · next hsome => simp [h] at hsome

theorem blocks_of_some {cs after : List Char} {b : Block} (h : nextBlock? cs = some (b, after)) :
    blocks cs = (b :: (blocks after).1, (blocks after).2) := by
  rw [blocks]
  split
  · next hnone => simp [h] at hnone
  · next b' after' hsome =>
    obtain ⟨rfl, rfl⟩ := Prod.mk.inj (Option.some.inj (h.symm.trans hsome))
    rfl

theorem parted_blocks (cs : List Char) : Parted cs (blocks cs).1 (blocks cs).2 := by
  induction hn : cs.length using Nat.strong_induction_on generalizing cs with
  | _ n ih =>
    cases hnext : nextBlock? cs with
    | none =>
      rw [blocks_of_none hnext]
      exact .prose (nextBlock?_eq_none_iff.mp hnext)
    | some found =>
      obtain ⟨b, after⟩ := found
      have hshorter : after.length < n := hn ▸ nextBlock?_length hnext
      obtain ⟨hchosen, hcs⟩ := nextBlock?_eq_some_iff.mp hnext
      rw [blocks_of_some hnext]
      have hrest := ih after.length hshorter after rfl
      exact hcs ▸ Parted.block hchosen hrest

/-- **A text is parted in exactly one way.** -/
theorem blocks_eq_iff {cs tail : List Char} {bs : List Block} :
    blocks cs = (bs, tail) ↔ Parted cs bs tail := by
  constructor
  · intro h
    have hparted := parted_blocks cs
    rwa [h] at hparted
  · intro h
    induction h with
    | prose hclosed => exact blocks_of_none (nextBlock?_eq_none_iff.mpr hclosed)
    | block hchosen _ ih =>
      rw [blocks_of_some (nextBlock?_eq_some_iff.mpr ⟨hchosen, rfl⟩), ih]

theorem Parted.no_mark_in_body {cs tail : List Char} {bs : List Block} (h : Parted cs bs tail) :
    ∀ b ∈ bs, ¬ mark <:+: b.body := by
  induction h with
  | prose _ => simp
  | block hchosen _ ih =>
    intro b hb
    rcases List.mem_cons.mp hb with rfl | hb
    · exact no_mark_of_first hchosen.closes_first
    · exact ih b hb

end Fence

/-! ## Texts, codes and languages -/

namespace Segments

open Fence Text

theorem trim_ofList (cs : List Char) : trim (String.ofList cs) = String.ofList (trimList cs) := by
  rw [trim, String.toList_ofList]

/-- The prose behind the last block: it is a text if it is not blank, or if it is all there is. -/
def lastText (bs : List Block) (tail : List Char) : List String :=
  if trim (String.ofList tail) ≠ "" ∨ bs = [] then [trim (String.ofList tail)] else []

theorem found_eq {reply : String} {bs : List Block} {tail : List Char}
    (h : blocks reply.toList = (bs, tail)) :
    found reply =
      { text := bs.map (fun b => trim (String.ofList b.before)) ++ lastText bs tail
        code := bs.map fun b => trim (String.ofList b.body)
        languages := bs.map fun b => String.ofList b.tag } := by
  have hlast : (if (trimList tail).isEmpty && !bs.isEmpty then []
      else [String.ofList (trimList tail)]) = lastText bs tail := by
    rw [lastText, trim_ofList]
    by_cases hblank : trimList tail = []
    · cases bs <;> simp [hblank]
    · have hne : String.ofList (trimList tail) ≠ "" := by
        intro hempty
        have hlist := congrArg String.toList hempty
        rw [String.toList_ofList] at hlist
        exact hblank hlist
      have hkept : ((trimList tail).isEmpty && !bs.isEmpty) = false := by simp [hblank]
      rw [hkept, if_pos (Or.inl hne)]
      rfl
  simp only [found, h, trim_ofList, hlast]

/-- There is a text before every code, so none has to be added. -/
theorem length_code_le_of_found (reply : String) :
    (found reply).code.length ≤ (found reply).text.length := by
  rw [found_eq rfl]
  simp

theorem padded_found (reply : String) : (found reply).padded = found reply := by
  rw [padded, if_neg (Nat.not_lt.mpr (length_code_le_of_found reply))]

/-- A code of a reply holds no fence. -/
theorem no_mark_in_code (reply : String) :
    ∀ code ∈ (ofReply reply).code, ¬ mark <:+: code.toList := by
  intro code hcode
  rw [ofReply, padded_found, found_eq rfl] at hcode
  obtain ⟨b, hb, rfl⟩ := List.mem_map.mp hcode
  rw [toList_trim, String.toList_ofList]
  exact fun hin => (parted_blocks _).no_mark_in_body b hb (hin.trans (infix_trimList b.body))

/-- **How a reply is parted.** A reply is prose and blocks in turn, and there is one way only to see
it so: blocks have a tag of letters and end at the first fence behind their first line, none could
have been opened further left, and the last prose holds no block. The codes are the trimmed bodies
of the blocks, the languages their tags, and the texts the trimmed prose before each of them, with
the last prose unless it is blank and there is a block. So

* there are as many languages as codes, and as many texts, or one more;
* no text has to be added to go before a code;
* a code holds no fence, and neither begins nor ends with a blank. -/
theorem reply_parted_exactly (reply : String) :
    ∃ bs tail, Parted reply.toList bs tail ∧
      (∀ bs' tail', Parted reply.toList bs' tail' → bs' = bs ∧ tail' = tail) ∧
      reply.toList = bs.flatMap Block.text ++ tail ∧
      (ofReply reply).code = bs.map (fun b => trim (String.ofList b.body)) ∧
      (ofReply reply).languages = bs.map (fun b => String.ofList b.tag) ∧
      (ofReply reply).text = bs.map (fun b => trim (String.ofList b.before)) ++
        (if trim (String.ofList tail) ≠ "" ∨ bs = [] then [trim (String.ofList tail)] else []) ∧
      (ofReply reply).languages.length = (ofReply reply).code.length ∧
      ((ofReply reply).text.length = (ofReply reply).code.length ∨
        (ofReply reply).text.length = (ofReply reply).code.length + 1) ∧
      ¬ (found reply).text.length < (found reply).code.length ∧
      ∀ code ∈ (ofReply reply).code, ¬ mark <:+: code.toList ∧
        (∀ c, code.toList.head? = some c → isBlank c = false) ∧
        ∀ c, code.toList.getLast? = some c → isBlank c = false := by
  obtain ⟨bs, tail, hblocks⟩ : ∃ bs tail, blocks reply.toList = (bs, tail) := ⟨_, _, rfl⟩
  have hparted : Parted reply.toList bs tail := blocks_eq_iff.mp hblocks
  have hparts := found_eq hblocks
  have hlength := length_code_le_of_found reply
  rw [ofReply, padded_found]
  refine ⟨bs, tail, hparted, fun bs' tail' h => ?_, hparted.text_eq, by rw [hparts], by rw [hparts],
    by rw [hparts, lastText], by rw [hparts]; simp, ?_, Nat.not_lt.mpr hlength, ?_⟩
  · have hsame := hblocks.symm.trans (blocks_eq_iff.mpr h)
    obtain ⟨rfl, rfl⟩ := Prod.mk.inj hsame
    exact ⟨rfl, rfl⟩
  · rw [hparts, lastText]
    split
    · exact .inr (by simp)
    · exact .inl (by simp)
  · intro code hcode
    rw [hparts] at hcode
    obtain ⟨b, hb, rfl⟩ := List.mem_map.mp hcode
    rw [toList_trim, String.toList_ofList]
    have hfence := hparted.no_mark_in_body b hb
    exact ⟨fun hin => hfence (hin.trans (infix_trimList b.body)),
      fun c h => isBlank_of_head?_trimList h, fun c h => isBlank_of_getLast?_trimList h⟩

/-- Four backticks: the fence is the last three of them where the line has to end there, and the
first three where the block does. -/
example : ofReply "````\nx\n````" = ⟨["\x60", "\x60"], ["x"], [""]⟩ := by
  decide +kernel

end Segments

end HeuristicEvolution

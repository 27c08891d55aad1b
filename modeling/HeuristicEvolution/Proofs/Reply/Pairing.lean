import HeuristicEvolution.Candidate.Basic
import HeuristicEvolution.Proofs.Reply.Writing

/-!
# Blocks whose fences pair up otherwise

A fence does not say whether it opens a block or closes one. A writer who puts more than letters
behind an opening fence, as in `c++`, has written a line that opens nothing, and from there on the
fences pair up otherwise: the closing fence of that block has an empty line behind it, so it opens a
block of prose, which the next opening fence closes. Nothing brings the fences back into step, since
every later closing fence is again one that can open.

Here replies are written line by line, with any info string behind an opening fence, and it is said
which codes are found in them. The blocks up to the first one with an odd info string are found as
they were written. After that the codes are the stretches of prose between the blocks, and the
bodies of the blocks are prose.

## Main definitions

* `Fence.Idle`: a text in which no block opens.
* `Segments.LinedBlock`, `Segments.LinedReply`: a reply written line by line.
* `Segments.LinedReply.recognised`, `Segments.LinedReply.misread`: the blocks before and from the
  first odd info string on.

## Main results

* `Fence.not_opens_line`: a line with an odd info string opens nothing.
* `Segments.exists_parted_misread`: what is found once a closing fence is taken for an opening one.
* `Segments.codes_of_lines`: the codes of a reply.
* `Segments.prose_taken_for_code`: a sentence becomes the code that is built.
-/

namespace HeuristicEvolution

namespace Fence

/-! ## Where no block opens -/

/-- No block opens in the text, with `rest` behind it. -/
def Idle (cs rest : List Char) : Prop :=
  ∀ left right, cs ++ rest = left ++ right → left.length < cs.length → ¬ Opens right

theorem mark_prefix_of_opens {cs : List Char} (h : Opens cs) : mark <+: cs := by
  obtain ⟨tag, body, rest, -, rfl⟩ := h
  exact ⟨tag ++ '\n' :: body ++ mark ++ rest, by simp⟩

theorem Unfenced.idle {cs : List Char} (h : Unfenced cs) (rest : List Char) : Idle cs rest := by
  intro left right heq hlt hopens
  obtain ⟨after, rfl⟩ := mark_prefix_of_opens hopens
  have hle : cs.length ≤ left.length := h.length_le (by rw [heq, List.append_assoc])
  omega

/-- What is cut off behind `xs` is cut off in what stands behind `xs`. -/
theorem exists_between {xs rest left right : List Char} (heq : xs ++ rest = left ++ right)
    (hle : xs.length ≤ left.length) : ∃ between, left = xs ++ between ∧ rest = between ++ right := by
  obtain ⟨between, rfl⟩ : xs <+: left :=
    List.prefix_of_prefix_length_le ⟨_, rfl⟩ ⟨right, heq.symm⟩ hle
  rw [List.append_assoc] at heq
  exact ⟨between, rfl, List.append_cancel_left heq⟩

theorem Idle.append {xs ys rest : List Char} (hxs : Idle xs (ys ++ rest)) (hys : Idle ys rest) :
    Idle (xs ++ ys) rest := by
  intro left right heq hlt hopens
  rw [List.append_assoc] at heq
  by_cases hin : left.length < xs.length
  · exact hxs left right heq hin hopens
  · obtain ⟨between, rfl, hbehind⟩ := exists_between heq (Nat.le_of_not_lt hin)
    rw [List.length_append, List.length_append] at hlt
    exact hys between right hbehind (by omega) hopens

/-- Three backticks with something else behind them are one fence, and it is at their head. -/
theorem idle_mark {rest : List Char} (hrest : rest.head? ≠ some '\x60')
    (hopens : ¬ Opens (mark ++ rest)) : Idle mark rest := by
  intro left right heq hlt
  match left with
  | [] =>
    rw [List.nil_append] at heq
    exact heq ▸ hopens
  | [_] =>
    intro h
    obtain ⟨after, rfl⟩ := mark_prefix_of_opens h
    simp only [mark, List.cons_append, List.nil_append, List.cons.injEq, true_and] at heq
    exact hrest (by rw [heq.2]; rfl)
  | [_, _] =>
    intro h
    obtain ⟨after, rfl⟩ := mark_prefix_of_opens h
    simp only [mark, List.cons_append, List.nil_append, List.cons.injEq, true_and] at heq
    exact hrest (by rw [heq.2.2]; rfl)
  | _ :: _ :: _ :: left =>
    simp only [mark, List.length_cons, List.length_nil] at hlt
    omega

theorem Idle.closed {xs ys : List Char} (hxs : Idle xs ys) (hys : Closed ys) :
    Closed (xs ++ ys) := by
  intro left right heq
  by_cases hin : left.length < xs.length
  · exact hxs left right heq hin
  · obtain ⟨between, rfl, hbehind⟩ := exists_between heq (Nat.le_of_not_lt hin)
    exact hys between right hbehind

/-- The last fence of a text opens nothing. -/
theorem closed_mark_append {rest : List Char} (hrest : rest.head? ≠ some '\x60')
    (hno : ¬ mark <:+: rest) : Closed (mark ++ rest) := by
  refine (idle_mark hrest ?_).closed (closed_of_no_mark hno)
  rintro ⟨tag, body, after, -, heq⟩
  simp only [List.append_assoc] at heq
  exact hno ⟨tag ++ '\n' :: body, after, by simp [List.append_cancel_left heq]⟩

theorem takeWhile_before_break {line : List Char} (h : '\n' ∉ line) (rest : List Char) :
    (line ++ '\n' :: rest).takeWhile (· ≠ '\n') = line := by
  have hall : ∀ c ∈ line, decide (c ≠ '\n') = true := by
    intro c hc
    have hne : c ≠ '\n' := fun heq => h (heq ▸ hc)
    simpa using hne
  rw [List.takeWhile_append_of_pos hall, List.takeWhile_cons_of_neg (by simp), List.append_nil]

/-- **A line with an odd info string opens nothing**: a block would have the letters of its tag up
to the end of that line. -/
theorem not_opens_line {info rest : List Char} (hbreak : '\n' ∉ info)
    (hodd : ¬ ∀ c ∈ info, IsLetter c) : ¬ Opens (mark ++ (info ++ '\n' :: rest)) := by
  rintro ⟨tag, body, after, htag, heq⟩
  simp only [List.append_assoc] at heq
  have hline : info ++ '\n' :: rest = tag ++ '\n' :: (body ++ (mark ++ after)) := by
    simpa using List.append_cancel_left heq
  have htagBreak : '\n' ∉ tag := fun hin => absurd (htag _ hin) (by decide)
  have hinfo : info = tag := by
    rw [← takeWhile_before_break hbreak rest, hline, takeWhile_before_break htagBreak]
  exact hodd (hinfo ▸ htag)

/-- A block is chosen if nothing opens in the prose before it and its body makes no fence. -/
theorem chosen_of_idle {b : Block} {rest : List Char} (htag : ∀ c ∈ b.tag, IsLetter c)
    (hbody : Unfenced b.body) (hidle : Idle b.before (b.fenced ++ rest)) : b.Chosen rest where
  tag_letters := htag
  closes_first := by
    have hclear : Block.Clear { b with before := [] } := ⟨htag, ⟨by simp [mark], by simp⟩, hbody⟩
    exact (hclear.chosen rest).closes_first
  opens_first left right heq := hidle left right (by rw [← heq, Block.text, List.append_assoc])

end Fence

/-! ## Replies line by line -/

namespace Segments

open Fence Text

/-- A text that ends a line makes no fence with the one behind it. -/
theorem unfenced_of_ended {s : String} (hno : ¬ mark <:+: s.toList)
    (hended : s = "" ∨ s.toList.getLast? = some '\n') : Unfenced s.toList := by
  refine ⟨hno, fun hend => ?_⟩
  rcases hended with hempty | hbreak
  · simp [hempty] at hend
  · exact absurd (hbreak.symm.trans hend) (by decide)

/-- A code block on lines of its own, and what stands behind it up to the next block or the end. -/
structure LinedBlock where
  /-- What stands behind the opening fence on its line. -/
  info : String
  body : String
  /-- The rest of the line of the closing fence, which is empty, and the prose on the next lines. -/
  behind : String
  info_line : ∀ c ∈ info.toList, c ≠ '\x60' ∧ c ≠ '\n'
  /-- The closing fence begins a line. -/
  body_ended : body = "" ∨ body.toList.getLast? = some '\n'
  body_no_mark : ¬ mark <:+: body.toList
  behind_begun : behind = "" ∨ behind.toList.head? = some '\n'
  behind_no_mark : ¬ mark <:+: behind.toList

namespace LinedBlock

/-- The opening line, the body, the closing fence, and what stands behind it. -/
def text (b : LinedBlock) : String := "```" ++ b.info ++ "\n" ++ b.body ++ "```" ++ b.behind

/-- The info string is a tag: it has letters only. -/
def Tagged (b : LinedBlock) : Bool := b.info.toList.all isTagChar

/-- What stands between the two fences. -/
def inner (b : LinedBlock) : List Char := b.info.toList ++ '\n' :: b.body.toList

theorem toList_text (b : LinedBlock) :
    b.text.toList = mark ++ (b.inner ++ (mark ++ b.behind.toList)) := by
  simp [text, inner, mark]

theorem break_not_mem_info (b : LinedBlock) : '\n' ∉ b.info.toList :=
  fun hin => (b.info_line _ hin).2 rfl

theorem tagged_iff {b : LinedBlock} : b.Tagged = true ↔ ∀ c ∈ b.info.toList, IsLetter c := by
  simp [Tagged, isTagChar_iff]

theorem head?_inner (b : LinedBlock) (rest : List Char) :
    (b.inner ++ rest).head? ≠ some '\x60' := by
  rw [inner]
  cases hinfo : b.info.toList with
  | nil => simp
  | cons c cs =>
    have hc := (b.info_line c (by rw [hinfo]; exact List.mem_cons_self)).1
    simpa using hc

theorem unfenced_body (b : LinedBlock) : Unfenced b.body.toList :=
  unfenced_of_ended b.body_no_mark b.body_ended

theorem unfenced_inner (b : LinedBlock) : Unfenced b.inner := by
  refine ⟨fun hin => ?_, fun hend => ?_⟩
  · rcases (infix_append_cons_iff (by decide)).mp hin with hinfo | hbody
    · exact (b.info_line _ (hinfo.subset List.mem_cons_self)).1 rfl
    · exact b.body_no_mark hbody
  · rw [inner, List.getLast?_append, List.getLast?_cons, Option.some_or] at hend
    cases hlast : b.body.toList.getLast? with
    | none => simp [hlast] at hend
    | some c => exact b.unfenced_body.apart (by simpa [hlast] using hend)

theorem head?_behind (b : LinedBlock) : b.behind.toList.head? ≠ some '\x60' := by
  intro hhead
  rcases b.behind_begun with hempty | hbreak
  · simp [hempty] at hhead
  · exact absurd (hbreak.symm.trans hhead) (by decide)

/-- Behind the closing fence of a block that is not the last one the next line begins, and what
stands behind it goes on to the end of a line. -/
theorem behind_eq {b : LinedBlock} (h : b.behind.toList.getLast? = some '\n') :
    ∃ prose, b.behind.toList = '\n' :: prose ∧ Unfenced prose := by
  rcases b.behind_begun with hempty | hbreak
  · simp [hempty] at h
  · obtain ⟨prose, hprose⟩ := List.head?_eq_some_iff.mp hbreak
    refine ⟨prose, hprose, fun hin => ?_, fun hend => ?_⟩
    · exact b.behind_no_mark (hprose ▸ hin.trans (List.suffix_cons _ _).isInfix)
    · rw [hprose, List.getLast?_cons, hend] at h
      exact absurd h (by decide)

end LinedBlock

/-- A reply that is written line by line: prose, and code blocks with prose behind each of them. A
block begins on a line of its own. -/
structure LinedReply where
  lead : String
  blocks : List LinedBlock
  lead_no_mark : ¬ mark <:+: lead.toList
  lead_ended : blocks ≠ [] → lead = "" ∨ lead.toList.getLast? = some '\n'
  behind_ended : ∀ b ∈ blocks.dropLast, b.behind.toList.getLast? = some '\n'

/-! ## How the fences pair up -/

/-- The characters of some blocks. -/
def blockText (bs : List LinedBlock) : List Char := bs.flatMap fun b => b.text.toList

theorem blockText_cons (b : LinedBlock) (bs : List LinedBlock) :
    blockText (b :: bs) = mark ++ (b.inner ++ (mark ++ (b.behind.toList ++ blockText bs))) := by
  rw [blockText, List.flatMap_cons, b.toList_text]
  simp only [List.append_assoc]
  rfl

/-- The codes and the languages of some blocks of a text. -/
def codesOf (bs : List Block) : List (String × String) :=
  bs.map fun b => (trim (String.ofList b.body), String.ofList b.tag)

/-- **From a closing fence on that is taken for an opening one**, the codes are the stretches of
prose between the blocks. -/
theorem exists_parted_misread {b : LinedBlock} {bs : List LinedBlock} {before : List Char}
    (hidle : Idle before (mark ++ (b.behind.toList ++ blockText bs)))
    (hended : ∀ c ∈ (b :: bs).dropLast, c.behind.toList.getLast? = some '\n') :
    ∃ found tail, Parted (before ++ (mark ++ (b.behind.toList ++ blockText bs))) found tail ∧
      codesOf found = (b :: bs).dropLast.map fun c => (trim c.behind, "") := by
  induction bs generalizing b before with
  | nil =>
    have hclosed : Closed (mark ++ b.behind.toList) :=
      closed_mark_append b.head?_behind b.behind_no_mark
    rw [blockText, List.flatMap_nil, List.append_nil] at hidle ⊢
    exact ⟨[], _, .prose (hidle.closed hclosed), rfl⟩
  | cons next bs ih =>
    obtain ⟨hfirst, hrest⟩ := List.forall_mem_cons.mp hended
    obtain ⟨prose, hprose, hunfenced⟩ := LinedBlock.behind_eq hfirst
    -- the opening fence of the next block closes, and its closing fence is the next to open
    have hinner : Idle next.inner (mark ++ (next.behind.toList ++ blockText bs)) :=
      next.unfenced_inner.idle _
    obtain ⟨found, tail, hparted, hcodes⟩ := ih hinner hrest
    let block : Block := ⟨before, [], prose⟩
    have htext : before ++ (mark ++ (b.behind.toList ++ blockText (next :: bs))) =
        block.text ++ (next.inner ++ (mark ++ (next.behind.toList ++ blockText bs))) := by
      simp [block, Block.text, Block.fenced, hprose, blockText_cons]
    have hchosen : block.Chosen (next.inner ++ (mark ++ (next.behind.toList ++ blockText bs))) := by
      refine chosen_of_idle (List.forall_mem_nil _) hunfenced ?_
      simpa [block, Block.fenced, hprose, blockText_cons] using hidle
    have htrim : trim (String.ofList prose) = trim b.behind := by
      have hbreak : trimList (['\n'] ++ prose ++ []) = trimList prose :=
        trimList_append (List.forall_mem_singleton.mpr (by decide)) (by simp) prose
      rw [List.append_nil] at hbreak
      rw [trim, trim, String.toList_ofList, hprose, ← hbreak]
      rfl
    refine ⟨block :: found, tail, htext ▸ .block hchosen hparted, ?_⟩
    rw [codesOf, List.map_cons, ← codesOf, hcodes, htrim]
    rfl

/-- **What is found in blocks and prose**: the bodies up to the first block that is not tagged, and
from there on the prose between the blocks. -/
theorem exists_parted_lines {bs : List LinedBlock} {before : List Char}
    (hno : ¬ mark <:+: before) (hbefore : bs ≠ [] → Unfenced before)
    (hended : ∀ b ∈ bs.dropLast, b.behind.toList.getLast? = some '\n') :
    ∃ found tail, Parted (before ++ blockText bs) found tail ∧
      codesOf found =
        (bs.takeWhile LinedBlock.Tagged).map (fun b => (trim b.body, b.info)) ++
          (bs.dropWhile LinedBlock.Tagged).dropLast.map fun b => (trim b.behind, "") := by
  induction bs generalizing before with
  | nil =>
    rw [blockText, List.flatMap_nil, List.append_nil]
    exact ⟨[], before, .prose (closed_of_no_mark hno), rfl⟩
  | cons b bs ih =>
    have hunfenced := hbefore (List.cons_ne_nil _ _)
    by_cases htagged : b.Tagged = true
    · have hbehind : bs ≠ [] → Unfenced b.behind.toList := by
        intro hbs
        have hb : b ∈ (b :: bs).dropLast := by
          rw [List.dropLast_cons_of_ne_nil hbs]
          exact List.mem_cons_self
        exact unfenced_of_ended b.behind_no_mark (.inr (hended b hb))
      have hrest : ∀ c ∈ bs.dropLast, c.behind.toList.getLast? = some '\n' := by
        intro c hc
        cases bs with
        | nil => cases hc
        | cons next bs => exact hended c (List.mem_cons_of_mem _ hc)
      obtain ⟨found, tail, hparted, hcodes⟩ := ih b.behind_no_mark hbehind hrest
      let block : Block := ⟨before, b.info.toList, b.body.toList⟩
      have hclear : block.Clear := ⟨LinedBlock.tagged_iff.mp htagged, hunfenced, b.unfenced_body⟩
      have htext : before ++ blockText (b :: bs) =
          block.text ++ (b.behind.toList ++ blockText bs) := by
        simp [block, Block.text, Block.fenced, blockText_cons, LinedBlock.inner]
      refine ⟨block :: found, tail, htext ▸ .block (hclear.chosen _) hparted, ?_⟩
      rw [codesOf, List.map_cons, ← codesOf, hcodes, List.takeWhile_cons_of_pos htagged,
        List.dropWhile_cons_of_pos htagged]
      simp [block]
    · have hodd : ¬ ∀ c ∈ b.info.toList, IsLetter c := mt LinedBlock.tagged_iff.mpr htagged
      have hline : Idle mark (b.inner ++ (mark ++ (b.behind.toList ++ blockText bs))) := by
        refine idle_mark (b.head?_inner _) ?_
        have hopens : ¬ Opens (mark ++ (b.info.toList ++
            '\n' :: (b.body.toList ++ (mark ++ (b.behind.toList ++ blockText bs))))) :=
          not_opens_line b.break_not_mem_info hodd
        simpa [LinedBlock.inner] using hopens
      have hidle : Idle (before ++ (mark ++ b.inner))
          (mark ++ (b.behind.toList ++ blockText bs)) :=
        (hunfenced.idle _).append (hline.append (b.unfenced_inner.idle _))
      obtain ⟨found, tail, hparted, hcodes⟩ := exists_parted_misread hidle hended
      refine ⟨found, tail, by simpa [blockText_cons] using hparted, ?_⟩
      rw [hcodes, List.takeWhile_cons_of_neg htagged, List.dropWhile_cons_of_neg htagged]
      rfl

namespace LinedReply

/-- The text of a reply. -/
def text (r : LinedReply) : String := r.lead ++ String.join (r.blocks.map LinedBlock.text)

/-- The blocks before the first one with an odd info string. -/
def recognised (r : LinedReply) : List LinedBlock := r.blocks.takeWhile LinedBlock.Tagged

/-- The blocks from the first one with an odd info string on. -/
def misread (r : LinedReply) : List LinedBlock := r.blocks.dropWhile LinedBlock.Tagged

theorem toList_text (r : LinedReply) : r.text.toList = r.lead.toList ++ blockText r.blocks := by
  rw [text, String.toList_append, blockText]
  congr 1
  induction r.blocks with
  | nil => rfl
  | cons b bs ih => simp [String.join_cons, ih]

/-- If no block but the last one has an odd info string, no prose stands behind a misread block and
before another one. -/
theorem dropLast_misread {r : LinedReply} (h : ∀ b ∈ r.blocks.dropLast, b.Tagged = true) :
    r.misread.dropLast = [] := by
  rw [misread]
  revert h
  induction r.blocks with
  | nil => exact fun _ => rfl
  | cons b bs ih =>
    intro h
    by_cases hlast : bs = []
    · subst hlast
      rw [List.dropWhile_cons, List.dropWhile_nil]
      split <;> rfl
    · rw [List.dropLast_cons_of_ne_nil hlast] at h
      obtain ⟨htagged, hrest⟩ := List.forall_mem_cons.mp h
      rw [List.dropWhile_cons_of_pos htagged]
      exact ih hrest

/-- The codes that are found in a reply, and their tags. -/
theorem exists_codes (r : LinedReply) : ∃ found tail, Fence.blocks r.text.toList = (found, tail) ∧
    codesOf found = r.recognised.map (fun b => (trim b.body, b.info)) ++
      r.misread.dropLast.map fun b => (trim b.behind, "") := by
  have hlead : r.blocks ≠ [] → Unfenced r.lead.toList := fun hbs =>
    unfenced_of_ended r.lead_no_mark (r.lead_ended hbs)
  obtain ⟨found, tail, hparted, hcodes⟩ :=
    exists_parted_lines r.lead_no_mark hlead r.behind_ended
  rw [← r.toList_text, ← blocks_eq_iff] at hparted
  exact ⟨found, tail, hparted, hcodes⟩

theorem code_eq (r : LinedReply) : (ofReply r.text).code =
    r.recognised.map (fun b => trim b.body) ++ r.misread.dropLast.map fun b => trim b.behind := by
  obtain ⟨found, tail, hparted, hcodes⟩ := r.exists_codes
  have hfst := congrArg (List.map Prod.fst) hcodes
  rw [codesOf, List.map_map, List.map_append, List.map_map, List.map_map] at hfst
  rw [ofReply, padded_found, found_eq hparted]
  exact hfst

theorem languages_eq (r : LinedReply) : (ofReply r.text).languages =
    r.recognised.map LinedBlock.info ++ r.misread.dropLast.map fun _ => "" := by
  obtain ⟨found, tail, hparted, hcodes⟩ := r.exists_codes
  have hsnd := congrArg (List.map Prod.snd) hcodes
  rw [codesOf, List.map_map, List.map_append, List.map_map, List.map_map] at hsnd
  rw [ofReply, padded_found, found_eq hparted]
  exact hsnd

end LinedReply

/-- **The codes of a reply that is written line by line**, with any info strings. They are the
trimmed bodies of the blocks before the first one whose info string is not all letters, and from
that block on the trimmed stretches of prose between one block and the next. The languages are the
info strings of the former, and empty for the latter.

So every code is the body of a block exactly if these stretches of prose happen to be bodies of
blocks as well, and in particular if no block but the last one has an odd info string. -/
theorem codes_of_lines (r : LinedReply) :
    (ofReply r.text).code =
        r.recognised.map (fun b => trim b.body) ++ r.misread.dropLast.map (fun b => trim b.behind) ∧
      (ofReply r.text).languages =
        r.recognised.map LinedBlock.info ++ r.misread.dropLast.map (fun _ => "") ∧
      ((∀ code ∈ (ofReply r.text).code, ∃ b ∈ r.blocks, code = trim b.body) ↔
        ∀ b ∈ r.misread.dropLast, ∃ c ∈ r.blocks, trim b.behind = trim c.body) ∧
      ((∀ b ∈ r.blocks.dropLast, b.Tagged = true) →
        ∀ code ∈ (ofReply r.text).code, ∃ b ∈ r.blocks, code = trim b.body) := by
  have hbodies : (∀ code ∈ (ofReply r.text).code, ∃ b ∈ r.blocks, code = trim b.body) ↔
      ∀ b ∈ r.misread.dropLast, ∃ c ∈ r.blocks, trim b.behind = trim c.body := by
    rw [r.code_eq]
    constructor
    · intro hall b hb
      exact hall _ (List.mem_append_right _ (List.mem_map_of_mem hb))
    · intro hall code hmem
      rcases List.mem_append.mp hmem with hbody | hbehind
      · obtain ⟨b, hb, rfl⟩ := List.mem_map.mp hbody
        exact ⟨b, (List.takeWhile_prefix _).subset hb, rfl⟩
      · obtain ⟨b, hb, rfl⟩ := List.mem_map.mp hbehind
        exact hall b hb
  refine ⟨r.code_eq, r.languages_eq, hbodies, fun htagged => hbodies.mpr fun b hb => ?_⟩
  rw [LinedReply.dropLast_misread htagged] at hb
  cases hb

/-- A block with the info string `c++`, and prose on the lines behind it. -/
def plusBlock (body behind : String)
    (hbody : (body = "" ∨ body.toList.getLast? = some '\n') ∧ ¬ mark <:+: body.toList)
    (hbehind : (behind = "" ∨ behind.toList.head? = some '\n') ∧ ¬ mark <:+: behind.toList) :
    LinedBlock :=
  ⟨"c++", body, behind, by simp, hbody.1, hbody.2, hbehind.1, hbehind.2⟩

/-- Two blocks of `c++`, with prose between them. -/
def plusReply : LinedReply where
  lead := ""
  blocks := [plusBlock "int a;\n" "\nBut slow.\n" (by decide) (by decide),
    plusBlock "int b;\n" "" (by decide) (by decide)]
  lead_no_mark := by decide
  lead_ended := by decide
  behind_ended := by decide

/-- No block of the reply is recognised, and the prose between the two is no body of a block, so not
every code is. -/
theorem codes_of_lines_plus :
    plusReply.recognised = [] ∧ plusReply.misread.length = 2 ∧
      (ofReply plusReply.text).languages = [""] ∧
      ¬ ∀ code ∈ (ofReply plusReply.text).code, ∃ b ∈ plusReply.blocks, code = trim b.body := by
  obtain ⟨-, hlanguages, hbodies, -⟩ := codes_of_lines plusReply
  refine ⟨rfl, rfl, hlanguages, fun hall => ?_⟩
  obtain ⟨c, hc, heq⟩ := hbodies.mp hall _ List.mem_cons_self
  have hnot : ∀ b ∈ plusReply.blocks, trim "\nBut slow.\n" ≠ trim b.body := by decide +kernel
  exact hnot c hc heq

/-- **Prose is taken for code**: the sentence between the blocks is the only code, and it is what
would be built. -/
theorem prose_taken_for_code :
    plusReply.text = "```c++\nint a;\n```\nBut slow.\n```c++\nint b;\n```" ∧
      (ofReply plusReply.text).code = ["But slow."] ∧
      (∀ b ∈ plusReply.blocks, "But slow." ≠ trim b.body) ∧
      ∀ usage, (Response.ofReply plusReply.text usage).primaryCode = some "But slow." := by
  have hcode : (ofReply plusReply.text).code = ["But slow."] := by
    rw [plusReply.code_eq]
    decide +kernel
  refine ⟨by decide +kernel, hcode, by decide +kernel, ?_⟩
  intro usage
  show (ofReply plusReply.text).code.head?.filter _ = _
  rw [hcode]
  rfl

end Segments

end HeuristicEvolution

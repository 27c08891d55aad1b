import HeuristicEvolution.Proofs.Reply.Parting

/-!
# Replies that are written

A reply can be read only if it is known where its fences stand. A passage without three backticks in
a row holds no fence, but it may end with one or two backticks, and these would make one together
with a fence right behind it. So a passage is kept apart from the fence that follows by a blank, and
then the fences of the reply are the ones that were written. What stands behind a fence needs no
such care: the search takes the first three backticks, and what is left over is prose.

`Fence.parted_of_clear` says this for blocks, and everything that is written in fences is read back
by it.

## Main definitions

* `Fence.Unfenced`: a text that makes no fence, by itself or with what comes next.
* `Fence.Block.Clear`: a block whose prose and body are such texts.
* `Segments.Passage`, `Segments.Section`: prose and code with the blanks around them.
* `Segments.write`: a reply made of sections and a last passage.

## Main results

* `Fence.parted_of_clear`
* `Segments.written_reply_parted`
-/

namespace HeuristicEvolution

namespace Fence

open Text (isBlank)

/-! ## Where a fence can stand -/

/-- What holds no `c` stands on one side of it. -/
theorem infix_append_cons_iff {α : Type} {sep xs ys : List α} {c : α} (hc : c ∉ sep) :
    sep <:+: xs ++ c :: ys ↔ sep <:+: xs ∨ sep <:+: ys := by
  constructor
  · rintro ⟨left, right, h⟩
    rw [List.append_assoc] at h
    rcases List.append_eq_append_iff.mp h with ⟨between, hxs, hsep⟩ | ⟨between, hleft, hys⟩
    · rcases List.append_eq_append_iff.mp hsep with ⟨after, hbetween, -⟩ | ⟨after, hsep, hright⟩
      · exact .inl ⟨left, after, by rw [hxs, hbetween, List.append_assoc]⟩
      · cases after with
        | nil => exact .inl ⟨left, [], by rw [hxs, hsep, List.append_nil, List.append_nil]⟩
        | cons d after =>
          obtain ⟨rfl, -⟩ := List.cons.inj hright
          exact absurd (by rw [hsep]; simp) hc
    · cases between with
      | nil =>
        cases sep with
        | nil => exact .inl ⟨[], xs, rfl⟩
        | cons d sep =>
          obtain ⟨rfl, -⟩ := List.cons.inj hys
          exact absurd List.mem_cons_self hc
      | cons d between =>
        obtain ⟨-, hys⟩ := List.cons.inj hys
        exact .inr ⟨between, right, by rw [hys, List.append_assoc, List.append_eq]⟩
  · rintro (⟨left, right, rfl⟩ | ⟨left, right, rfl⟩)
    · exact ⟨left, right ++ c :: ys, by simp⟩
    · exact ⟨xs ++ c :: left, right, by simp⟩

theorem eq_of_mem_mark {c : Char} (h : c ∈ mark) : c = '\x60' := by
  simpa [mark] using h

theorem not_mem_mark_of_isBlank {c : Char} (h : isBlank c = true) : c ∉ mark := by
  intro hmem
  rw [eq_of_mem_mark hmem] at h
  exact absurd h (by decide)

/-- Blanks before a text make no fence with it. -/
theorem mark_infix_of_lead {lead cs : List Char} (h : ∀ c ∈ lead, isBlank c = true)
    (hin : mark <:+: lead ++ cs) : mark <:+: cs := by
  induction lead with
  | nil => exact hin
  | cons c rest ih =>
    obtain ⟨hc, hrest⟩ := List.forall_mem_cons.mp h
    have hsplit : mark <:+: [] ++ c :: (rest ++ cs) := hin
    rcases (infix_append_cons_iff (not_mem_mark_of_isBlank hc)).mp hsplit with hnone | hlater
    · exact absurd (List.infix_nil.mp hnone) (by decide)
    · exact ih hrest hlater

/-- Nor do blanks behind it. -/
theorem mark_infix_of_trail {cs trail : List Char} (h : ∀ c ∈ trail, isBlank c = true)
    (hin : mark <:+: cs ++ trail) : mark <:+: cs := by
  cases trail with
  | nil => rwa [List.append_nil] at hin
  | cons c rest =>
    obtain ⟨hc, hrest⟩ := List.forall_mem_cons.mp h
    rcases (infix_append_cons_iff (not_mem_mark_of_isBlank hc)).mp hin with hfront | hblanks
    · exact hfront
    · rw [← List.append_nil rest] at hblanks
      exact (mark_infix_of_lead hrest hblanks).trans (List.nil_infix)

/-- The text holds no fence, and makes none with what comes next. -/
structure Unfenced (cs : List Char) : Prop where
  no_mark : ¬ mark <:+: cs
  apart : cs.getLast? ≠ some '\x60'

/-- A fence begins behind such a text at the earliest. -/
theorem Unfenced.length_le {cs rest left right : List Char} (h : Unfenced cs)
    (heq : cs ++ rest = left ++ mark ++ right) : cs.length ≤ left.length := by
  rw [List.append_assoc] at heq
  rcases List.append_eq_append_iff.mp heq with ⟨between, hleft, -⟩ | ⟨between, hcs, hmark⟩
  · rw [hleft, List.length_append]
    exact Nat.le_add_right _ _
  · rcases List.append_eq_append_iff.mp hmark with ⟨after, hbetween, -⟩ | ⟨after, hsplit, -⟩
    · exact absurd ⟨left, after, by rw [hcs, hbetween, List.append_assoc]⟩ h.no_mark
    · -- the last character of the text would be one of the fence
      cases hlast : between.getLast? with
      | none => rw [hcs, List.getLast?_eq_none_iff.mp hlast, List.append_nil]
      | some c =>
        have hmem : c ∈ mark := by
          rw [hsplit]
          exact List.mem_append_left _ (List.mem_of_getLast? hlast)
        have hend : cs.getLast? = some '\x60' := by
          rw [hcs, List.getLast?_append, hlast, eq_of_mem_mark hmem, Option.some_or]
        exact absurd hend h.apart

/-- The prose and the body of the block make no fence but the two of the block. -/
structure Block.Clear (b : Block) : Prop where
  tag_letters : ∀ c ∈ b.tag, IsLetter c
  before : Unfenced b.before
  body : Unfenced b.body

/-- A clear block is chosen, whatever stands behind it. -/
theorem Block.Clear.chosen {b : Block} (h : b.Clear) (rest : List Char) : b.Chosen rest where
  tag_letters := h.tag_letters
  closes_first left right heq := by
    have hle := h.body.length_le heq
    have hlength := congrArg List.length heq
    simp only [List.length_append] at hlength
    rw [List.append_assoc] at heq
    exact (List.append_inj_left heq (by omega)).symm
  opens_first left right heq hlt := by
    rintro ⟨tag, body, after, -, rfl⟩
    have hmark : b.before ++ (b.fenced ++ rest)
        = left ++ mark ++ (tag ++ '\n' :: body ++ mark ++ after) := by
      simpa [Block.text] using heq
    exact absurd (h.before.length_le hmark) (Nat.not_le.mpr hlt)

theorem closed_of_no_mark {cs : List Char} (h : ¬ mark <:+: cs) : Closed cs := by
  rintro left right rfl ⟨tag, body, rest, -, rfl⟩
  exact h ⟨left, tag ++ '\n' :: body ++ mark ++ rest, by simp⟩

/-- **What is written in fences is read back.** -/
theorem parted_of_clear {bs : List Block} {tail : List Char} (hbs : ∀ b ∈ bs, b.Clear)
    (htail : ¬ mark <:+: tail) : Parted (bs.flatMap Block.text ++ tail) bs tail := by
  induction bs with
  | nil => exact .prose (closed_of_no_mark htail)
  | cons b rest ih =>
    obtain ⟨hfirst, hrest⟩ := List.forall_mem_cons.mp hbs
    rw [List.flatMap_cons, List.append_assoc]
    exact .block (hfirst.chosen _) (ih hrest)

end Fence

/-! ## Sections of a reply -/

namespace Segments

open Fence Text

/-- Prose or code as it stands in a reply: a trimmed text without a fence, and the blanks before and
behind it. -/
structure Passage where
  lead : String
  text : String
  trail : String
  lead_blank : ∀ c ∈ lead.toList, isBlank c = true
  trail_blank : ∀ c ∈ trail.toList, isBlank c = true
  trimmed : trim text = text
  no_mark : ¬ mark <:+: text.toList

namespace Passage

/-- The passage with its blanks. -/
def written (p : Passage) : String := p.lead ++ p.text ++ p.trail

/-- A blank keeps the passage apart from what comes next, unless there is nothing to keep apart. -/
def Apart (p : Passage) : Prop := p.text = "" ∨ p.trail ≠ ""

theorem trim_written (p : Passage) : trim p.written = p.text := by
  have htext : trim p.text = p.text := p.trimmed
  rw [trim, written, String.toList_append, String.toList_append,
    trimList_append p.lead_blank p.trail_blank]
  exact htext

/-- Blanks make no fence with the text of a passage. -/
theorem no_mark_written (p : Passage) : ¬ mark <:+: p.written.toList := by
  simp only [written, String.toList_append]
  intro hin
  have hfront := mark_infix_of_trail p.trail_blank hin
  exact p.no_mark (mark_infix_of_lead p.lead_blank hfront)

/-- A passage that is kept apart makes no fence with the one that comes next. -/
theorem unfenced_written {p : Passage} (h : p.Apart) : Unfenced p.written.toList := by
  refine ⟨p.no_mark_written, fun hend => ?_⟩
  have hblank : isBlank '\x60' = true := by
    simp only [written, String.toList_append, List.getLast?_append, Option.or_eq_some_iff] at hend
    rcases hend with htrail | ⟨hnone, htext | ⟨-, hlead⟩⟩
    · exact p.trail_blank _ (List.mem_of_getLast? htrail)
    · have htrail : p.trail = "" := String.toList_eq_nil_iff.mp (List.getLast?_eq_none_iff.mp hnone)
      rw [h.resolve_right (not_not.mpr htrail)] at htext
      exact absurd htext (by simp)
    · exact p.lead_blank _ (List.mem_of_getLast? hlead)
  exact absurd hblank (by decide)

end Passage

/-- Prose and the code block that comes next. -/
structure Section where
  prose : Passage
  tag : String
  code : Passage
  prose_apart : prose.Apart
  tag_letters : ∀ c ∈ tag.toList, IsLetter c
  code_apart : code.Apart

namespace Section

/-- The prose, a fence with the tag, the code on the lines behind it, and a fence. -/
def written (s : Section) : String :=
  s.prose.written ++ "```" ++ s.tag ++ "\n" ++ s.code.written ++ "```"

def block (s : Section) : Block := ⟨s.prose.written.toList, s.tag.toList, s.code.written.toList⟩

theorem toList_written (s : Section) : s.written.toList = s.block.text := by
  simp [written, block, Block.text, Block.fenced, mark]

theorem clear_block (s : Section) : s.block.Clear where
  tag_letters := s.tag_letters
  before := Passage.unfenced_written s.prose_apart
  body := Passage.unfenced_written s.code_apart

end Section

/-- A reply of sections, with prose behind the last of them. -/
def write (ss : List Section) (last : Passage) : String :=
  String.join (ss.map Section.written) ++ last.written

theorem toList_write (ss : List Section) (last : Passage) :
    (write ss last).toList = (ss.map Section.block).flatMap Block.text ++ last.written.toList := by
  rw [write, String.toList_append, List.flatMap_map]
  congr 1
  induction ss with
  | nil => rfl
  | cons s ss ih => simp [String.join_cons, Section.toList_written, ih]

/-- Blocks that are clear are what is found in a reply made of them. -/
theorem ofReply_of_clear {reply : String} {bs : List Block} {tail : List Char}
    (hreply : reply.toList = bs.flatMap Block.text ++ tail) (hbs : ∀ b ∈ bs, b.Clear)
    (htail : ¬ mark <:+: tail) :
    ofReply reply =
      { text := bs.map (fun b => trim (String.ofList b.before)) ++ lastText bs tail
        code := bs.map fun b => trim (String.ofList b.body)
        languages := bs.map fun b => String.ofList b.tag } := by
  have hblocks : blocks reply.toList = (bs, tail) := by
    rw [blocks_eq_iff, hreply]
    exact parted_of_clear hbs htail
  rw [ofReply, padded_found, found_eq hblocks]

/-- **A written reply is read back.** Whatever trimmed prose and codes without a fence are written,
with any tags of letters and any blanks between them and the fences, splitting the reply gives the
codes and the tags in their order, and the prose before each code and behind the last one, which is
left out exactly if it is empty and there is a code before it.

A fence stands on a line of its own if the blanks behind the prose or code before it end with a line
break, and if the blanks before what comes behind a closing fence begin with one. -/
theorem written_reply_parted (ss : List Section) (last : Passage) :
    ofReply (write ss last) =
      { text := ss.map (fun s => s.prose.text) ++
          if last.text = "" ∧ 0 < ss.length then [] else [last.text]
        code := ss.map fun s => s.code.text
        languages := ss.map fun s => s.tag } := by
  have hclear : ∀ b ∈ ss.map Section.block, b.Clear := by
    intro b hb
    obtain ⟨s, -, rfl⟩ := List.mem_map.mp hb
    exact s.clear_block
  have hlast : lastText (ss.map Section.block) last.written.toList
      = if last.text = "" ∧ 0 < ss.length then [] else [last.text] := by
    rw [lastText, String.ofList_toList, last.trim_written]
    by_cases hempty : last.text = "" <;> cases ss <;> simp [hempty]
  rw [ofReply_of_clear (toList_write ss last) hclear last.no_mark_written, hlast]
  simp [Section.block, Passage.trim_written]

/-- Prose on a line of its own. -/
def Passage.line (text : String) (htext : trim text = text ∧ ¬ mark <:+: text.toList) : Passage where
  lead := "\n"
  text := text
  trail := "\n"
  lead_blank := List.all_eq_true.mp (by decide)
  trail_blank := List.all_eq_true.mp (by decide)
  trimmed := htext.1
  no_mark := htext.2

/-- Prose, then code with a tag, each on lines of its own. -/
def Section.lines (prose tag code : String) (hprose : trim prose = prose ∧ ¬ mark <:+: prose.toList)
    (htag : tag.toList.all isTagChar = true) (hcode : trim code = code ∧ ¬ mark <:+: code.toList) :
    Section where
  prose := .line prose hprose
  tag := tag
  code := .line code hcode
  prose_apart := .inr (show "\n" ≠ "" by decide)
  tag_letters c hc := isTagChar_iff.mp (List.all_eq_true.mp htag c hc)
  code_apart := .inr (show "\n" ≠ "" by decide)

/-- Two blocks with prose around them; what ends with backticks and what holds a fence of two is
read back as it was written. -/
theorem written_reply_parted_two_blocks :
    let ss : List Section :=
      [.lines "Faster:" "c" "int a;" (by decide +kernel) (by decide) (by decide +kernel),
        .lines "or \x60\x60" "" "int `b;" (by decide +kernel) (by decide) (by decide +kernel)]
    let last : Passage := .line "as you like." (by decide +kernel)
    let reply := "\nFaster:\n```c\n\nint a;\n```\nor \x60\x60\n```\n\nint `b;\n```\nas you like.\n"
    write ss last = reply ∧
      ofReply reply =
        ⟨["Faster:", "or \x60\x60", "as you like."], ["int a;", "int `b;"], ["c", ""]⟩ := by
  intro ss last reply
  have hwrite : write ss last = reply := by decide +kernel
  refine ⟨hwrite, ?_⟩
  rw [← hwrite, written_reply_parted]
  decide +kernel

/-- Backticks next to the fences, on the same lines or alone: they stay with the prose and codes. -/
example : ofReply "a``\n```c\n`b``\n````" = ⟨["a``", "\x60"], ["`b``"], ["c"]⟩ := by
  decide +kernel

end Segments

end HeuristicEvolution

import HeuristicEvolution.Text.Blank

/-!
# Replies with fenced code

A model answers in prose with fenced code blocks. A block opens with three backticks, a tag of
ASCII letters and a line break; it closes at the next three backticks, wherever they stand.
`Segments.ofReply` parts a reply into its blocks and the prose around them.

A fence whose line holds anything but letters opens nothing, and an opening fence that is never
closed is prose.

## Main definitions

* `nextBlock?`: the first block of a text, with the text around it.
* `blocks`: all blocks, with the text after the last one.
* `Segments.ofReply`: the trimmed parts.
-/

namespace HeuristicEvolution

namespace Fence

/-- The mark that opens and closes a block: three backticks. -/
def mark : List Char := ['\x60', '\x60', '\x60']

/-- A tag is made of ASCII letters. -/
def isTagChar (c : Char) : Bool := c.isAlpha

/-- The text before the first fence, and the text after that fence. -/
def splitAtMark : List Char → Option (List Char × List Char)
  | [] => none
  | c :: cs =>
    match mark.isPrefixOf (c :: cs) with
    | true => some ([], cs.drop 2)
    | false => (splitAtMark cs).map fun (before, after) => (c :: before, after)

theorem splitAtMark_length {cs a b : List Char} (h : splitAtMark cs = some (a, b)) :
    b.length < cs.length := by
  induction cs generalizing a b with
  | nil => simp [splitAtMark] at h
  | cons c cs ih =>
    rw [splitAtMark] at h
    split at h
    · simp only [Option.some.injEq, Prod.mk.injEq] at h
      rw [← h.2]
      simp only [List.length_drop, List.length_cons]
      omega
    · obtain ⟨⟨a', b'⟩, h1, h2⟩ := Option.map_eq_some_iff.1 h
      simp only [Prod.mk.injEq] at h2
      have := ih h1
      rw [← h2.2]
      simp only [List.length_cons]
      omega

/-- A block as it stands in a text: the text before its fence, its tag and its body, untrimmed. -/
structure Block where
  before : List Char
  tag : List Char
  body : List Char
  deriving DecidableEq, Repr, Inhabited

/-- The block that opens at the head of the text, and the text after it. -/
def blockAtHead? (cs : List Char) : Option (Block × List Char) :=
  if mark.isPrefixOf cs then
    let line := cs.drop 3
    match line.dropWhile isTagChar with
    | '\n' :: rest =>
      (splitAtMark rest).map fun (body, after) => (⟨[], line.takeWhile isTagChar, body⟩, after)
    | _ => none
  else
    none

theorem length_dropWhile_le (p : Char → Bool) (cs : List Char) :
    (cs.dropWhile p).length ≤ cs.length := by
  induction cs with
  | nil => simp
  | cons c cs ih => rw [List.dropWhile_cons]; split <;> simp only [List.length_cons] <;> omega

theorem blockAtHead?_length {cs after : List Char} {b : Block}
    (h : blockAtHead? cs = some (b, after)) : after.length < cs.length := by
  rw [blockAtHead?] at h
  split at h
  · simp only at h
    split at h
    · next rest hr =>
      obtain ⟨⟨body, a⟩, h1, h2⟩ := Option.map_eq_some_iff.1 h
      simp only [Prod.mk.injEq] at h2
      have h3 := splitAtMark_length h1
      have h4 := length_dropWhile_le isTagChar (cs.drop 3)
      rw [hr] at h4
      simp only [List.length_cons, List.length_drop] at h4
      rw [← h2.2]
      omega
    · simp at h
  · simp at h

/-- The first block of a text, and the text after it: no block opens further left. -/
def nextBlock? : List Char → Option (Block × List Char)
  | [] => none
  | c :: cs =>
    match blockAtHead? (c :: cs) with
    | some found => some found
    | none => (nextBlock? cs).map fun (b, after) => ({ b with before := c :: b.before }, after)

theorem nextBlock?_length {cs after : List Char} {b : Block}
    (h : nextBlock? cs = some (b, after)) : after.length < cs.length := by
  induction cs generalizing b after with
  | nil => simp [nextBlock?] at h
  | cons c cs ih =>
    rw [nextBlock?] at h
    split at h
    · next found hf =>
      simp only [Option.some.injEq] at h
      exact blockAtHead?_length (h ▸ hf)
    · obtain ⟨⟨b', a⟩, h1, h2⟩ := Option.map_eq_some_iff.1 h
      simp only [Prod.mk.injEq] at h2
      have := ih h1
      rw [← h2.2]
      simp only [List.length_cons]
      omega

/-- All blocks of a text in order, and the text after the last one. -/
def blocks (cs : List Char) : List Block × List Char :=
  match h : nextBlock? cs with
  | none => ([], cs)
  | some (b, after) =>
    have : after.length < cs.length := nextBlock?_length h
    let rest := blocks after
    (b :: rest.1, rest.2)
termination_by cs.length

end Fence

/-! ## Segments -/

/-- A reply parted into prose and code. The text at a position precedes the code at that
position; a last text follows the last code. -/
structure Segments where
  text : List String
  code : List String
  languages : List String
  deriving DecidableEq, Repr, Inhabited

namespace Segments

/-- The parts of a reply as they are found, trimmed. Prose before a block is kept even when it is
empty; prose after the last block only when it is not, or when the reply has no block at all. -/
def found (reply : String) : Segments :=
  let (bs, trailing) := Fence.blocks reply.toList
  let last := Text.trimList trailing
  { text := bs.map (fun b => String.ofList (Text.trimList b.before))
      ++ (if last.isEmpty && !bs.isEmpty then [] else [String.ofList last])
    code := bs.map fun b => String.ofList (Text.trimList b.body)
    languages := bs.map fun b => String.ofList b.tag }

/-- Should there be more codes than texts, an empty text is put first. -/
def padded (s : Segments) : Segments :=
  if s.text.length < s.code.length then { s with text := "" :: s.text } else s

/-- Every part of a reply. -/
def ofReply (reply : String) : Segments := (found reply).padded

end Segments

end HeuristicEvolution

import HeuristicEvolution.Prompt.Basic
import HeuristicEvolution.Proofs.Evolution.Attempts
import HeuristicEvolution.Proofs.Evolution.Lineage
import HeuristicEvolution.Proofs.Ledger.Selection
import HeuristicEvolution.Proofs.Reply.CommentRemoval

/-!
# Versions in a mutation prompt

A mutation prompt shows the parents of a generation in fences. Nobody escapes anything there, so a
code with a fence of its own would end its block early and spill over into the prompt. That this
does not happen has a reason in each of three places: the body of a block ends at the first fence,
so no code of a reply holds one; a comment leaves a blank when it is taken out, and no fence can
stand across a blank; and each code is followed by a line break before its block is closed.

## Main definitions

* `Prompt.versionText`: what is read in the block of a version.
* `Prompt.Readable`: the blocks of some codes are read as these codes.
* `Ledger.Fenceless`: no row has a code with a fence.

## Main results

* `Comment.mark_infix_of_stripComments`: taking comments out makes no fence.
* `Prompt.readable_of_no_mark`
* `Evolution.fenceless_ledgerAfter`
* `Evolution.parents_readable`
-/

namespace HeuristicEvolution

open Fence Text

/-! ## Taking comments out -/

namespace Comment

/-- **Taking comments out makes no fence.** -/
theorem mark_infix_of_stripComments {code : String}
    (h : mark <:+: (stripComments code).toList) : mark <:+: code.toList := by
  rw [stripComments, String.toList_ofList] at h
  exact infix_of_infix_stripped (by decide) h

end Comment

/-! ## The blocks of the versions -/

namespace Prompt

open Comment

/-- A code as a mutation prompt shows it. -/
def shown (code : String) : String := trim (stripComments code)

/-- The lines of a version, between its fences. -/
def versionLines (number : Nat) (code : String) : String :=
  "// Version " ++ toString number ++ "\n" ++ shown code ++ "\n"

/-- What is read in the block of a version: the line with its number, and behind it the code, if
anything is left of it. -/
def versionText (number : Nat) (code : String) : String :=
  "// Version " ++ toString number ++ if shown code = "" then "" else "\n" ++ shown code

theorem no_mark_shown {code : String} (h : ¬ mark <:+: code.toList) :
    ¬ mark <:+: (shown code).toList := by
  rw [shown, toList_trim]
  exact fun hin => h (mark_infix_of_stripComments (hin.trans (infix_trimList _)))

theorem toList_number (number : Nat) : (toString number).toList = Nat.toDigits 10 number :=
  Nat.toList_repr

/-- The characters of a number are digits. -/
theorem isDigit_of_mem_number {number : Nat} {c : Char} (h : c ∈ (toString number).toList) :
    c.isDigit = true := by
  rw [toList_number] at h
  exact Nat.isDigit_of_mem_toDigits (by decide) (by decide) h

/-- A fence in the lines of a version is one in the code. -/
theorem no_mark_versionLines {code : String} (h : ¬ mark <:+: code.toList) (number : Nat) :
    ¬ mark <:+: (versionLines number code).toList := by
  have hbreak : '\n' ∉ mark := by decide
  have hlines : (versionLines number code).toList
      = ("// Version " ++ toString number).toList ++ '\n' :: ((shown code).toList ++ '\n' :: []) := by
    simp [versionLines]
  rw [hlines, infix_append_cons_iff hbreak, infix_append_cons_iff hbreak]
  rintro (hnumber | hcode | hend)
  · -- a backtick is neither a digit nor one of the characters before the number
    have hmem : '\x60' ∈ ("// Version " ++ toString number).toList :=
      hnumber.subset List.mem_cons_self
    rw [String.toList_append, List.mem_append] at hmem
    rcases hmem with hword | hdigit
    · exact absurd hword (by decide)
    · exact absurd (isDigit_of_mem_number hdigit) (by decide)
  · exact no_mark_shown h hcode
  · exact absurd (hend.subset List.mem_cons_self) List.not_mem_nil

/-- The number of a version ends its line. -/
theorem isBlank_of_getLast?_number {number : Nat} {c : Char}
    (h : ("// Version " ++ toString number).toList.getLast? = some c) : isBlank c = false := by
  have hdigits : (toString number).toList ≠ [] := by
    rw [toList_number]
    exact Nat.toDigits_ne_nil
  rw [String.toList_append, List.getLast?_append_of_ne_nil _ hdigits] at h
  exact isBlank_of_isDigit (isDigit_of_mem_number (List.mem_of_getLast? h))

/-- What is read in the block of a version begins and ends without a blank. -/
theorem trimList_versionText (number : Nat) (code : String) :
    trimList (versionText number code).toList = (versionText number code).toList := by
  refine trimList_eq_self (fun c hc => ?_) (fun c hc => ?_)
  · have hslash : (versionText number code).toList.head? = some '/' := by simp [versionText]
    obtain rfl : '/' = c := Option.some.inj (hslash.symm.trans hc)
    decide
  · rw [versionText] at hc
    by_cases hempty : shown code = ""
    · rw [if_pos hempty, String.append_empty] at hc
      exact isBlank_of_getLast?_number hc
    · have hcode : (shown code).toList ≠ [] := mt String.toList_eq_nil_iff.mp hempty
      rw [if_neg hempty, ← String.append_assoc, String.toList_append,
        List.getLast?_append_of_ne_nil _ hcode, shown, toList_trim] at hc
      exact isBlank_of_getLast?_trimList hc

theorem trim_versionLines (number : Nat) (code : String) :
    trim (versionLines number code) = versionText number code := by
  have hlines : versionLines number code
      = versionText number code ++ if shown code = "" then "\n\n" else "\n" := by
    by_cases hempty : shown code = ""
    · rw [versionLines, versionText, if_pos hempty, if_pos hempty, hempty]
      simp [String.append_assoc]
    · rw [versionLines, versionText, if_neg hempty, if_neg hempty]
      simp [String.append_assoc]
  have hbreaks : ∀ c ∈ (if shown code = "" then "\n\n" else "\n").toList, isBlank c = true := by
    intro c hc
    obtain rfl : c = '\n' := by
      by_cases hempty : shown code = ""
      · simpa [hempty] using hc
      · simpa [hempty] using hc
    decide
  have hnothing : ∀ c ∈ ([] : List Char), isBlank c = true := by simp
  have htrim := trimList_append hnothing hbreaks (versionText number code).toList
  rw [List.nil_append, ← String.toList_append, ← hlines, trimList_versionText] at htrim
  rw [trim, htrim, String.ofList_toList]

/-- The block of a version, behind the line break that ends the block before. -/
def versionFence (lang : String) (number : Nat) (code : String) : Block :=
  ⟨if number = 0 then [] else ['\n'], lang.toList, (versionLines number code).toList⟩

/-- What stands behind the last block. -/
def versionTail (codes : List String) : List Char := if codes = [] then [] else ['\n']

theorem toList_versionBlock (lang : String) (number : Nat) (code : String) :
    (versionFence lang number code).before ++ (versionBlock lang number code).toList
      = (versionFence lang number code).text ++ ['\n'] := by
  simp [versionBlock, versionFence, versionLines, shown, Block.text, Block.fenced, mark]

theorem toList_versionBlocks (lang : String) (codes : List String) :
    (versionBlocks lang codes).toList
      = (codes.mapIdx (versionFence lang)).flatMap Block.text ++ versionTail codes := by
  induction codes using List.reverseRecOn with
  | nil => rfl
  | append_singleton codes code ih =>
    have hbefore : versionTail codes = (versionFence lang codes.length code).before := by
      simp [versionTail, versionFence]
    have hone : (String.join [versionBlock lang codes.length code]).toList
        = (versionBlock lang codes.length code).toList := by simp
    rw [versionBlocks, List.mapIdx_concat, String.join_append, String.toList_append,
      ← versionBlocks, ih, List.mapIdx_concat, List.flatMap_append, hbefore, List.append_assoc,
      List.append_assoc, hone, toList_versionBlock]
    simp [versionTail]

theorem clear_versionFence {lang code : String} (hlang : ∀ c ∈ lang.toList, IsLetter c)
    (hcode : ¬ mark <:+: code.toList) (number : Nat) : (versionFence lang number code).Clear where
  tag_letters := hlang
  before := by
    show Unfenced (if number = 0 then [] else ['\n'])
    split
    · exact ⟨by decide, by decide⟩
    · exact ⟨by decide, by decide⟩
  body := by
    refine ⟨no_mark_versionLines hcode number, ?_⟩
    show (versionLines number code).toList.getLast? ≠ some '\x60'
    rw [versionLines, String.toList_append, List.getLast?_append]
    simp

theorem clear_of_mem_versionFences {lang : String} {codes : List String}
    (hlang : ∀ c ∈ lang.toList, IsLetter c) (hcodes : ∀ code ∈ codes, ¬ mark <:+: code.toList) :
    ∀ b ∈ codes.mapIdx (versionFence lang), b.Clear := by
  intro b hb
  obtain ⟨number, hnumber, rfl⟩ := List.mem_mapIdx.mp hb
  exact clear_versionFence hlang (hcodes _ (List.getElem_mem hnumber)) number

theorem no_mark_versionTail (codes : List String) : ¬ mark <:+: versionTail codes := by
  rw [versionTail]
  split
  · decide
  · decide

/-! ## What is read in them -/

/-- The blocks of a mutation prompt are read as its codes. -/
structure Readable (lang : String) (codes : List String) : Prop where
  /-- One block for each code, in their order, and nothing between them. -/
  parts : Segments.ofReply (versionBlocks lang codes) =
    { text := if codes = [] then [""] else codes.map fun _ => ""
      code := codes.mapIdx versionText
      languages := codes.map fun _ => lang }
  /-- The fences that are found are those that were written. -/
  fences : Parted (versionBlocks lang codes).toList (codes.mapIdx (versionFence lang))
    (versionTail codes)
  /-- No other fence stands in a code. -/
  fenceless : ∀ code ∈ codes, ¬ mark <:+: (shown code).toList

section Reading

variable (lang : String) (codes : List String)

theorem trim_lineBreak {cs : List Char} (h : cs = [] ∨ cs = ['\n']) :
    trim (String.ofList cs) = "" := by
  rcases h with rfl | rfl
  · decide
  · decide

theorem text_versionFences :
    (codes.mapIdx (versionFence lang)).map (fun b => trim (String.ofList b.before))
      = codes.map fun _ => "" := by
  refine List.ext_getElem (by simp) fun number _ _ => ?_
  rw [List.getElem_map, List.getElem_map, List.getElem_mapIdx]
  refine trim_lineBreak ?_
  rw [versionFence]
  split
  · exact .inl rfl
  · exact .inr rfl

theorem code_versionFences :
    (codes.mapIdx (versionFence lang)).map (fun b => trim (String.ofList b.body))
      = codes.mapIdx versionText := by
  refine List.ext_getElem (by simp) fun number _ _ => ?_
  rw [List.getElem_map, List.getElem_mapIdx, List.getElem_mapIdx, versionFence,
    String.ofList_toList, trim_versionLines]

theorem tag_versionFences :
    (codes.mapIdx (versionFence lang)).map (fun b => String.ofList b.tag)
      = codes.map fun _ => lang := by
  refine List.ext_getElem (by simp) fun number _ _ => ?_
  rw [List.getElem_map, List.getElem_map, List.getElem_mapIdx, versionFence,
    String.ofList_toList]

theorem lastText_versionTail :
    Segments.lastText (codes.mapIdx (versionFence lang)) (versionTail codes)
      = if codes = [] then [""] else [] := by
  have hblank : trim (String.ofList (versionTail codes)) = "" := by
    refine trim_lineBreak ?_
    rw [versionTail]
    split
    · exact .inl rfl
    · exact .inr rfl
  rw [Segments.lastText, hblank]
  simp

end Reading

/-- **The versions of a mutation prompt can be read back.** -/
theorem readable_of_no_mark {lang : String} {codes : List String}
    (hlang : ∀ c ∈ lang.toList, IsLetter c) (hcodes : ∀ code ∈ codes, ¬ mark <:+: code.toList) :
    Readable lang codes := by
  have htext := toList_versionBlocks lang codes
  have hclear := clear_of_mem_versionFences hlang hcodes
  have htail := no_mark_versionTail codes
  refine ⟨?_, ?_, fun code hcode => no_mark_shown (hcodes code hcode)⟩
  · rw [Segments.ofReply_of_clear htext hclear htail, text_versionFences, code_versionFences,
      tag_versionFences, lastText_versionTail]
    by_cases hnone : codes = []
    · rw [if_pos hnone, if_pos hnone, hnone]
      rfl
    · rw [if_neg hnone, if_neg hnone, List.append_nil]
  · rw [htext]
    exact parted_of_clear hclear htail

/-- A comment between backticks, and a code that is nothing but a comment. -/
example : Segments.ofReply (versionBlocks "c" ["a``/* b */`", "// d"])
    = ⟨["", ""], ["// Version 0\na`` `", "// Version 1"], ["c", "c"]⟩ := by
  decide +kernel

end Prompt

/-! ## Parents -/

namespace Ledger

/-- No row has a code with a fence. -/
def Fenceless (l : Ledger) : Prop := ∀ r ∈ l.rows, ∀ code ∈ r.finalCode, ¬ mark <:+: code.toList

theorem Fenceless.append {l : Ledger} (h : l.Fenceless) {c : Candidate}
    (hcode : ∀ code ∈ c.finalCode, ¬ mark <:+: code.toList) (runId now : String) :
    (l.append runId now c).Fenceless := by
  intro r hr
  rcases List.mem_append.mp hr with hold | hnew
  · exact h r hold
  · obtain rfl := List.mem_singleton.mp hnew
    exact hcode

end Ledger

/-- A code that is built stands in a reply. -/
theorem Response.Parted.no_mark_in_primaryCode {r : Response} (h : r.Parted) :
    ∀ code ∈ r.primaryCode, ¬ mark <:+: code.toList := by
  intro code hcode
  have hfirst : r.code.head? = some code := (Option.filter_eq_some_iff.mp hcode).1
  have hparts : (Segments.ofReply r.full).code = r.code := by rw [h]
  exact Segments.no_mark_in_code r.full code (hparts ▸ List.mem_of_head? hfirst)

namespace Evolution

/-- The code of a record stands in one of the replies. -/
theorem no_mark_in_finalCode {σ : Type} {lab : Laboratory σ} {settings : Settings} {slot : Slot}
    {parents : Option Parents} {s s' : State σ} {c : Candidate}
    (h : runSlot lab settings slot parents s = .ok c s') :
    ∀ code ∈ c.finalCode, ¬ mark <:+: code.toList := by
  obtain ⟨session, prompt, w, repaired, w', htalk, hc⟩ := runSlot_eq_ok h
  have hfinal : c.finalCode = repaired.finalCode := by
    rcases hc with ⟨-, rfl⟩ | ⟨-, outcome, rfl⟩
    · rfl
    · rfl
  have horderly := talk_orderly htalk
  intro code hcode
  rw [hfinal, horderly.finalCode_eq, Option.or_none] at hcode
  obtain ⟨v, hv, hprimary⟩ := List.mem_filterMap.mp (List.mem_of_getLast? hcode)
  exact (horderly.parted v hv).no_mark_in_primaryCode code hprimary

theorem fenceless_perform {l : Ledger} (hl : l.Fenceless) (call : Call) :
    (call.perform l).Fenceless := by
  cases call with
  | openRun task model now requested backend checkout =>
    rw [Call.perform]
    split
    · next name l' hopen =>
      rcases openRun_eq_ok hopen with rfl | ⟨run, hadd⟩
      · exact hl
      · obtain ⟨-, rfl⟩ := Ledger.addRun_eq_ok_iff.mp hadd
        exact hl
    · exact hl
  | evolve lab world runId now settings start stop checkout =>
    refine evolve_preserves (fun l₁ l₂ invocation hcall h => ?_)
      (fun slot _ l₁ c htaken h => ?_) ⟨l, world⟩ hl
    · obtain ⟨-, rfl⟩ := Ledger.recordInvocation_eq_ok_iff.mp hcall
      exact h
    · obtain ⟨parents, s, s', -, -, hrun⟩ := htaken.made
      exact h.append (no_mark_in_finalCode hrun) runId now

/-- **No call records a code with a fence.** -/
theorem fenceless_ledgerAfter (calls : List Call) : (ledgerAfter calls).Fenceless := by
  induction calls using List.reverseRecOn with
  | nil => exact fun r hr => nomatch hr
  | append_singleton earlier call ih =>
    rw [ledgerAfter_concat]
    exact fenceless_perform ih call

/-- **Parents can be read back from a mutation prompt.** Let the tag be made of ASCII letters. The
blocks that are printed for some codes without a fence are found again, one for each code and in
their order, with this tag and no prose: in each of them stands the line with the number of the
version, and behind it the code without its comments, unless nothing is left of it. No code closes
its block early or opens another.

This is so for the parents of a generation, whatever ledger they are selected from that calls can
leave: no code of theirs holds a fence. -/
theorem parents_readable {lang : String} (hlang : ∀ c ∈ lang.toList, IsLetter c) :
    (∀ codes : List String, (∀ code ∈ codes, ¬ mark <:+: code.toList) →
      Prompt.Readable lang codes) ∧
    ∀ (calls : List Call) (runId : String) (iter k : Nat) (p : Parents),
      (ledgerAfter calls).selectParents runId iter k = .ok p →
      Prompt.Readable lang p.codes ∧ (∀ code ∈ p.codes, ¬ mark <:+: code.toList) ∧
        ∃ parents : List Row, Ledger.Lists p parents ∧
          ∀ r ∈ parents, r ∈ (ledgerAfter calls).rows := by
  refine ⟨fun codes hcodes => Prompt.readable_of_no_mark hlang hcodes,
    fun calls runId iter k p hselect => ?_⟩
  have hlists := Ledger.lists_of_selectParents hselect
  have hrows : ∀ r ∈ ((ledgerAfter calls).eligible runId (iter - 1)).take k,
      r ∈ (ledgerAfter calls).rows :=
    fun r hr => (Ledger.mem_eligible_iff.mp (List.mem_of_mem_take hr)).1
  have hcodes : ∀ code ∈ p.codes, ¬ mark <:+: code.toList := by
    intro code hcode
    have hsome : some code ∈ p.codes.map some := List.mem_map_of_mem hcode
    rw [← hlists.codes] at hsome
    obtain ⟨r, hr, hfinal⟩ := List.mem_map.mp hsome
    exact fenceless_ledgerAfter calls r (hrows r hr) code hfinal
  exact ⟨Prompt.readable_of_no_mark hlang hcodes, hcodes, _, hlists, hrows⟩

/-- Two candidates with backticks in their codes are the parents of the next generation. -/
theorem parents_readable_scripted :
    let lab := Script.laboratory Script.repairPrompt
    let settings : Settings := ⟨2, 1, 2, .standard⟩
    let replies : List ScriptedReply := [.text "```c\n`a``\n```", .text "```\n// b\n``````"]
    let calls : List Call :=
      [.openRun "sort" "scripted" "" none .empty none,
        .evolve lab { replies } "sort_0" "" settings 0 1 none]
    ∃ p, (ledgerAfter calls).selectParents "sort_0" 1 2 = .ok p ∧ p.codes.length = 2 ∧
      Prompt.Readable "c" p.codes := by
  intro lab settings replies calls
  have htwo : 2 ≤ ((ledgerAfter calls).eligible "sort_0" 0).length := by
    rw [Ledger.eligible_eq, List.length_mergeSort]
    decide +kernel
  obtain ⟨p, hp⟩ : ∃ p, (ledgerAfter calls).selectParents "sort_0" 1 2 = .ok p :=
    ⟨_, Ledger.selectParents_eq_ok_iff.mpr ⟨htwo, rfl⟩⟩
  have hletter : ∀ c ∈ "c".toList, IsLetter c := by
    intro c hc
    obtain rfl : c = 'c' := by simpa using hc
    exact .inl (by decide)
  obtain ⟨-, hparents⟩ := parents_readable hletter
  refine ⟨p, hp, ?_, (hparents calls "sort_0" 1 2 p hp).1⟩
  have hlength := congrArg List.length (Ledger.lists_of_selectParents hp).codes
  rw [List.length_map, List.length_map, List.length_take, Nat.min_eq_left htwo] at hlength
  exact hlength.symm

end Evolution

end HeuristicEvolution

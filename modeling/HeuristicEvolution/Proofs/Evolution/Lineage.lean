import HeuristicEvolution.Evolution.OpenRun
import HeuristicEvolution.Evolution.Scripted
import HeuristicEvolution.Proofs.Evolution.Passes
import Mathlib

/-!
# Lineage

A candidate of a later iteration names the candidates that it was bred from, and repeats their
code. The names are ids of rows, so they mean something only together with a ledger, and they have
to go on meaning the same while other calls, with other settings and on other runs, add to it.

A row is written once and its lineage is fixed then; `Lineage.mono` says that later rows cannot
spoil it. What remains is the moment of writing, `lineage_of_taken`, which is where selection, the
shared parents of a generation and the assembly of the record meet.

## Main definitions

* `Row.Names`, `Lineage`: a row names its parents, and they are what they should be.
* `Call`, `ledgerAfter`: opening runs and working on them, in any order.

## Main results

* `lineage_of_taken`: the row that a call writes.
* `lineage_of_reachable`: every row of every ledger that calls can leave.
-/

namespace HeuristicEvolution

/-- The row names the given parents: their ids, and at the same positions their codes. -/
def Row.Names (child : Row) (parents : List Row) : Prop :=
  child.parentIds = .value (.arr (parents.map fun p => .int p.id)) ∧
    ∃ codes, child.parentCodes = .value (.ofTexts codes) ∧
      parents.map Row.finalCode = codes.map some

/-- What a parent is to its child. -/
structure Row.Sired (p child : Row) : Prop where
  runId_eq : p.runId = child.runId
  iter_lt : p.iter < child.iter
  id_lt : p.id < child.id
  built : p.buildStatus = some true
  executed : p.execStatus = some true
  scored : p.score.isSome = true

namespace Evolution

/-- The lineage of a row for which at most `most` parents were asked. A row of iteration zero has
no parents; any other row names some, best first, and they are rows of the ledger. -/
structure Lineage (l : Ledger) (most : Nat) (child : Row) : Prop where
  parentIds_absent_iff : child.parentIds = .absent ↔ child.iter = 0
  parentCodes_absent_iff : child.parentCodes = .absent ↔ child.iter = 0
  parents_of_later : child.iter ≠ 0 → ∃ parents : List Row, child.Names parents ∧
    1 ≤ parents.length ∧ parents.length ≤ most ∧ (parents.map Row.id).Nodup ∧
    parents.Pairwise Row.Better ∧ ∀ p ∈ parents, p ∈ l.rows ∧ p.Sired child

/-- Rows that are added later change no lineage. -/
theorem Lineage.mono {l l' : Ledger} {most : Nat} {child : Row} (h : Lineage l most child)
    (hext : l.Extends l') : Lineage l' most child := by
  refine { h with parents_of_later := fun hlater => ?_ }
  obtain ⟨parents, hnames, hpos, hmost, hnodup, hbetter, hall⟩ := h.parents_of_later hlater
  refine ⟨parents, hnames, hpos, hmost, hnodup, hbetter, fun p hp => ?_⟩
  obtain ⟨hmem, hsired⟩ := hall p hp
  exact ⟨hext.rows.subset hmem, hsired⟩

/-! ## The moment of writing -/

section Writing

variable {σ : Type} {lab : Laboratory σ} {runId now : String} {settings : Settings} {slot : Slot}
  {l : Ledger} {c : Candidate}

/-- The rows that are chosen as parents of a slot. -/
def chosen (l : Ledger) (runId : String) (settings : Settings) (iter : Nat) : List Row :=
  (l.eligible runId (iter - 1)).take settings.parents

/-- Chosen rows were there before the child, in earlier iterations of its run. -/
theorem sired_of_mem_chosen (hl : l.Intact) {p : Row} (hlater : c.iter ≠ 0)
    (hp : p ∈ chosen l runId settings c.iter) :
    p ∈ l.rows ∧ p.Sired (Row.ofCandidate l.nextId runId now c) := by
  have heligible := List.mem_of_mem_take hp
  obtain ⟨hmem, hrun, hiter, hranked, -⟩ := Ledger.mem_eligible_iff.mp heligible
  simp only [Row.ranked, Row.succeeded, Bool.and_eq_true, beq_iff_eq] at hranked
  obtain ⟨⟨hbuilt, hexecuted⟩, hscored⟩ := hranked
  have hlt : p.iter < c.iter := by omega
  exact ⟨hmem, ⟨hrun, hlt, hl.ids_lt p hmem, hbuilt, hexecuted, hscored⟩⟩

/-- What a record says about its parents when they are those of its slot. -/
theorem names_chosen {p : Parents} (hselect : l.selectParents runId c.iter settings.parents = .ok p)
    (hids : c.parentIds = some p.ids) (hcodes : c.parentCodes = some p.codes) (id : Int)
    (now : String) :
    (Row.ofCandidate id runId now c).Names (chosen l runId settings c.iter) := by
  obtain ⟨-, rfl⟩ := Ledger.selectParents_eq_ok_iff.mp hselect
  refine ⟨?_, (chosen l runId settings c.iter).filterMap Row.finalCode, ?_, ?_⟩
  · simp only [Row.ofCandidate, hids, Option.map_some, Column.ofValue, List.map_map, chosen,
      Function.comp_def]
  · simp only [Row.ofCandidate, hcodes, Option.map_some, Column.ofValue, chosen]
  · exact Ledger.map_eq_map_some_filterMap fun r hr =>
      (Ledger.mem_eligible_iff.mp (List.mem_of_mem_take hr)).2.2.2.2

/-- **The row that a call writes has its lineage.** -/
theorem lineage_of_taken (hl : l.Intact) (hmost : 1 ≤ settings.parents)
    (h : Taken lab runId settings slot l c) :
    Lineage l settings.parents (Row.ofCandidate l.nextId runId now c) := by
  obtain ⟨parents, s, s', -, hparents, hrun⟩ := h.made
  obtain ⟨hiter, -, hids, hcodes⟩ := slot_of_runSlot hrun
  rw [← hiter] at hparents
  have hrow : (Row.ofCandidate l.nextId runId now c).iter = c.iter := rfl
  cases parents with
  | none =>
    have hzero : c.iter = 0 := parentsAt_eq_none_iff.mp hparents
    have hnoIds : (Row.ofCandidate l.nextId runId now c).parentIds = .absent := by
      simp [Row.ofCandidate, hids, Column.ofValue]
    have hnoCodes : (Row.ofCandidate l.nextId runId now c).parentCodes = .absent := by
      simp [Row.ofCandidate, hcodes, Column.ofValue]
    exact ⟨by simp [hnoIds, hrow, hzero], by simp [hnoCodes, hrow, hzero],
      fun hlater => absurd hzero hlater⟩
  | some p =>
    obtain ⟨hlater, hselect⟩ := parentsAt_eq_some_iff.mp hparents
    have hnames := names_chosen hselect hids hcodes l.nextId now
    have htwo := (Ledger.selectParents_eq_ok_iff.mp hselect).1
    have hlength : (chosen l runId settings c.iter).length
        = min settings.parents (l.eligible runId (c.iter - 1)).length := List.length_take
    have hsub : (chosen l runId settings c.iter).Sublist (l.eligible runId (c.iter - 1)) :=
      List.take_sublist _ _
    refine ⟨?_, ?_, fun _ => ⟨chosen l runId settings c.iter, hnames, ?_, ?_, ?_, ?_, ?_⟩⟩
    · rw [hnames.1, hrow]
      simp [hlater]
    · obtain ⟨-, codes, hcodes', -⟩ := hnames
      rw [hcodes', hrow]
      simp [hlater]
    · omega
    · omega
    · exact (hsub.map Row.id).nodup (hl.nodup_ids_eligible _)
    · exact (hl.eligible_better _).sublist hsub
    · exact fun parent hparent => sired_of_mem_chosen hl hlater hparent

end Writing

/-! ## Calls in any order -/

/-- What can be asked for: to open a run, or to work on one. Every call has a laboratory, a world
and settings of its own. -/
inductive Call : Type 1 where
  | openRun (task model now : String) (requested : Option String) (backend : Json)
      (checkout : Option Checkout)
  | evolve {σ : Type} (lab : Laboratory σ) (world : σ) (runId now : String) (settings : Settings)
      (start stop : Nat) (checkout : Option Checkout)

namespace Call

/-- The ledger that a call leaves. A call that fails leaves what it wrote before. -/
def perform (l : Ledger) : Call → Ledger
  | openRun task model now requested backend checkout =>
    match Evolution.openRun l task model now requested backend checkout with
    | .ok (_, l') => l'
    | .error _ => l
  | evolve lab world runId now settings start stop checkout =>
    (finalState (Evolution.evolve lab runId now settings start stop checkout) ⟨l, world⟩).ledger

/-- How many parents the call asks for. Opening a run asks for none. -/
def parents? : Call → Option Nat
  | openRun .. => none
  | evolve _ _ _ _ settings _ _ _ => some settings.parents

end Call

/-- The ledger that calls leave, one after the other, of a ledger in which nothing is recorded. -/
def ledgerAfter (calls : List Call) : Ledger := calls.foldl Call.perform .empty

theorem ledgerAfter_concat (calls : List Call) (call : Call) :
    ledgerAfter (calls ++ [call]) = call.perform (ledgerAfter calls) := by
  rw [ledgerAfter, List.foldl_append, ← ledgerAfter]
  rfl

/-- Opening a run writes no candidate. -/
theorem openRun_eq_ok {l l' : Ledger} {task model now runId : String} {requested : Option String}
    {backend : Json} {checkout : Option Checkout}
    (h : openRun l task model now requested backend checkout = .ok (runId, l')) :
    l' = l ∨ ∃ run, l.addRun run = .ok l' := by
  cases requested with
  | some name =>
    cases hrun : continueRun l task name with
    | error e => simp [openRun, hrun, Except.map] at h
    | ok name' =>
      simp only [openRun, hrun, Except.map, Except.ok.injEq, Prod.mk.injEq] at h
      exact .inl h.2.symm
  | none =>
    let run : RunInfo := ⟨l.freshRunId task, task, model, now,
      runMetadata (l.freshRunId task) backend checkout⟩
    have h : ((l.addRun run).map fun l₁ => (l.freshRunId task, l₁)) = .ok (runId, l') := h
    cases hadd : l.addRun run with
    | error e => simp [hadd, Except.map] at h
    | ok l₁ =>
      simp only [hadd, Except.map, Except.ok.injEq, Prod.mk.injEq] at h
      exact .inr ⟨run, h.2 ▸ hadd⟩

/-- What one call does to a ledger that is intact: it stays intact, it only grows, and every new
row has its lineage. -/
structure Bred (l l' : Ledger) (most : Option Nat) : Prop where
  intact : l'.Intact
  grown : l.Extends l'
  lineage : ∀ r ∈ l'.rows, r ∈ l.rows ∨ ∃ k, most = some k ∧ Lineage l' k r

theorem Bred.same {l : Ledger} (h : l.Intact) (most : Option Nat) : Bred l l most :=
  ⟨h, .refl l, fun _ hr => .inl hr⟩

theorem Bred.recordInvocation {l l₁ l₂ : Ledger} {most : Option Nat} (h : Bred l l₁ most)
    {call : Invocation} (hcall : l₁.recordInvocation call = .ok l₂) : Bred l l₂ most := by
  have hext := Ledger.extends_recordInvocation hcall
  refine ⟨h.intact.recordInvocation hcall, h.grown.trans hext, ?_⟩
  obtain ⟨-, rfl⟩ := Ledger.recordInvocation_eq_ok_iff.mp hcall
  intro r hr
  rcases h.lineage r hr with hold | ⟨k, hk, hlineage⟩
  · exact .inl hold
  · exact .inr ⟨k, hk, hlineage.mono hext⟩

theorem Bred.append {σ : Type} {lab : Laboratory σ} {runId now : String} {settings : Settings}
    {slot : Slot} {c : Candidate} {l l₁ : Ledger} (h : Bred l l₁ (some settings.parents))
    (hmost : 1 ≤ settings.parents) (htaken : Taken lab runId settings slot l₁ c) :
    Bred l (l₁.append runId now c) (some settings.parents) := by
  have hext := Ledger.extends_append l₁ runId now c
  refine ⟨h.intact.append htaken.free_of_record htaken.hasRun, h.grown.trans hext,
    fun r hr => ?_⟩
  rcases List.mem_append.mp hr with hold | hnew
  · rcases h.lineage r hold with hfirst | ⟨k, hk, hlineage⟩
    · exact .inl hfirst
    · exact .inr ⟨k, hk, hlineage.mono hext⟩
  · obtain rfl := List.mem_singleton.mp hnew
    exact .inr ⟨_, rfl, (lineage_of_taken h.intact hmost htaken).mono hext⟩

/-- **One call.** It may fail at any point. -/
theorem bred_perform {l : Ledger} (hl : l.Intact) (call : Call)
    (hmost : ∀ k, call.parents? = some k → 1 ≤ k) : Bred l (call.perform l) call.parents? := by
  cases call with
  | openRun task model now requested backend checkout =>
    rw [Call.perform]
    split
    · next name l' hopen =>
      rcases openRun_eq_ok hopen with rfl | ⟨run, hadd⟩
      · exact .same hl _
      · have hext := Ledger.extends_addRun hadd
        have hintact := hl.addRun hadd
        obtain ⟨-, rfl⟩ := Ledger.addRun_eq_ok_iff.mp hadd
        exact ⟨hintact, hext, fun r hr => .inl hr⟩
    · exact .same hl _
  | evolve lab world runId now settings start stop checkout =>
    exact evolve_preserves (P := fun l' => Bred l l' (some settings.parents))
      (fun l₁ l₂ invocation hcall h => h.recordInvocation hcall)
      (fun slot _ l₁ c htaken h => h.append (hmost _ rfl) htaken) ⟨l, world⟩ (.same hl _)

theorem intact_ledgerAfter {calls : List Call}
    (hmost : ∀ call ∈ calls, ∀ k, call.parents? = some k → 1 ≤ k) : (ledgerAfter calls).Intact := by
  induction calls using List.reverseRecOn with
  | nil => exact Ledger.Intact.empty
  | append_singleton earlier call ih =>
    rw [ledgerAfter_concat]
    have hl := ih fun call' hmem => hmost call' (List.mem_append_left _ hmem)
    exact (bred_perform hl call (hmost call (by simp))).intact

/-- **The lineage of every candidate.** Let runs be opened and worked on in any order, with any
settings that ask for parents at all, and let any of the calls fail at any point. In the ledger
that is left ids name one row each, and every row was written by one of the calls, and has its
lineage for the number of parents that this call asked for:

* it names no parents, neither ids nor codes, exactly if its iteration is zero;
* otherwise it names at least one and at most that many, all different, best first, and each of
  them is an earlier row of an earlier iteration of the same run, which was built, ran and has a
  score, and whose code is the one that is named at its position. -/
theorem lineage_of_reachable (calls : List Call)
    (hmost : ∀ call ∈ calls, ∀ k, call.parents? = some k → 1 ≤ k) :
    ((ledgerAfter calls).rows.map Row.id).Nodup ∧
    ∀ r ∈ (ledgerAfter calls).rows, ∃ before call later k, calls = before ++ call :: later ∧
      call.parents? = some k ∧ r ∉ (ledgerAfter before).rows ∧
      r ∈ (ledgerAfter (before ++ [call])).rows ∧ Lineage (ledgerAfter calls) k r := by
  constructor
  · have hascend := (intact_ledgerAfter hmost).ids_ascend
    exact List.pairwise_map.mpr (hascend.imp fun hlt => Int.ne_of_lt hlt)
  induction calls using List.reverseRecOn with
  | nil => exact fun r hr => nomatch hr
  | append_singleton earlier call ih =>
    intro r hr
    have hearlier : ∀ call' ∈ earlier, ∀ k, call'.parents? = some k → 1 ≤ k :=
      fun call' hmem => hmost call' (List.mem_append_left _ hmem)
    have hbred := bred_perform (intact_ledgerAfter hearlier) call (hmost call (by simp))
    rw [← ledgerAfter_concat] at hbred
    by_cases hold : r ∈ (ledgerAfter earlier).rows
    · -- the row is older than the call, which cannot spoil its lineage
      obtain ⟨before, writer, later, k, rfl, hk, hnew, hthen, hlineage⟩ := ih hearlier r hold
      exact ⟨before, writer, later ++ [call], k, by simp, hk, hnew, hthen,
        hlineage.mono hbred.grown⟩
    · rcases hbred.lineage r hr with hold' | ⟨k, hk, hlineage⟩
      · exact absurd hold' hold
      · exact ⟨earlier, call, [], k, rfl, hk, hold, hr, hlineage⟩

/-! ### A backend that measures what its last build has left -/

/-- The code that the model writes for a slot. -/
def benchCode (slot : Slot) : String := if slot.sample = 0 then "a;" else "bcd;"

/-- The reply that brings it. -/
def benchReply (slot : Slot) : String := "```c\n" ++ benchCode slot ++ "\n```"

/-- What an experiment on some code comes to: the longer it is, the better. -/
def benchOutcome (code : String) : Outcome :=
  ⟨true, .ofMembers [("score", .ofNat code.length)], .empty⟩

/-- A backend that measures what its last build has left, whatever slot it is asked for. At some
slots its experiments fail. The world is the code of that build. -/
def bench (broken : Slot → Bool) : Laboratory (Option String) where
  model := "bench"
  openSession _ left := (0, left)
  ask slot _ _ left := (.reply (benchReply slot) ⟨none, 0, 0⟩, left)
  initialPrompt _ left := ("write a heuristic", left)
  mutationPrompt _ _ left := ("improve on it", left)
  repairPrompt _ _ := "fix it"
  build _ code _ := (.ok Script.goodBuild, some code)
  experiment slot left :=
    (if broken slot then .error (.system none) else .ok (benchOutcome (left.getD "")), left)

/-- One attempt at each build, and two parents. -/
def benchSettings (samples : Nat) : Settings := ⟨samples, 1, 2, .standard⟩

/-- What the first prompt of a slot says. -/
def benchPrompt (parents : Option Parents) : String :=
  if parents.isNone then "write a heuristic" else "improve on it"

/-- The record of a slot that was worked on at the bench. -/
def benchRecord (slot : Slot) (parents : Option Parents) : Candidate :=
  measured
    (unmeasured slot parents ⟨true, some (benchCode slot),
      [⟨0, true, "ok", "", benchPrompt parents, .ofReply (benchReply slot) ⟨none, 0, 0⟩⟩]⟩)
    (benchOutcome (benchCode slot))

theorem primaryCode_benchReply (slot : Slot) :
    (Response.ofReply (benchReply slot) ⟨none, 0, 0⟩).primaryCode = some (benchCode slot) := by
  unfold benchReply benchCode
  split <;> cbv

section Bench

variable {broken : Slot → Bool} {slot : Slot} {samples : Nat} {now : String}
  {parents : Option Parents}

theorem talk_bench (prompt : String) (left : Option String) :
    talk (bench broken) (benchSettings samples) slot 0 prompt ⟨left, 0⟩
      = .ok ⟨true, some (benchCode slot),
          [⟨0, true, "ok", "", prompt, .ofReply (benchReply slot) ⟨none, 0, 0⟩⟩]⟩
          ⟨some (benchCode slot), 1⟩ := by
  have hsend : Conversation.send ((bench broken).ask slot 0) .standard prompt ⟨left, 0⟩
      = .ok (.ofReply (benchReply slot) ⟨none, 0, 0⟩) ⟨left, 1⟩ := rfl
  refine (bind_of_ok hsend).trans ?_
  change Repair.run _ 1 prompt _ ⟨left, 1⟩ = _
  rw [Repair.run, Repair.cycle, Repair.attempt, primaryCode_benchReply]
  rfl

theorem runSlot_bench (s : State (Option String)) :
    runSlot (bench broken) (benchSettings samples) slot parents s =
      if broken slot then .error (.system none) ⟨s.ledger, some (benchCode slot)⟩
      else .ok (benchRecord slot parents) ⟨s.ledger, some (benchCode slot)⟩ := by
  have hprompt : firstPrompt (bench broken) slot parents s = .ok (benchPrompt parents) s := by
    cases parents <;> rfl
  have hsession : outside ((bench broken).openSession slot) s = .ok 0 s := rfl
  have htalk : converse (talk (bench broken) (benchSettings samples) slot 0 (benchPrompt parents)) s
      = .ok _ _ := converse_eq_ok_iff.mpr ⟨_, talk_bench (benchPrompt parents) s.world, rfl⟩
  rw [runSlot_eq, bind_of_ok hprompt, bind_of_ok hsession, bind_of_ok htalk]
  cases hbroken : broken slot <;>
    simp [measure, bind, EStateM.bind, outsideExcept, bench, hbroken, benchRecord, pure,
      EStateM.pure]

/-- A free slot with parents is filled, unless its experiment fails. -/
theorem visit_bench {l : Ledger} {left : Option String}
    (hfree : ¬ l.HasCandidate "sort_0" slot.iter slot.sample) (hrun : l.HasRun "sort_0")
    (hparents : parentsAt l "sort_0" (benchSettings samples) slot.iter = .ok parents) :
    visit (bench broken) "sort_0" now (benchSettings samples) slot ⟨l, left⟩ =
      if broken slot then .error (.system none) ⟨l, some (benchCode slot)⟩
      else .ok (some (benchRecord slot parents))
        ⟨l.append "sort_0" now (benchRecord slot parents), some (benchCode slot)⟩ := by
  have hfor : parentsFor "sort_0" (benchSettings samples) slot.iter none
      (⟨l, left⟩ : State (Option String)) = _ := parentsFor_apply fun p hp => by cases hp
  rw [hparents] at hfor
  have hwork : runSlot (bench broken) (benchSettings samples) slot parents ⟨l, left⟩ = _ :=
    runSlot_bench ⟨l, left⟩
  rw [visit_of_free hfree, bind_of_ok hfor]
  split
  · next hbroken => rw [bind_of_error (hwork.trans (if_pos hbroken))]
  · next hbroken =>
    have hrecord : record "sort_0" now (benchSettings samples).buildAttempts
        (benchRecord slot parents) (⟨l, some (benchCode slot)⟩ : State (Option String)) =
          .ok () _ :=
      record_eq_ok_iff.mpr ⟨rfl, hfree, hrun, rfl⟩
    rw [bind_of_ok (hwork.trans (if_neg hbroken)), bind_of_ok hrecord]
    rfl

theorem visitAll_bench_cons {l : Ledger} {left : Option String} {rest : List Slot}
    {summary : Summary} (hworks : broken slot = false)
    (hfree : ¬ l.HasCandidate "sort_0" slot.iter slot.sample) (hrun : l.HasRun "sort_0")
    (hparents : parentsAt l "sort_0" (benchSettings samples) slot.iter = .ok parents) :
    visitAll (bench broken) "sort_0" now (benchSettings samples) (slot :: rest) summary ⟨l, left⟩ =
      visitAll (bench broken) "sort_0" now (benchSettings samples) rest
        (summary.add (benchRecord slot parents))
        ⟨l.append "sort_0" now (benchRecord slot parents), some (benchCode slot)⟩ := by
  have hvisit : visit (bench broken) "sort_0" now (benchSettings samples) slot ⟨l, left⟩ = _ :=
    visit_bench hfree hrun hparents
  rw [hworks] at hvisit
  rw [visitAll, bind_of_ok hvisit]
  rfl

/-- The records of the first generation. -/
def benchFounders : List Candidate := [benchRecord ⟨0, 0⟩ none, benchRecord ⟨0, 1⟩ none]

/-- The parents of the second generation: the longer code is the better one. -/
def benchParents : Parents := ⟨0, [2, 1], ["bcd;", "a;"], [Binary.ofInt 4, Binary.ofInt 2]⟩

/-- The first generation is recorded. -/
theorem visitAll_bench_founders {l : Ledger} {left : Option String} {rest : List Slot}
    {summary : Summary} (hrun : l.HasRun "sort_0") (hrows : l.rows = [])
    (hfirst : broken ⟨0, 0⟩ = false) (hsecond : broken ⟨0, 1⟩ = false) :
    visitAll (bench broken) "sort_0" now (benchSettings samples) (⟨0, 0⟩ :: ⟨0, 1⟩ :: rest) summary
        ⟨l, left⟩ =
      visitAll (bench broken) "sort_0" now (benchSettings samples) rest
        (benchFounders.foldl Summary.add summary)
        ⟨l.appendAll "sort_0" now benchFounders, some "bcd;"⟩ := by
  have hnone : ∀ sample, ¬ l.HasCandidate "sort_0" 0 sample := by simp [Ledger.HasCandidate, hrows]
  have hfree : ¬ (l.append "sort_0" now (benchRecord ⟨0, 0⟩ none)).HasCandidate "sort_0" 0 1 := by
    rw [Ledger.hasCandidate_append_iff]
    exact fun h => h.elim (hnone 1) fun hslot => by
      simp [benchRecord, measured, unmeasured] at hslot
  rw [visitAll_bench_cons hfirst (hnone 0) hrun rfl, visitAll_bench_cons hsecond hfree hrun rfl,
    benchFounders, Ledger.appendAll_cons, Ledger.appendAll_cons, Ledger.appendAll_nil]
  rfl

theorem parentsAt_benchFounders {l : Ledger} (hrows : l.rows = []) (hid : l.nextId = 1) :
    parentsAt (l.appendAll "sort_0" now benchFounders) "sort_0" (benchSettings samples) 1
      = .ok (some benchParents) := by
  obtain ⟨runs, calls, rows, nextId⟩ := l
  subst hrows hid
  let first := Row.ofCandidate 1 "sort_0" now (benchRecord ⟨0, 0⟩ none)
  let second := Row.ofCandidate 2 "sort_0" now (benchRecord ⟨0, 1⟩ none)
  let l : Ledger := .appendAll ⟨runs, calls, [], 1⟩ "sort_0" now benchFounders
  have hstock : l.candidatesForParents "sort_0" 0 = [first, second] := rfl
  have hkeys : Binary.key (Binary.dropZeroSign (Binary.ofInt 2))
      < Binary.key (Binary.dropZeroSign (Binary.ofInt 4)) := by decide +kernel
  have hscores : first.scoreKey < second.scoreKey := hkeys
  have hworse : ¬ first.rankLE second = true := by
    rw [Row.rankLE_iff]
    omega
  have hranking := Ledger.eligible_of_two hstock
  rw [if_neg hworse] at hranking
  refine parentsAt_eq_some_iff.mpr ⟨by decide, Ledger.selectParents_eq_ok_iff.mpr ?_⟩
  rw [hranking]
  exact ⟨Nat.le_refl 2, rfl⟩

end Bench

/-- Two candidates are scored, and a later call breeds from them. The better one is named first. -/
theorem lineage_of_reachable_bench :
    let calls : List Call :=
      [.openRun "sort" "bench" "" none .empty none,
        .evolve (bench fun _ => false) none "sort_0" "" (benchSettings 2) 0 1 none,
        .evolve (bench fun _ => false) none "sort_0" "" (benchSettings 1) 1 2 none]
    ∃ first second child, (ledgerAfter calls).rows = [first, second, child] ∧
      first.ranked = true ∧ second.ranked = true ∧ child.iter = 1 ∧
      child.parentIds = .value (.arr [.int 2, .int 1]) ∧
      ∀ r ∈ (ledgerAfter calls).rows, Lineage (ledgerAfter calls) 2 r := by
  intro calls
  have htwo : ∀ call ∈ calls, ∀ k, call.parents? = some k → k = 2 := by
    simp [calls, Call.parents?, benchSettings]
  obtain ⟨-, hall⟩ :=
    lineage_of_reachable calls fun call hmem k hk => by simp [htwo call hmem k hk]
  -- the calls one after the other
  have hrun : (ledgerAfter (calls.take 1)).HasRun "sort_0" := Ledger.isSome_run?_iff.mp (by cbv)
  let noted (l : Ledger) (samples start stop : Nat) : Ledger :=
    { l with invocations := l.invocations
        ++ [noteOf (bench fun _ => false) "sort_0" (benchSettings samples) start stop none] }
  let founded := (noted (ledgerAfter (calls.take 1)) 2 0 1).appendAll "sort_0" "" benchFounders
  have hfounded : ledgerAfter (calls.take 2) = founded := by
    have hpass : evolve (bench fun _ => false) "sort_0" "" (benchSettings 2) 0 1 none
        ⟨ledgerAfter (calls.take 1), none⟩ = .ok _ ⟨founded, some "bcd;"⟩ :=
      (evolve_of_hasRun hrun).trans (visitAll_bench_founders hrun rfl rfl rfl)
    exact congrArg State.ledger (finalState_of_ok hpass)
  have hbred : ledgerAfter calls =
      (noted founded 1 1 2).append "sort_0" "" (benchRecord ⟨1, 0⟩ (some benchParents)) := by
    have hfree : ¬ (noted founded 1 1 2).HasCandidate "sort_0" 1 0 :=
      mt Ledger.holds_iff.mpr Bool.false_ne_true
    have hpass : evolve (bench fun _ => false) "sort_0" "" (benchSettings 1) 1 2 none
        ⟨founded, none⟩ = .ok _ _ :=
      (evolve_of_hasRun hrun).trans
        (visitAll_bench_cons rfl hfree hrun (parentsAt_benchFounders rfl rfl))
    have hsplit : calls = calls.take 2
        ++ [.evolve (bench fun _ => false) none "sort_0" "" (benchSettings 1) 1 2 none] := rfl
    rw [hsplit, ledgerAfter_concat, hfounded]
    exact congrArg State.ledger (finalState_of_ok hpass)
  have hrows : (ledgerAfter calls).rows =
      [Row.ofCandidate 1 "sort_0" "" (benchRecord ⟨0, 0⟩ none),
        Row.ofCandidate 2 "sort_0" "" (benchRecord ⟨0, 1⟩ none),
        Row.ofCandidate 3 "sort_0" "" (benchRecord ⟨1, 0⟩ (some benchParents))] := by
    rw [hbred]
    rfl
  refine ⟨_, _, _, hrows, rfl, rfl, rfl, rfl, fun r hr => ?_⟩
  obtain ⟨before, call, later, k, hcalls, hk, -, -, hlineage⟩ := hall r hr
  have hmem : call ∈ calls := by rw [hcalls]; simp
  exact htwo call hmem k hk ▸ hlineage


end Evolution

end HeuristicEvolution

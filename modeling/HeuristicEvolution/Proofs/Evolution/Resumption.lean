import HeuristicEvolution.Proofs.Evolution.Course
import HeuristicEvolution.Proofs.Evolution.Lineage
import HeuristicEvolution.Proofs.Ledger.Untimed
import Mathlib

/-!
# Resumption

A call that is cut short is repeated, perhaps several times, until it comes to its end. This module
shows that the ledger then holds what one call without interruption would have left.

## The ledger of the book

If the answers are given by a book, so is what every slot adds to a ledger: `Fills` says which
ledger comes of one slot, `FillsAll` which comes of a list of slots, and neither mentions a
laboratory, a time or a failure. Both determine the ledger that they lead to.

## The invariant

Let `S` be the slots of the whole call. What an interrupted call keeps is the *end* of the book:
whatever ledger the book reaches over `S` from the ledger that the call leaves, it also reaches
over `S` from the ledger that the call found (`Rejoins`). For the slots before the point of
interruption are filled, the book passes over them, and a slot that was filled on the way was
filled as the book would have filled it.

## Main definitions

* `Fills`, `FillsAll`, `Rejoins`
* `Attempt`: one of several calls for the same work.

## Main results

* `fillsAll_of_visitAll`: a pass that succeeds leaves the ledger of the book.
* `visitAll_rejoins`: a pass that is cut short keeps the end of the book.
* `resumed_eq_uninterrupted`
-/

namespace HeuristicEvolution

namespace Evolution

/-! ## What the book writes -/

section Book

variable {a : Answers} {runId : String} {settings : Settings} {slot : Slot} {l l' : Ledger}

/-- The book comes to this record. -/
def Records (a : Answers) (settings : Settings) (slot : Slot) (parents : Option Parents)
    (c : Candidate) : Prop :=
  ∃ s s', runSlot a.laboratory settings slot parents s = .ok c s'

theorem Records.unique {parents : Option Parents} {c c' : Candidate}
    (h : Records a settings slot parents c) (h' : Records a settings slot parents c') : c = c' := by
  obtain ⟨s, _, hrun⟩ := h
  obtain ⟨u, _, hrun'⟩ := h'
  obtain ⟨t, hagain⟩ := runSlot_follows a.gives_laboratory hrun u
  rw [hrun'] at hagain
  exact (EStateM.Result.ok.inj hagain).1.symm

/-- The ledger that comes of a slot by the book: it is as before if the slot is filled; otherwise
the record of the book is added, if it may be. -/
inductive Fills (a : Answers) (runId : String) (settings : Settings) (slot : Slot) (l : Ledger) :
    Ledger → Prop where
  | held : l.HasCandidate runId slot.iter slot.sample → Fills a runId settings slot l l
  | filled {parents : Option Parents} {c : Candidate} :
      ¬ l.HasCandidate runId slot.iter slot.sample → l.HasRun runId →
      parentsAt l runId settings slot.iter = .ok parents → Records a settings slot parents c →
      c.flaw? settings.buildAttempts = none →
      Fills a runId settings slot l (l.append runId "" c)

namespace Fills

theorem grows (h : Fills a runId settings slot l l') : l.Extends l' := by
  cases h with
  | held _ => exact .refl l
  | filled _ _ _ _ _ => exact Ledger.extends_append l runId "" _

theorem hasCandidate (h : Fills a runId settings slot l l') :
    l'.HasCandidate runId slot.iter slot.sample := by
  cases h with
  | held hheld => exact hheld
  | filled _ _ _ hrecords _ =>
    obtain ⟨s, s', hrun⟩ := hrecords
    obtain ⟨hiter, hsample, -, -⟩ := slot_of_runSlot hrun
    rw [← hiter, ← hsample]
    exact Ledger.hasCandidate_append l runId "" _

theorem eq_of_held (h : Fills a runId settings slot l l')
    (hheld : l.HasCandidate runId slot.iter slot.sample) : l' = l := by
  cases h with
  | held _ => rfl
  | filled hfree _ _ _ _ => exact absurd hheld hfree

theorem unique {l₁ l₂ : Ledger} (h₁ : Fills a runId settings slot l l₁)
    (h₂ : Fills a runId settings slot l l₂) : l₁ = l₂ := by
  cases h₁ with
  | held hheld => exact (h₂.eq_of_held hheld).symm
  | filled hfree _ hparents hrecords _ =>
    cases h₂ with
    | held hheld => exact absurd hheld hfree
    | filled _ _ hparents' hrecords' _ =>
      obtain rfl := Except.ok.inj (hparents.symm.trans hparents')
      rw [hrecords.unique hrecords']

end Fills

/-- The ledger that comes of a list of slots by the book. -/
inductive FillsAll (a : Answers) (runId : String) (settings : Settings) :
    List Slot → Ledger → Ledger → Prop where
  | nil (l : Ledger) : FillsAll a runId settings [] l l
  | cons {slot : Slot} {rest : List Slot} {l l₁ l₂ : Ledger} :
      Fills a runId settings slot l l₁ → FillsAll a runId settings rest l₁ l₂ →
      FillsAll a runId settings (slot :: rest) l l₂

theorem FillsAll.unique {xs : List Slot} {l l₁ l₂ : Ledger}
    (h₁ : FillsAll a runId settings xs l l₁) (h₂ : FillsAll a runId settings xs l l₂) :
    l₁ = l₂ := by
  induction h₁ with
  | nil l => cases h₂; rfl
  | cons hfirst _ ih =>
    cases h₂ with
    | cons hfirst' hrest' =>
      obtain rfl := hfirst.unique hfirst'
      exact ih hrest'

/-- The book passes over slots that are filled. -/
theorem fillsAll_append_iff {before after : List Slot} {e : Ledger}
    (hheld : ∀ slot ∈ before, l.HasCandidate runId slot.iter slot.sample) :
    FillsAll a runId settings (before ++ after) l e ↔ FillsAll a runId settings after l e := by
  induction before with
  | nil => exact Iff.rfl
  | cons slot before ih =>
    have hfirst := hheld slot List.mem_cons_self
    have hrest := ih fun slot hmem => hheld slot (List.mem_cons_of_mem _ hmem)
    rw [← hrest]
    constructor
    · intro h
      cases h with
      | cons hslot hall => exact hslot.eq_of_held hfirst ▸ hall
    · exact fun h => .cons (.held hfirst) h

/-- Whatever the book reaches over the slots from the second ledger, it reaches from the first. -/
def Rejoins (a : Answers) (runId : String) (settings : Settings) (slots : List Slot)
    (l l' : Ledger) : Prop :=
  ∀ e, FillsAll a runId settings slots l' e → FillsAll a runId settings slots l e

theorem Rejoins.trans {xs : List Slot} {l₁ l₂ l₃ : Ledger} (h : Rejoins a runId settings xs l₁ l₂)
    (h' : Rejoins a runId settings xs l₂ l₃) : Rejoins a runId settings xs l₁ l₃ :=
  fun e he => h e (h' e he)

/-- **One slot on the way.** The slots before it are filled, and it is filled by the book. -/
theorem rejoins_of_fills {before after : List Slot}
    (hbefore : ∀ x ∈ before, l.HasCandidate runId x.iter x.sample)
    (hfill : Fills a runId settings slot l l') :
    Rejoins a runId settings (before ++ slot :: after) l l' := by
  intro e he
  have hbefore' : ∀ x ∈ before, l'.HasCandidate runId x.iter x.sample :=
    fun x hx => hfill.grows.hasCandidate (hbefore x hx)
  have hlater := (fillsAll_append_iff hbefore').mp he
  have hafter : FillsAll a runId settings after l' e := by
    cases hlater with
    | cons hslot hall => exact hslot.eq_of_held hfill.hasCandidate ▸ hall
  exact (fillsAll_append_iff hbefore).mpr (.cons hfill hafter)

end Book

/-! ## Passes and the book -/

section Passes

variable {σ : Type} {lab : Laboratory σ} {a : Answers} {runId now : String} {settings : Settings}
  {slot : Slot}

theorem parentsAt_untimed (l : Ledger) (iter : Nat) :
    parentsAt l.untimed runId settings iter = parentsAt l runId settings iter := by
  rw [parentsAt, parentsAt, Ledger.selectParents_untimed]

/-- Work on a slot that succeeds does what the book does. -/
theorem fills_of_visit (hgives : lab.Gives a) {c? : Option Candidate} {s s' : State σ}
    (h : visit lab runId now settings slot s = .ok c? s') :
    Fills a runId settings slot s.ledger.untimed s'.ledger.untimed := by
  rcases taken_of_visit h with ⟨hheld, hsame⟩ | ⟨c, htaken, hmore⟩
  · rw [hsame]
    exact .held (Ledger.hasCandidate_untimed_iff.mpr hheld)
  · obtain ⟨parents, t, t', hledger, hparents, hrun⟩ := htaken.made
    obtain ⟨u, hbook⟩ := runSlot_follows hgives hrun ⟨Ledger.empty, []⟩
    rw [hmore, Ledger.untimed_append]
    have hfree := mt Ledger.hasCandidate_untimed_iff.mp htaken.free
    have hrun := Ledger.hasRun_untimed_iff.mpr htaken.hasRun
    have hchosen := (parentsAt_untimed s.ledger slot.iter).trans hparents
    exact .filled hfree hrun hchosen ⟨_, _, hbook⟩ htaken.flawless

/-- **A pass that succeeds leaves the ledger of the book.** -/
theorem fillsAll_of_visitAll (hgives : lab.Gives a) {xs : List Slot} {summary summary' : Summary}
    {s s' : State σ} (h : visitAll lab runId now settings xs summary s = .ok summary' s') :
    FillsAll a runId settings xs s.ledger.untimed s'.ledger.untimed := by
  induction xs generalizing summary s with
  | nil =>
    obtain ⟨-, rfl⟩ := EStateM.Result.ok.inj h
    exact .nil _
  | cons slot rest ih =>
    obtain ⟨c?, t, hvisit, hrest⟩ := bind_eq_ok_iff.mp h
    exact .cons (fills_of_visit hgives hvisit) (ih hrest)

/-- **A pass that is cut short keeps the end of the book.** The induction is on the slots that are
still to be visited; the slots before them are filled. -/
theorem visitAll_rejoins (hgives : lab.Gives a) (before xs after : List Slot) (summary : Summary)
    (s : State σ) (hbefore : ∀ x ∈ before, s.ledger.HasCandidate runId x.iter x.sample) :
    Rejoins a runId settings (before ++ (xs ++ after)) s.ledger.untimed
      (finalState (visitAll lab runId now settings xs summary) s).ledger.untimed := by
  induction xs generalizing before summary s with
  | nil => exact fun e he => he
  | cons slot xs ih =>
    rw [visitAll, finalState]
    cases hvisit : visit lab runId now settings slot s with
    | error e s' =>
      rw [bind_of_error hvisit, ledger_of_visit_error hvisit]
      exact fun e he => he
    | ok c? s' =>
      rw [bind_of_ok hvisit]
      have hfill := fills_of_visit hgives hvisit
      have hheld : ∀ x ∈ before ++ [slot], s'.ledger.HasCandidate runId x.iter x.sample := by
        intro x hx
        rw [← Ledger.hasCandidate_untimed_iff]
        rcases List.mem_append.mp hx with hx | hx
        · exact hfill.grows.hasCandidate (Ledger.hasCandidate_untimed_iff.mpr (hbefore x hx))
        · obtain rfl := List.mem_singleton.mp hx
          exact hfill.hasCandidate
      have hstep : Rejoins a runId settings (before ++ slot :: (xs ++ after)) s.ledger.untimed
          s'.ledger.untimed :=
        rejoins_of_fills (fun x hx => Ledger.hasCandidate_untimed_iff.mpr (hbefore x hx)) hfill
      have hrest := ih (before ++ [slot]) (summary.count c?) s' hheld
      rw [List.append_assoc, List.singleton_append] at hrest
      exact hstep.trans hrest

/-- The laboratory of the book does what the book does. -/
theorem visit_of_fills {l : Ledger} {s : State Transcript}
    (h : Fills a runId settings slot s.ledger.untimed l) :
    ∃ c? s', visit a.laboratory runId now settings slot s = .ok c? s' ∧ s'.ledger.untimed = l := by
  cases h with
  | held hheld => exact ⟨none, s, visit_of_held (Ledger.hasCandidate_untimed_iff.mp hheld), rfl⟩
  | filled hfree hrun hparents hrecords hflaw =>
    rename_i parents c
    obtain ⟨u, u', hbook⟩ := hrecords
    obtain ⟨t, hagain⟩ := runSlot_follows a.gives_laboratory hbook s
    obtain ⟨hiter, hsample, -, -⟩ := slot_of_runSlot hbook
    rw [parentsAt_untimed] at hparents
    have hfree := mt Ledger.hasCandidate_untimed_iff.mpr hfree
    have hfor : parentsFor runId settings slot.iter none s = _ :=
      parentsFor_apply fun p hp => nomatch hp
    rw [hparents] at hfor
    have hrecord : record runId now settings.buildAttempts c ⟨s.ledger, t⟩
        = .ok () ⟨s.ledger.append runId now c, t⟩ :=
      record_eq_ok_iff.mpr
        ⟨hflaw, by rwa [hiter, hsample], Ledger.hasRun_untimed_iff.mp hrun, rfl⟩
    refine ⟨some c, ⟨s.ledger.append runId now c, t⟩, ?_, Ledger.untimed_append _ _ _ _⟩
    rw [visit_of_free hfree, bind_of_ok hfor, bind_of_ok hagain, bind_of_ok hrecord]
    rfl

theorem visitAll_of_fillsAll (now : String) {xs : List Slot} {l : Ledger} (s : State Transcript)
    (h : FillsAll a runId settings xs s.ledger.untimed l) (summary : Summary) :
    ∃ summary' s', visitAll a.laboratory runId now settings xs summary s = .ok summary' s' := by
  induction xs generalizing summary s with
  | nil => exact ⟨summary, s, rfl⟩
  | cons slot rest ih =>
    cases h with
    | cons hslot hrest =>
      obtain ⟨c?, s₁, hvisit, hledger⟩ := visit_of_fills hslot
      obtain ⟨summary', s', hall⟩ := ih s₁ (hledger ▸ hrest) (summary.count c?)
      exact ⟨summary', s', by rw [visitAll, bind_of_ok hvisit, hall]⟩

end Passes

/-! ## Attempts -/

/-- One of several calls for the same work. Each has a laboratory, a world and a time of its own,
and may be for fewer iterations than the last. -/
structure Attempt where
  World : Type
  lab : Laboratory World
  world : World
  now : String
  stop : Nat
  checkout : Option Checkout

namespace Attempt

variable (x : Attempt) (runId : String) (settings : Settings) (start : Nat) (l : Ledger)

/-- The ledger that the attempt leaves, whether it succeeds or is cut short. -/
def leaves : Ledger :=
  (finalState (evolve x.lab runId x.now settings start x.stop x.checkout) ⟨l, x.world⟩).ledger

/-- The attempt comes to its end. -/
def Succeeds : Prop :=
  ∃ summary s', evolve x.lab runId x.now settings start x.stop x.checkout ⟨l, x.world⟩
    = .ok summary s'

/-- Whether an attempt comes to its end can be found out by making it. -/
theorem succeeds_iff :
    x.Succeeds runId settings start l ↔
      (match evolve x.lab runId x.now settings start x.stop x.checkout ⟨l, x.world⟩ with
        | .ok _ _ => true
        | .error _ _ => false) = true := by
  rw [Succeeds]
  split
  · next h => simp [h]
  · next h => simp [h]

instance : Decidable (x.Succeeds runId settings start l) :=
  decidable_of_iff' _ (succeeds_iff x runId settings start l)

/-- The ledger that attempts leave, one after the other. -/
def leaveAll (attempts : List Attempt) : Ledger :=
  attempts.foldl (fun l x => x.leaves runId settings start l) l

/-- The attempt in which the book is read out from the start. -/
def ofBook (a : Answers) (stop : Nat) : Attempt where
  World := Transcript
  lab := a.laboratory
  world := []
  now := ""
  stop := stop
  checkout := none

variable {x runId settings start l} {a : Answers}

theorem runs_leaves : (x.leaves runId settings start l).runs = l.runs := by
  refine evolve_preserves (P := fun l' => l'.runs = l.runs) ?_ ?_ ⟨l, x.world⟩ rfl
  · intro l₁ l₂ call hcall h
    obtain ⟨-, rfl⟩ := Ledger.recordInvocation_eq_ok_iff.mp hcall
    exact h
  · exact fun _ _ _ _ _ h => h

theorem runs_leaveAll (attempts : List Attempt) :
    (leaveAll runId settings start l attempts).runs = l.runs := by
  induction attempts generalizing l with
  | nil => rfl
  | cons x rest ih => exact ih.trans runs_leaves

/-- Fewer iterations are the beginning of more. -/
theorem slots_append {stop stop' : Nat} (samples : Nat) (h : stop ≤ stop') :
    ∃ after, slots start stop' samples = slots start stop samples ++ after := by
  refine ⟨(List.range' (start + (stop - start)) (stop' - start - (stop - start))).flatMap
    fun iter => slotsOf iter samples, ?_⟩
  have hsplit : stop' - start = stop - start + (stop' - start - (stop - start)) := by omega
  rw [slots, slots, ← List.flatMap_append, List.range'_append_1, ← hsplit]

/-- An attempt that is cut short keeps the end of the book. -/
theorem rejoins_leaves (hgives : x.lab.Gives a) {stop : Nat} (hstop : x.stop ≤ stop) :
    Rejoins a runId settings (slots start stop settings.samples) l.untimed
      (x.leaves runId settings start l).untimed := by
  rw [leaves, finalState, evolve_eq]
  cases hnoted : l.recordInvocation _ with
  | error e => exact fun e he => he
  | ok l₁ =>
    obtain ⟨after, hslots⟩ := slots_append settings.samples hstop
    rw [hslots, ← Ledger.untimed_of_recordInvocation hnoted]
    exact visitAll_rejoins hgives [] _ after _ ⟨l₁, x.world⟩ (by simp)

theorem rejoins_leaveAll {attempts : List Attempt} {stop : Nat}
    (hgives : ∀ x ∈ attempts, x.lab.Gives a) (hstop : ∀ x ∈ attempts, x.stop ≤ stop) :
    Rejoins a runId settings (slots start stop settings.samples) l.untimed
      (leaveAll runId settings start l attempts).untimed := by
  induction attempts generalizing l with
  | nil => exact fun e he => he
  | cons x rest ih =>
    have hfirst : Rejoins a runId settings (slots start stop settings.samples) l.untimed
        (x.leaves runId settings start l).untimed :=
      rejoins_leaves (hgives x List.mem_cons_self) (hstop x List.mem_cons_self)
    exact hfirst.trans (ih (fun y hy => hgives y (List.mem_cons_of_mem _ hy))
      fun y hy => hstop y (List.mem_cons_of_mem _ hy))

/-- An attempt that succeeds has found its run, notes itself and passes through its slots. -/
theorem succeeds_cases (h : x.Succeeds runId settings start l) :
    l.HasRun runId ∧ ∃ l₁ summary s', l₁.untimed = l.untimed ∧
      visitAll x.lab runId x.now settings (slots start x.stop settings.samples) (.start runId)
        ⟨l₁, x.world⟩ = .ok summary s' ∧ x.leaves runId settings start l = s'.ledger := by
  obtain ⟨summary, s', hok⟩ := h
  have hleaves : x.leaves runId settings start l = s'.ledger := by
    rw [leaves, finalState_of_ok hok]
  rw [evolve_eq] at hok
  cases hnoted : l.recordInvocation _ with
  | error e =>
    rw [hnoted] at hok
    cases hok
  | ok l₁ =>
    rw [hnoted] at hok
    exact ⟨(Ledger.recordInvocation_eq_ok_iff.mp hnoted).1, l₁, summary, s',
      Ledger.untimed_of_recordInvocation hnoted, hok, hleaves⟩

/-- An attempt that succeeds leaves the ledger of the book. -/
theorem fillsAll_of_succeeds (hgives : x.lab.Gives a) (h : x.Succeeds runId settings start l) :
    FillsAll a runId settings (slots start x.stop settings.samples) l.untimed
      (x.leaves runId settings start l).untimed := by
  obtain ⟨-, l₁, summary, s', hsame, hall, hleaves⟩ := succeeds_cases h
  rw [hleaves, ← hsame]
  exact fillsAll_of_visitAll hgives hall

/-- An attempt that succeeds leaves no slot open. -/
theorem hasCandidate_of_succeeds (h : x.Succeeds runId settings start l) :
    ∀ slot ∈ slots start x.stop settings.samples,
      (x.leaves runId settings start l).HasCandidate runId slot.iter slot.sample := by
  obtain ⟨-, l₁, summary, s', -, hall, hleaves⟩ := succeeds_cases h
  rw [hleaves]
  exact hasCandidate_of_visitAll hall

/-- Where the book has an end, reading it out succeeds. -/
theorem succeeds_ofBook {stop : Nat} {e : Ledger} (hrun : l.HasRun runId)
    (h : FillsAll a runId settings (slots start stop settings.samples) l.untimed e) :
    (ofBook a stop).Succeeds runId settings start l := by
  let l₁ : Ledger :=
    { l with invocations := l.invocations ++ [noteOf a.laboratory runId settings start stop none] }
  obtain ⟨summary, s', hall⟩ := visitAll_of_fillsAll "" ⟨l₁, []⟩ h (.start runId)
  exact ⟨summary, s', (evolve_of_hasRun hrun).trans hall⟩

end Attempt

/-- **Interrupted and resumed is as good as uninterrupted.** Let some attempts at the same work be
made one after the other, by whatever laboratories, as long as these answer by one book when they
answer. Each attempt may be for fewer iterations, and may be cut short at any point. If then a last
attempt succeeds, no slot of the work is open, and the ledger holds what an uninterrupted call for
the same iterations leaves of the first ledger: the same rows with the same ids, records and
parents in the same order, the same runs and the same next id, up to the times at which the rows
were recorded. And there is such a call. -/
theorem resumed_eq_uninterrupted (a : Answers) (runId : String) (settings : Settings)
    (start : Nat) (first : Ledger) (attempts : List Attempt) (last : Attempt)
    (hgives : ∀ x ∈ attempts, x.lab.Gives a) (hstop : ∀ x ∈ attempts, x.stop ≤ last.stop)
    (hlast : last.lab.Gives a)
    (hsucceeds :
      last.Succeeds runId settings start (Attempt.leaveAll runId settings start first attempts)) :
    let resumed :=
      last.leaves runId settings start (Attempt.leaveAll runId settings start first attempts)
    (∀ slot ∈ slots start last.stop settings.samples,
      resumed.HasCandidate runId slot.iter slot.sample) ∧
    (∀ whole : Attempt, whole.lab.Gives a → whole.stop = last.stop →
      whole.Succeeds runId settings start first →
        resumed.untimed = (whole.leaves runId settings start first).untimed) ∧
    ∃ whole : Attempt, whole.lab.Gives a ∧ whole.stop = last.stop ∧
      whole.Succeeds runId settings start first := by
  intro resumed
  have hbook := Attempt.fillsAll_of_succeeds hlast hsucceeds
  have hend : FillsAll a runId settings (slots start last.stop settings.samples) first.untimed
      resumed.untimed := Attempt.rejoins_leaveAll hgives hstop _ hbook
  have hrun : first.HasRun runId := by
    have hfound := (Attempt.succeeds_cases hsucceeds).1
    rwa [Ledger.HasRun, Attempt.runs_leaveAll] at hfound
  refine ⟨Attempt.hasCandidate_of_succeeds hsucceeds, fun whole hwhole hsame hok => ?_, ?_⟩
  · have hall := Attempt.fillsAll_of_succeeds hwhole hok
    rw [hsame] at hall
    exact hend.unique hall
  · exact ⟨Attempt.ofBook a last.stop, a.gives_laboratory, rfl,
      Attempt.succeeds_ofBook hrun hend⟩

/-! ### A run that was interrupted -/

section Bench

/-- What the bench answers when it answers: an experiment comes to what the code that was built last
comes to. -/
def benchAnswers : Answers where
  initialPrompt _ := "write a heuristic"
  mutationPrompt _ _ := "improve on it"
  repairPrompt _ _ := "fix it"
  reply slot _ _ := (benchReply slot, ⟨none, 0, 0⟩)
  build _ _ _ := Script.goodBuild
  experiment
    | _, .built code _ :: _ => benchOutcome code
    | _, _ => Script.crashed

variable {broken : Slot → Bool} {slot : Slot}

/-- Behind a build, its code is what the bench has. -/
theorem left_of_course {session : Nat} {t : Transcript} {left : Option String}
    (h : Course (bench broken) slot session t left) {code : String} {result : BuildResult}
    {before : Transcript} (hbuilt : t = .built code result :: before) : left = some code := by
  induction h with
  | opened _ => cases hbuilt
  | said _ _ _ _ => cases hbuilt
  | unanswered _ _ hask hfault _ => exact absurd (Prod.mk.inj hask).1.symm (hfault _ _)
  | built _ _ _ hbuild _ =>
    obtain ⟨hevent, -⟩ := List.cons.inj hbuilt
    obtain ⟨rfl, -⟩ := Event.built.inj hevent
    exact (Prod.mk.inj hbuild).2.symm

theorem bench_gives (broken : Slot → Bool) : (bench broken).Gives benchAnswers where
  initialPrompt _ _ := rfl
  mutationPrompt _ _ _ := rfl
  repairPrompt := rfl
  reply _ _ hask := by
    obtain ⟨rfl, rfl⟩ := Exchange.reply.inj (Prod.mk.inj hask).1
    rfl
  build _ _ _ hbuild := Except.ok.inj (Prod.mk.inj hbuild).1
  experiment {slot _ t left _ _} hcourse hended hmeasure := by
    have hresult := (Prod.mk.inj hmeasure).1
    cases t with
    | nil => exact hended.elim
    | cons event before =>
      cases event with
      | said prompt reply usage => exact hended.elim
      | built code result =>
        rw [left_of_course hcourse rfl] at hresult
        split at hresult
        · cases hresult
        · exact Except.ok.inj hresult

/-- Two generations of two at the bench. -/
def benchAttempt (broken : Slot → Bool) (now : String) : Attempt :=
  ⟨Option String, bench broken, none, now, 2, none⟩

/-- A run in which nothing is recorded. -/
def benchRun (calls : List Invocation) : Ledger :=
  { Ledger.empty with runs := [⟨"sort_0", "sort", "", "", .null⟩], invocations := calls }

theorem hasRun_benchRun (calls : List Invocation) : (benchRun calls).HasRun "sort_0" :=
  ⟨_, List.mem_singleton_self _, rfl⟩

/-- The run when three of its four slots are filled. -/
def halfway (now : String) (calls : List Invocation) : Ledger :=
  ((benchRun calls).appendAll "sort_0" now benchFounders).append "sort_0" now
    (benchRecord ⟨1, 0⟩ (some benchParents))

/-- The run when all of them are filled, the last one at another time. -/
def finished (now now' : String) (calls : List Invocation) : Ledger :=
  (halfway now calls).append "sort_0" now' (benchRecord ⟨1, 1⟩ (some benchParents))

/-- The first three slots are filled if their experiments work. -/
theorem visitAll_benchRun (hworks : ∀ slot, slot ≠ ⟨1, 1⟩ → broken slot = false) (now : String)
    (calls : List Invocation) (left : Option String) (summary : Summary) :
    ∃ summary', visitAll (bench broken) "sort_0" now (benchSettings 2) (slots 0 2 2) summary
        ⟨benchRun calls, left⟩ =
      visitAll (bench broken) "sort_0" now (benchSettings 2) [⟨1, 1⟩] summary'
        ⟨halfway now calls, some "a;"⟩ := by
  have hfounders : visitAll (bench broken) "sort_0" now (benchSettings 2) (slots 0 2 2) summary
      ⟨benchRun calls, left⟩ = _ :=
    visitAll_bench_founders (hasRun_benchRun calls) rfl (hworks ⟨0, 0⟩ (by decide))
      (hworks ⟨0, 1⟩ (by decide))
  let founded := (benchRun calls).appendAll "sort_0" now benchFounders
  have hfree : ¬ founded.HasCandidate "sort_0" 1 0 :=
    mt Ledger.holds_iff.mpr Bool.false_ne_true
  exact ⟨_, hfounders.trans (visitAll_bench_cons (hworks ⟨1, 0⟩ (by decide)) hfree
    (hasRun_benchRun calls) (parentsAt_benchFounders rfl rfl))⟩

/-- The last slot chooses the parents of its generation again. -/
theorem visit_halfway {now now' : String} {calls : List Invocation} {left : Option String} :
    visit (bench broken) "sort_0" now' (benchSettings 2) ⟨1, 1⟩ ⟨halfway now calls, left⟩ =
      if broken ⟨1, 1⟩ then .error (.system none) ⟨halfway now calls, some "bcd;"⟩
      else .ok (some (benchRecord ⟨1, 1⟩ (some benchParents)))
        ⟨finished now now' calls, some "bcd;"⟩ := by
  have hfree : ¬ (halfway now calls).HasCandidate "sort_0" 1 1 :=
    mt Ledger.holds_iff.mpr Bool.false_ne_true
  have hparents : parentsAt (halfway now calls) "sort_0" (benchSettings 2) 1
      = .ok (some benchParents) := by
    rw [halfway, parentsAt_append _ (Nat.le_refl 1)]
    exact parentsAt_benchFounders rfl rfl
  exact visit_bench hfree (hasRun_benchRun calls) hparents

/-- An attempt in which the last experiment is broken fills three slots. -/
theorem evolve_of_broken (now : String) :
    ∃ calls, evolve (bench fun slot => slot == ⟨1, 1⟩) "sort_0" now (benchSettings 2) 0 2 none
      ⟨benchRun [], none⟩ = .error (.system none) ⟨halfway now calls, some "bcd;"⟩ := by
  have hworks : ∀ slot : Slot, slot ≠ ⟨1, 1⟩ → (slot == ⟨1, 1⟩) = false :=
    fun slot hne => beq_eq_false_iff_ne.mpr hne
  obtain ⟨summary, hpass⟩ := visitAll_benchRun hworks now
    [noteOf (bench fun slot => slot == ⟨1, 1⟩) "sort_0" (benchSettings 2) 0 2 none] none
    (.start "sort_0")
  rw [visitAll, bind_of_error visit_halfway] at hpass
  exact ⟨_, (evolve_of_hasRun (hasRun_benchRun [])).trans hpass⟩

/-- An attempt in which nothing is broken fills all four slots. -/
theorem evolve_of_works (now : String) :
    ∃ calls summary', evolve (bench fun _ => false) "sort_0" now (benchSettings 2) 0 2 none
      ⟨benchRun [], none⟩ = .ok summary' ⟨finished now now calls, some "bcd;"⟩ := by
  have hworks : ∀ slot : Slot, slot ≠ ⟨1, 1⟩ → (fun _ : Slot => false) slot = false :=
    fun _ _ => rfl
  obtain ⟨summary, hpass⟩ := visitAll_benchRun hworks now
    [noteOf (bench fun _ => false) "sort_0" (benchSettings 2) 0 2 none] none (.start "sort_0")
  rw [visitAll, bind_of_ok visit_halfway] at hpass
  exact ⟨_, _, (evolve_of_hasRun (hasRun_benchRun [])).trans hpass⟩

/-- An attempt that finds three slots filled fills the last one. -/
theorem evolve_of_halfway (now now' : String) (calls : List Invocation) :
    ∃ calls' summary', evolve (bench fun _ => false) "sort_0" now' (benchSettings 2) 0 2 none
      ⟨halfway now calls, none⟩ = .ok summary' ⟨finished now now' calls', some "bcd;"⟩ := by
  let calls' := calls ++ [noteOf (bench fun _ => false) "sort_0" (benchSettings 2) 0 2 none]
  have hheld : ∀ slot ∈ [Slot.mk 0 0, ⟨0, 1⟩, ⟨1, 0⟩],
      (halfway now calls').HasCandidate "sort_0" slot.iter slot.sample := by
    intro slot hslot
    simp only [List.mem_cons, List.not_mem_nil, or_false] at hslot
    rcases hslot with rfl | rfl | rfl <;> exact Ledger.holds_iff.mp rfl
  have hpass : visitAll (bench fun _ => false) "sort_0" now' (benchSettings 2)
      ([⟨0, 0⟩, ⟨0, 1⟩, ⟨1, 0⟩] ++ [⟨1, 1⟩]) (.start "sort_0") ⟨halfway now calls', none⟩ = _ :=
    visitAll_append _ _ _ _
  rw [bind_of_ok (visitAll_of_held hheld _), visitAll, bind_of_ok visit_halfway] at hpass
  exact ⟨calls', _, (evolve_of_hasRun (hasRun_benchRun [])).trans hpass⟩

end Bench

/-- The first attempt is cut short in the last experiment of the second generation, when three of
four slots are filled; the second attempt goes on, and breeds the last candidate from the parents
of its generation. -/
theorem resumed_eq_uninterrupted_bench :
    let cut := benchAttempt (fun slot => slot == ⟨1, 1⟩) "first"
    let last := benchAttempt (fun _ => false) "second"
    let whole := benchAttempt (fun _ => false) "alone"
    let before := cut.leaves "sort_0" (benchSettings 2) 0 (benchRun [])
    let resumed := last.leaves "sort_0" (benchSettings 2) 0 before
    before.rows.length = 3 ∧
      resumed.untimed = (whole.leaves "sort_0" (benchSettings 2) 0 (benchRun [])).untimed ∧
      ∃ first second third child, resumed.rows = [first, second, third, child] ∧
        first.ranked = true ∧ second.ranked = true ∧ child.iter = 1 ∧ child.ranked = true ∧
        child.parentIds = .value (.arr [.int 2, .int 1]) := by
  intro cut last whole before resumed
  obtain ⟨calls, hcut⟩ := evolve_of_broken "first"
  have hbefore : before = halfway "first" calls :=
    congrArg State.ledger (finalState_of_error hcut)
  obtain ⟨calls', summary, hlast⟩ := evolve_of_halfway "first" "second" calls
  rw [← hbefore] at hlast
  obtain ⟨calls'', summary', hwhole⟩ := evolve_of_works "alone"
  have hgives : ∀ x ∈ [cut], x.lab.Gives benchAnswers ∧ x.stop ≤ 2 := by
    intro x hx
    obtain rfl := List.mem_singleton.mp hx
    exact ⟨bench_gives _, Nat.le_refl 2⟩
  obtain ⟨-, hsame, -⟩ := resumed_eq_uninterrupted benchAnswers "sort_0" (benchSettings 2) 0
    (benchRun []) [cut] last (fun x hx => (hgives x hx).1) (fun x hx => (hgives x hx).2)
    (bench_gives _) ⟨summary, _, hlast⟩
  have hresumed : resumed = finished "first" "second" calls' :=
    congrArg State.ledger (finalState_of_ok hlast)
  refine ⟨?_, hsame whole (bench_gives _) rfl ⟨summary', _, hwhole⟩, ?_⟩
  · rw [hbefore]
    rfl
  · rw [hresumed]
    exact ⟨_, _, _, _, rfl, rfl, rfl, rfl, rfl, rfl⟩

end Evolution

end HeuristicEvolution

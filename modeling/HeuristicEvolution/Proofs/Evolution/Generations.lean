import HeuristicEvolution.Evolution.Scripted
import HeuristicEvolution.Proofs.Evolution.Journal
import HeuristicEvolution.Proofs.Evolution.Lineage
import HeuristicEvolution.Proofs.Evolution.Records

/-!
# One set of parents for a generation

The candidates of a generation are siblings. Their parents are the best rows of earlier
iterations as the ledger stands when the generation is reached, and what the generation itself
records does not change them, though some of its slots may have been filled by an earlier call and
rows of later iterations may be in the ledger already. If there are too few rows to choose from,
the call fails before it does anything for the generation.

A call is cut in two where it reaches the generation (`Reaches`, `evolve_of_reaches`). The journal
of the second part begins with the slots of the generation, and there one choice is as good as
any (`Journal.made_of_iter`).

## Main definitions

* `Evolution.Reaches`: a call comes to an iteration.
* `Evolution.Siblings`: what the candidates of an iteration share.

## Main results

* `Evolution.generation_journal`: the journal of a call, cut where it reaches a generation.
* `Evolution.visitAll_of_barren`: a generation without parents.
* `Evolution.recorded_of_reaches`, `Evolution.recorded_of_never`: what a call records that comes to
  an iteration, and one that does not.
* `Evolution.one_parent_set_per_generation`
-/

namespace HeuristicEvolution

namespace Evolution

variable {σ : Type} {lab : Laboratory σ} {runId now : String} {settings : Settings}
  {start stop : Nat} {checkout : Option Checkout} {s s₁ : State σ} {iter : Nat}

/-! ## Coming to an iteration -/

/-- The call comes to the iteration with the state `s₁`: it is noted, and all work on earlier
iterations succeeds. -/
def Reaches (lab : Laboratory σ) (runId now : String) (settings : Settings) (start stop : Nat)
    (checkout : Option Checkout) (s : State σ) (iter : Nat) (s₁ : State σ) : Prop :=
  ∃ l summary,
    s.ledger.recordInvocation (noteOf lab runId settings start stop checkout) = .ok l ∧
    runIterations lab runId now settings (List.range' start (iter - start)) (.start runId)
      { s with ledger := l } = .ok summary s₁

theorem reaches_iff :
    Reaches lab runId now settings start stop checkout s iter s₁ ↔ ∃ l summary,
      s.ledger.recordInvocation (noteOf lab runId settings start stop checkout) = .ok l ∧
      visitAll lab runId now settings (slots start iter settings.samples) (.start runId)
        { s with ledger := l } = .ok summary s₁ := by
  simp only [Reaches, runIterations_eq_visitAll]
  rfl

/-- There is one state with which a call comes to an iteration. -/
theorem Reaches.unique {s₂ : State σ}
    (h : Reaches lab runId now settings start stop checkout s iter s₁)
    (h' : Reaches lab runId now settings start stop checkout s iter s₂) : s₁ = s₂ := by
  obtain ⟨l, summary, hnoted, hearlier⟩ := h
  obtain ⟨l', summary', hnoted', hearlier'⟩ := h'
  obtain rfl := Except.ok.inj (hnoted.symm.trans hnoted')
  exact (EStateM.Result.ok.inj (hearlier.symm.trans hearlier')).2

/-- From there on, the call goes over the slots that are left. -/
theorem evolve_of_reaches (hstart : start ≤ iter) (hstop : iter ≤ stop)
    (h : Reaches lab runId now settings start stop checkout s iter s₁) :
    ∃ summary, evolve lab runId now settings start stop checkout s =
      visitAll lab runId now settings (slots iter stop settings.samples) summary s₁ := by
  obtain ⟨l, summary, hnoted, hearlier⟩ := reaches_iff.mp h
  refine ⟨summary, ?_⟩
  rw [evolve_eq, hnoted]
  simp only
  rw [slots_append settings.samples hstart hstop, visitAll_append, bind_of_ok hearlier]

/-- The call comes to the iteration when it is watched, and in the same state. -/
theorem reaches_iff_watched :
    Reaches lab runId now settings start stop checkout s iter s₁ ↔ ∃ t, unwatched t = s₁ ∧
      Reaches lab.watched runId now settings start stop checkout ⟨s.ledger, .start s.world⟩ iter
        t := by
  have hmirrors : MirrorsRun
      (visitAll lab.watched runId now settings (slots start iter settings.samples) (.start runId))
      (visitAll lab runId now settings (slots start iter settings.samples) (.start runId)) :=
    visitAll_watched _ _
  constructor
  · intro h
    obtain ⟨l, summary, hnoted, hearlier⟩ := reaches_iff.mp h
    cases hr : visitAll lab.watched runId now settings (slots start iter settings.samples)
        (.start runId) ⟨l, .start s.world⟩ with
    | error e t => exact nomatch (hmirrors.error trivial hr).symm.trans hearlier
    | ok summary' t =>
      obtain ⟨_, hsame, rfl, -⟩ := hmirrors.ok trivial hr
      obtain ⟨-, hstate⟩ := EStateM.Result.ok.inj (hsame.symm.trans hearlier)
      exact ⟨t, hstate, reaches_iff.mpr ⟨l, _, hnoted, hr⟩⟩
  · rintro ⟨t, rfl, h⟩
    obtain ⟨l, summary, hnoted, hearlier⟩ := reaches_iff.mp h
    obtain ⟨_, hsame, rfl, -⟩ := hmirrors.ok trivial hearlier
    exact reaches_iff.mpr ⟨l, _, hnoted, hsame⟩

/-- **The journal of a call, cut where it comes to an iteration.** -/
theorem generation_journal (hstart : start ≤ iter) (hstop : iter ≤ stop)
    (h : Reaches lab runId now settings start stop checkout s iter s₁) :
    ∃ l earlier n works,
      s.ledger.recordInvocation (noteOf lab runId settings start stop checkout) = .ok l ∧
      Journal runId now settings 0 (slots start iter settings.samples) l earlier s₁.ledger ∧
      Journal runId now settings n (slots iter stop settings.samples) s₁.ledger works
        (finalState (evolve lab runId now settings start stop checkout) s).ledger ∧
      callsOf lab runId now settings start stop checkout s
        = (earlier ++ works).flatMap Work.noted := by
  obtain ⟨t, rfl, ht⟩ := reaches_iff_watched.mp h
  obtain ⟨l, summary, hnoted, hearlier⟩ := reaches_iff.mp ht
  obtain ⟨summary', hrest⟩ := evolve_of_reaches hstart hstop ht
  have hfinal : finalState (evolve lab.watched runId now settings start stop checkout)
      ⟨s.ledger, .start s.world⟩ = finalState (visitAll lab.watched runId now settings
        (slots iter stop settings.samples) summary') t := by
    rw [finalState, hrest, finalState]
  obtain ⟨earlier, hfirst, hcalls⟩ := visitAll_journal lab runId now settings
    (slots start iter settings.samples) (.start runId) ⟨l, .start s.world⟩
  obtain ⟨works, hsecond, hmore⟩ := visitAll_journal lab runId now settings
    (slots iter stop settings.samples) summary' t
  rw [finalState_of_ok hearlier] at hfirst hcalls
  refine ⟨l, earlier, t.world.sessions.length, works, hnoted, hfirst, ?_, ?_⟩
  · rw [finalState_evolve_eq, hfinal]
    exact hsecond
  · rw [callsOf, hfinal, hmore, hcalls, List.flatMap_append]
    rfl

/-- The journal of a call that does not come to an iteration. -/
theorem early_journal (hstart : start ≤ iter) (hstop : iter ≤ stop)
    (hnever : ∀ s₁, ¬ Reaches lab runId now settings start stop checkout s iter s₁) {l : Ledger}
    (hnoted : s.ledger.recordInvocation (noteOf lab runId settings start stop checkout) = .ok l) :
    ∃ works,
      Journal runId now settings 0 (slots start iter settings.samples) l works
        (finalState (evolve lab runId now settings start stop checkout) s).ledger ∧
      callsOf lab runId now settings start stop checkout s = works.flatMap Work.noted := by
  have hnote : s.ledger.recordInvocation (noteOf lab.watched runId settings start stop checkout)
      = .ok l := hnoted
  obtain ⟨works, hjournal, hcalls⟩ := visitAll_journal lab runId now settings
    (slots start iter settings.samples) (.start runId) ⟨l, .start s.world⟩
  cases hr : visitAll lab.watched runId now settings (slots start iter settings.samples)
      (.start runId) ⟨l, .start s.world⟩ with
  | ok summary t =>
    exact absurd (reaches_iff_watched.mpr ⟨t, rfl, reaches_iff.mpr ⟨l, summary, hnote, hr⟩⟩)
      (hnever _)
  | error e t =>
    have hfails : evolve lab.watched runId now settings start stop checkout
        ⟨s.ledger, .start s.world⟩ = .error e t := by
      rw [evolve_eq, hnote]
      simp only
      rw [slots_append settings.samples hstart hstop, visitAll_append, bind_of_error hr]
    rw [finalState_of_error hr] at hjournal hcalls
    refine ⟨works, ?_, ?_⟩
    · rw [finalState_evolve_eq, finalState_of_error hfails]
      exact hjournal
    · rw [callsOf, finalState_of_error hfails, hcalls]
      rfl

/-! ## Generations without parents -/

/-- A pass over an iteration for which there are no parents fails at its first open slot. -/
theorem visitAll_of_barren {xs ys : List Slot} {summary : Summary} {e : Failure}
    (hparents : parentsAt s.ledger runId settings iter = .error e)
    (hxs : ∀ slot ∈ xs, slot.iter = iter)
    (hopen : ∃ slot ∈ xs, ¬ s.ledger.HasCandidate runId slot.iter slot.sample) :
    visitAll lab runId now settings (xs ++ ys) summary s = .error e s := by
  induction xs generalizing summary with
  | nil =>
    obtain ⟨slot, hslot, -⟩ := hopen
    exact absurd hslot List.not_mem_nil
  | cons slot rest ih =>
    obtain ⟨rfl, hrest⟩ := List.forall_mem_cons.mp hxs
    rw [List.cons_append, visitAll]
    by_cases hheld : s.ledger.HasCandidate runId slot.iter slot.sample
    · obtain ⟨slot', hmem, hfree⟩ := hopen
      rw [bind_of_ok (visit_of_held hheld)]
      rcases List.mem_cons.mp hmem with rfl | hmem
      · exact absurd hheld hfree
      · exact ih hrest ⟨slot', hmem, hfree⟩
    · exact bind_of_error (visit_of_barren hheld hparents)

/-! ## The candidates of an iteration -/

/-- The candidates of an iteration are siblings: their records name the same parents, and the
first prompts of their sessions show the same codes. In an iteration without parents they name
none, and the first prompts are initial prompts. -/
structure Siblings (iter : Nat) (ids? : Option (List Int)) (codes? : Option (List String))
    (recorded : List Candidate) (calls : List Noted) : Prop where
  records : ∀ c ∈ recorded, c.iter = iter → c.parentIds = ids? ∧ c.parentCodes = codes?
  prompts : ∀ slot : Slot, slot.iter = iter →
    callsFor calls slot = [] ∨ ∃ session, OneSession codes? session (callsFor calls slot)

/-- Work in an iteration makes siblings if it is all done with the same parents. -/
theorem siblings_of_made {works : List Work} {parents : Option Parents}
    (hnodup : (works.map Work.slot).Nodup) (hall : ∀ w ∈ works, ∃ parents, w.Made parents)
    (hmade : ∀ w ∈ works, w.slot.iter = iter → w.Made parents) :
    Siblings iter (parents.map Parents.ids) (parents.map Parents.codes)
      (works.filterMap Work.record?) (works.flatMap Work.noted) where
  records c hc hiter := by
    obtain ⟨w, hw, hcw⟩ := List.mem_filterMap.mp hc
    obtain ⟨_, hparents⟩ := hall w hw
    have hslot : w.slot.iter = iter := by rw [← hparents.slot_eq c hcw]; exact hiter
    exact ⟨(hmade w hw hslot).parentIds_eq c hcw, (hmade w hw hslot).parentCodes_eq c hcw⟩
  prompts slot hiter := by
    rcases callsFor_cases hnodup slot with hnone | ⟨w, hw, rfl, hcalls⟩
    · exact .inl hnone
    · exact .inr ⟨w.session, hcalls ▸ (hmade w hw hiter).slotCalls.oneSession⟩

section Cut

variable {n : Nat} {l l₁ l' : Ledger} {earlier works : List Work}

theorem iter_lt_of_earlier
    (h : Journal runId now settings n (slots start iter settings.samples) l earlier l₁) :
    ∀ w ∈ earlier, w.slot.iter < iter := by
  intro w hw
  have hslot : w.slot ∈ slots start iter settings.samples :=
    h.slots_sublist.subset (List.mem_map_of_mem hw)
  exact (mem_slots_iff.mp hslot).2.1

theorem iter_lt_of_record
    (h : Journal runId now settings n (slots start iter settings.samples) l earlier l₁) :
    ∀ c ∈ earlier.filterMap Work.record?, c.iter < iter := by
  intro c hc
  obtain ⟨w, hw, -, hslot⟩ := h.exists_of_record hc
  have hlt : c.slot.iter < iter := hslot ▸ iter_lt_of_earlier h w hw
  exact hlt

theorem iter_lt_of_call
    (h : Journal runId now settings n (slots start iter settings.samples) l earlier l₁) :
    ∀ slot call, (slot, call) ∈ earlier.flatMap Work.noted → slot.iter < iter := by
  intro slot call hcall
  obtain ⟨w, hw, rfl, -⟩ := mem_noted_iff.mp hcall
  exact iter_lt_of_earlier h w hw

/-- A call makes siblings of the candidates of an iteration that it comes to. -/
theorem siblings_of_journal {parents : Option Parents} (hstart : start ≤ iter) (hstop : iter ≤ stop)
    (hfirst : Journal runId now settings 0 (slots start iter settings.samples) l earlier l₁)
    (hsecond : Journal runId now settings n (slots iter stop settings.samples) l₁ works l')
    (hparents : parentsAt l₁ runId settings iter = .ok parents) :
    Siblings iter (parents.map Parents.ids) (parents.map Parents.codes)
      ((earlier ++ works).filterMap Work.record?) ((earlier ++ works).flatMap Work.noted) := by
  have hnodup : ((earlier ++ works).map Work.slot).Nodup := by
    rw [List.map_append]
    refine (hfirst.slots_sublist.append hsecond.slots_sublist).nodup ?_
    rw [← slots_append settings.samples hstart hstop]
    exact nodup_slots _ _ _
  refine siblings_of_made hnodup (fun _ hw => ?_) fun w hw hiter => ?_
  · rcases List.mem_append.mp hw with hw | hw
    · exact (hfirst.open_and_made _ hw).2
    · exact (hsecond.open_and_made _ hw).2
  · rcases List.mem_append.mp hw with hw | hw
    · exact absurd hiter (Nat.ne_of_lt (iter_lt_of_earlier hfirst w hw))
    · have hlater : ∀ slot ∈ slots iter stop settings.samples, iter ≤ slot.iter :=
        fun slot hslot => (mem_slots_iff.mp hslot).1
      obtain ⟨parents', hchosen, hmade⟩ := hsecond.made_of_iter hlater w hw hiter
      obtain rfl := Except.ok.inj (hparents.symm.trans hchosen)
      exact hmade

/-- What is recorded before the iteration fills none of its slots. -/
theorem free_of_earlier
    (h : Journal runId now settings n (slots start iter settings.samples) l earlier l₁)
    {sample : Nat} (hfree : ¬ l.HasCandidate runId iter sample) :
    ¬ l₁.HasCandidate runId iter sample := by
  rw [h.ledger_eq, Ledger.hasCandidate_appendAll_iff, not_or]
  refine ⟨hfree, ?_⟩
  rintro ⟨c, hc, -, hiter, -⟩
  exact Nat.ne_of_lt (iter_lt_of_record h c hc) hiter

/-- What is recorded from the iteration on does not change its ranking. -/
theorem ranks_of_later {ranking : List Row}
    (h : Journal runId now settings n (slots iter stop settings.samples) l₁ works l')
    (hranks : l₁.Ranks runId iter ranking) : l'.Ranks runId iter ranking := by
  rw [h.ledger_eq]
  refine hranks.appendAll (fun c hc => ?_) runId
  obtain ⟨w, hw, -, hslot⟩ := h.exists_of_record hc
  have hmem : c.slot ∈ slots iter stop settings.samples :=
    hslot ▸ h.slots_sublist.subset (List.mem_map_of_mem hw)
  exact (mem_slots_iff.mp hmem).1

end Cut

/-! ## Failures for want of parents -/

/-- Work on a slot fails for want of parents in a later iteration only, unless the failure is one of
the backend's own. -/
theorem visit_eq_insufficientParents {slot : Slot} {s' : State σ} {i n : Nat}
    (h : visit lab runId now settings slot s = .error (.insufficientParents i n) s') :
    slot.iter ≠ 0 ∨ (∃ code w, (lab.build slot code w).1 = .error (.insufficientParents i n)) ∨
      ∃ w, (lab.experiment slot w).1 = .error (.insufficientParents i n) := by
  cases slotFault_of_visit h with
  | parents hiter => exact .inl hiter
  | build hbuild => exact .inr (.inl ⟨_, _, hbuild⟩)
  | experiment hexperiment => exact .inr (.inr ⟨_, hexperiment⟩)

/-- When a call fails for want of parents, iteration zero is filled. -/
theorem filled_of_insufficientParents {s' : State σ} {i n : Nat} (hzero : 0 < stop)
    (h : evolve lab runId now settings 0 stop checkout s = .error (.insufficientParents i n) s') :
    (∃ slot, (∃ code w, (lab.build slot code w).1 = .error (.insufficientParents i n)) ∨
        ∃ w, (lab.experiment slot w).1 = .error (.insufficientParents i n)) ∨
      ∀ sample < settings.samples, s'.ledger.HasCandidate runId 0 sample := by
  rw [evolve_eq] at h
  cases hnoted : s.ledger.recordInvocation (noteOf lab runId settings 0 stop checkout) with
  | error e =>
    rw [hnoted] at h
    obtain ⟨rfl, -⟩ := EStateM.Result.error.inj h
    cases (Ledger.recordInvocation_eq_error_iff.mp hnoted).1
  | ok l =>
    rw [hnoted] at h
    obtain ⟨left, slot, right, summary, t, hslots, hleft, hvisit⟩ := visitAll_stops h
    rcases visit_eq_insufficientParents hvisit with hlater | hbackend
    · refine .inr fun sample hsample => ?_
      have hbefore : Slot.Before ⟨0, sample⟩ slot := .inl (Nat.pos_of_ne_zero hlater)
      have hmem : ⟨0, sample⟩ ∈ left :=
        (mem_left_iff hslots).mpr ⟨⟨Nat.le_refl 0, hzero, hsample⟩, hbefore⟩
      rw [ledger_of_visit_error hvisit]
      exact hasCandidate_of_visitAll hleft _ hmem
    · exact .inl ⟨slot, hbackend⟩

/-! ## Whole calls -/

/-- What a call records when it comes to an iteration. The candidates of the iteration have the
parents that are chosen there, and nothing that is recorded changes the ranking. -/
theorem recorded_of_reaches (hstart : start ≤ iter) (hstop : iter ≤ stop)
    (hreaches : Reaches lab runId now settings start stop checkout s iter s₁) :
    ∃ recorded,
      (finalState (evolve lab runId now settings start stop checkout) s).ledger.rows =
        s.ledger.rows ++ Ledger.rowsFrom s.ledger.nextId runId now recorded ∧
      (∀ parents, parentsAt s₁.ledger runId settings iter = .ok parents →
        Siblings iter (parents.map Parents.ids) (parents.map Parents.codes) recorded
          (callsOf lab runId now settings start stop checkout s)) ∧
      ∀ ranking, s₁.ledger.Ranks runId iter ranking →
        (finalState (evolve lab runId now settings start stop checkout) s).ledger.Ranks runId iter
          ranking := by
  obtain ⟨l, earlier, n, works, hnoted, hfirst, hsecond, hcalls⟩ :=
    generation_journal hstart hstop hreaches
  obtain ⟨-, rfl⟩ := Ledger.recordInvocation_eq_ok_iff.mp hnoted
  refine ⟨(earlier ++ works).filterMap Work.record?, ?_, fun parents hparents => ?_,
    fun ranking hranks => ranks_of_later hsecond hranks⟩
  · rw [hsecond.ledger_eq, hfirst.ledger_eq, ← Ledger.appendAll_append, ← List.filterMap_append]
    rfl
  · rw [hcalls]
    exact siblings_of_journal hstart hstop hfirst hsecond hparents

/-- A call that does not come to an iteration works on earlier ones only. -/
theorem recorded_of_never (hstart : start ≤ iter) (hstop : iter ≤ stop)
    (hnever : ∀ s₁, ¬ Reaches lab runId now settings start stop checkout s iter s₁) :
    ∃ recorded,
      (finalState (evolve lab runId now settings start stop checkout) s).ledger.rows =
        s.ledger.rows ++ Ledger.rowsFrom s.ledger.nextId runId now recorded ∧
      (∀ c ∈ recorded, c.iter < iter) ∧
      ∀ slot call, (slot, call) ∈ callsOf lab runId now settings start stop checkout s →
        slot.iter < iter := by
  cases hnoted : s.ledger.recordInvocation (noteOf lab runId settings start stop checkout) with
  | error e =>
    obtain ⟨hsame, hnone⟩ := evolve_of_error now hnoted
    exact ⟨[], by simp [hsame, Ledger.rowsFrom], by simp, by simp [hnone]⟩
  | ok l =>
    obtain ⟨works, hjournal, hcalls⟩ := early_journal hstart hstop hnever hnoted
    obtain ⟨-, rfl⟩ := Ledger.recordInvocation_eq_ok_iff.mp hnoted
    refine ⟨works.filterMap Work.record?, ?_, iter_lt_of_record hjournal, ?_⟩
    · rw [hjournal.ledger_eq]
      rfl
    · rw [hcalls]
      exact iter_lt_of_call hjournal

/-- Parents that are chosen are the first of the ranking. -/
theorem exists_codes_of_chosen {l : Ledger} (hiter : iter ≠ 0)
    (htwo : 2 ≤ (l.eligible runId (iter - 1)).length) :
    ∃ p codes, parentsAt l runId settings iter = .ok (some p) ∧ p.codes = codes ∧
      p.ids = (chosen l runId settings iter).map Row.id ∧
      (chosen l runId settings iter).map Row.finalCode = codes.map some := by
  refine ⟨_, _, parentsAt_eq_some_iff.mpr ⟨hiter, Ledger.selectParents_eq_ok_iff.mpr ⟨htwo, rfl⟩⟩,
    rfl, rfl, ?_⟩
  exact Ledger.map_eq_map_some_filterMap fun r hr =>
    (Ledger.mem_eligible_iff.mp (List.mem_of_mem_take hr)).2.2.2.2

/-- A generation without parents stops the call before anything is done for it. -/
theorem stops_of_barren {e : Failure} (hstart : start ≤ iter) (hstop : iter < stop)
    (hreaches : Reaches lab runId now settings start stop checkout s iter s₁)
    (hparents : parentsAt s₁.ledger runId settings iter = .error e)
    (hopen : ∃ sample < settings.samples, ¬ s.ledger.HasCandidate runId iter sample) :
    evolve lab runId now settings start stop checkout s = .error e s₁ ∧
      ∀ slot call, (slot, call) ∈ callsOf lab runId now settings start stop checkout s →
        slot.iter < iter := by
  obtain ⟨l, earlier, n, works, hnoted, hfirst, hsecond, hcalls⟩ :=
    generation_journal hstart (Nat.le_of_lt hstop) hreaches
  obtain ⟨-, rfl⟩ := Ledger.recordInvocation_eq_ok_iff.mp hnoted
  have hiter : ∀ slot ∈ slotsOf iter settings.samples, slot.iter = iter :=
    fun _ hslot => (mem_slotsOf_iff.mp hslot).1
  have hopen' : ∃ slot ∈ slotsOf iter settings.samples,
      ¬ s₁.ledger.HasCandidate runId slot.iter slot.sample := by
    obtain ⟨sample, hsample, hfree⟩ := hopen
    exact ⟨⟨iter, sample⟩, mem_slotsOf_iff.mpr ⟨rfl, hsample⟩, free_of_earlier hfirst hfree⟩
  rw [slots_eq_cons settings.samples hstop] at hsecond
  obtain rfl := hsecond.eq_nil_of_barren hparents hiter hopen'
  constructor
  · obtain ⟨summary, hevolve⟩ := evolve_of_reaches hstart (Nat.le_of_lt hstop) hreaches
    rw [hevolve, slots_eq_cons settings.samples hstop]
    exact visitAll_of_barren hparents hiter hopen'
  · rw [hcalls, List.append_nil]
    exact iter_lt_of_call hfirst

/-- **One set of parents for a generation.** Let an iteration be in the range of a call, and let the
call add some records to the ledger. If the call does not come to the iteration, because it fails
before, then no record and no call of the laboratory is for this iteration or a later one. Let it
come to the iteration with the state `s₁`.

In iteration zero these records name no parents, and all sessions begin with an initial prompt. A
call that fails for want of parents, other than by a failure of the backend's own, has filled
iteration zero.

For any other iteration there is a ranking of the rows of earlier iterations, as the ledger stands
in `s₁` and just as it stands when the call has ended.

* If less than two rows are ranked and a slot of the iteration is open, the call fails in the state
  `s₁` and says how many there are; it has made no call of its laboratory for this iteration or a
  later one.
* Otherwise all records that it adds for the iteration name the first of the ranking as their
  parents, as many as are asked for, and the sessions begin with a mutation prompt for exactly
  their codes. -/
theorem one_parent_set_per_generation (lab : Laboratory σ) (runId now : String)
    (settings : Settings) (start stop : Nat) (checkout : Option Checkout) (s : State σ)
    (iter : Nat) (hstart : start ≤ iter) (hstop : iter < stop) :
    ∃ recorded,
      (finalState (evolve lab runId now settings start stop checkout) s).ledger.rows =
        s.ledger.rows ++ Ledger.rowsFrom s.ledger.nextId runId now recorded ∧
      ((∀ s₁, ¬ Reaches lab runId now settings start stop checkout s iter s₁) →
        (∀ c ∈ recorded, c.iter < iter) ∧
        ∀ slot call, (slot, call) ∈ callsOf lab runId now settings start stop checkout s →
          slot.iter < iter) ∧
      ∀ s₁, Reaches lab runId now settings start stop checkout s iter s₁ →
        (iter = 0 →
          Siblings iter none none recorded
            (callsOf lab runId now settings start stop checkout s) ∧
          ∀ i n s', evolve lab runId now settings start stop checkout s =
              .error (.insufficientParents i n) s' →
            (∃ slot, (∃ code w, (lab.build slot code w).1 = .error (.insufficientParents i n)) ∨
                ∃ w, (lab.experiment slot w).1 = .error (.insufficientParents i n)) ∨
              ∀ sample < settings.samples, s'.ledger.HasCandidate runId 0 sample) ∧
        (iter ≠ 0 → ∃ ranking, s₁.ledger.Ranks runId iter ranking ∧
          (finalState (evolve lab runId now settings start stop checkout) s).ledger.Ranks runId iter
            ranking ∧
          (ranking.length < 2 →
            (∃ sample < settings.samples, ¬ s.ledger.HasCandidate runId iter sample) →
            evolve lab runId now settings start stop checkout s =
              .error (.insufficientParents (iter - 1) ranking.length) s₁ ∧
            ∀ slot call, (slot, call) ∈ callsOf lab runId now settings start stop checkout s →
              slot.iter < iter) ∧
          (2 ≤ ranking.length → ∃ codes,
            (ranking.take settings.parents).map Row.finalCode = codes.map some ∧
            Siblings iter (some ((ranking.take settings.parents).map Row.id)) (some codes) recorded
              (callsOf lab runId now settings start stop checkout s))) := by
  by_cases hreached : ∃ s₁, Reaches lab runId now settings start stop checkout s iter s₁
  · obtain ⟨s₁, hreaches⟩ := hreached
    obtain ⟨recorded, hrows, hsiblings, hkept⟩ :=
      recorded_of_reaches hstart (Nat.le_of_lt hstop) hreaches
    refine ⟨recorded, hrows, fun hnever => absurd hreaches (hnever s₁), fun s₂ hreaches₂ => ?_⟩
    obtain rfl := hreaches.unique hreaches₂
    constructor
    · rintro rfl
      obtain rfl := Nat.le_zero.mp hstart
      exact ⟨hsiblings none (parentsAt_eq_none_iff.mpr rfl),
        fun i n s' h => filled_of_insufficientParents hstop h⟩
    · intro hiter
      have hranks := s₁.ledger.ranks_eligible runId hiter
      refine ⟨s₁.ledger.eligible runId (iter - 1), hranks, hkept _ hranks,
        fun hfew hopen => ?_, fun htwo => ?_⟩
      · have hbarren : parentsAt s₁.ledger runId settings iter = .error _ :=
          parentsAt_eq_error_iff.mpr ⟨hiter, hfew, rfl⟩
        exact stops_of_barren hstart hstop hreaches hbarren hopen
      · obtain ⟨p, codes, hparents, rfl, hids, hcodes⟩ := exists_codes_of_chosen hiter htwo
        refine ⟨p.codes, hcodes, ?_⟩
        have hshared := hsiblings (some p) hparents
        rw [Option.map_some, Option.map_some, hids] at hshared
        exact hshared
  · have hnever := not_exists.mp hreached
    obtain ⟨recorded, hrows, hearly⟩ := recorded_of_never hstart (Nat.le_of_lt hstop) hnever
    exact ⟨recorded, hrows, fun _ => hearly, fun s₁ h => absurd h (hnever s₁)⟩

/-- Two rows are ranked for iteration one, and both are parents of its only slot. -/
theorem one_parent_set_per_generation_scripted :
    let row (id : Int) (sample : Nat) : Row :=
      { id, runId := "sort_0", iter := 0, sample, finalCode := some "code",
        buildStatus := some true, execStatus := some true, score := some 0.5, results := .absent,
        logs := .absent, revisions := .absent, parentIds := .absent, parentCodes := .absent,
        recordedAt := "" }
    let lab := Script.laboratory Script.repairPrompt
    let settings : Settings := ⟨1, 1, 2, .standard⟩
    let s : State Script :=
      ⟨{ runs := [⟨"sort_0", "sort", "scripted", "", .null⟩], invocations := [],
         rows := [row 1 0, row 2 1], nextId := 3 }, { replies := [.text "no"] }⟩
    ∃ (ranking : List Row) (recorded : List Candidate), ranking.Perm [row 1 0, row 2 1] ∧
      Siblings 1 (some (ranking.map Row.id)) (some ["code", "code"]) recorded
        (callsOf lab "sort_0" "" settings 1 2 none s) := by
  intro row lab settings s
  obtain ⟨recorded, -, -, hall⟩ :=
    one_parent_set_per_generation lab "sort_0" "" settings 1 2 none s 1 (by decide) (by decide)
  have hreaches : Reaches lab "sort_0" "" settings 1 2 none s 1 _ := ⟨_, _, rfl, rfl⟩
  obtain ⟨-, hlater⟩ := hall _ hreaches
  obtain ⟨ranking, hranks, -, -, hshared⟩ := hlater (by decide)
  have hperm : ranking.Perm [row 1 0, row 2 1] := hranks.perm
  have hlength : ranking.length = 2 := hperm.length_eq
  obtain ⟨codes, hcodes, hsiblings⟩ := hshared hlength.ge
  have htake : ranking.take settings.parents = ranking :=
    List.take_of_length_le hlength.le
  rw [htake] at hcodes hsiblings
  have htexts : ranking.map Row.finalCode = List.replicate 2 (some "code") :=
    List.perm_replicate.mp (hperm.map Row.finalCode)
  have hsame : codes = ["code", "code"] :=
    List.map_injective_iff.mpr (Option.some_injective _) (hcodes.symm.trans htexts)
  exact ⟨ranking, recorded, hperm, hsame ▸ hsiblings⟩

end Evolution

end HeuristicEvolution

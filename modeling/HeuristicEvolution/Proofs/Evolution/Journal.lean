import HeuristicEvolution.Proofs.Evolution.SlotOrder
import HeuristicEvolution.Proofs.Evolution.Transcript

/-!
# The journal of a call

A call works on its open slots one after the other, and each of them leaves a piece of work: the
calls that were made for it, in a session of its own, and its record, if the work came to its end.
A journal lists these pieces. It is read off the slots and the ledger, by the rules of `Journal`,
and everything that a call does to the outside world and to the ledger is in it
(`visitAll_journal`). What is said about calls later on is said about journals first, and proved by
induction on their rules.

## Main definitions

* `Work`, `Evolution.Journal`: the work on a slot, and on several slots.
* `Evolution.callsFor`: the calls that were made for one slot.

## Main results

* `Evolution.visitAll_journal`, `Evolution.evolve_journal`: every pass and every call keeps a
  journal.
* `Evolution.Journal.slots_sublist`, `Evolution.Journal.sessions_eq`, `Evolution.Journal.ledger_eq`:
  what a journal says about slots, sessions and records.
* `Evolution.Journal.made_of_iter`: the work on the first iteration of a journal has the parents
  that a choice gives before it.
* `Evolution.callsFor_cases`: the calls for a slot are those of its work.
-/

namespace HeuristicEvolution

/-- The work on a slot: the number of its session, its calls, and its record if one was made and
taken. -/
structure Work where
  slot : Slot
  session : Nat
  calls : List LabCall
  record? : Option Candidate

/-- The calls of the work, with its slot. -/
def Work.noted (w : Work) : List Noted := marked w.slot w.calls

/-- The work was done with the given parents. -/
structure Work.Made (parents : Option Parents) (w : Work) : Prop where
  slotCalls : SlotCalls (parents.map Parents.codes) w.session w.record? w.calls
  slot_eq : ∀ c ∈ w.record?, c.slot = w.slot
  parentIds_eq : ∀ c ∈ w.record?, c.parentIds = parents.map Parents.ids
  parentCodes_eq : ∀ c ∈ w.record?, c.parentCodes = parents.map Parents.codes

namespace Evolution

/-- The work on some slots in their order, from a ledger to the ledger after it. Sessions are
numbered from `n` on. -/
inductive Journal (runId now : String) (settings : Settings) :
    (n : Nat) → List Slot → Ledger → List Work → Ledger → Prop
  /-- There are no more slots. -/
  | finished {n : Nat} {l : Ledger} : Journal runId now settings n [] l [] l
  /-- The slot is filled, so there is no work on it. -/
  | held {n : Nat} {slot : Slot} {rest : List Slot} {l l' : Ledger} {works : List Work} :
      l.HasCandidate runId slot.iter slot.sample →
      Journal runId now settings n rest l works l' →
      Journal runId now settings n (slot :: rest) l works l'
  /-- The slot is filled now. -/
  | recorded {n : Nat} {slot : Slot} {rest : List Slot} {l l' : Ledger} {works : List Work}
      {parents : Option Parents} {calls : List LabCall} {c : Candidate} :
      ¬ l.HasCandidate runId slot.iter slot.sample →
      parentsAt l runId settings slot.iter = .ok parents →
      Work.Made parents ⟨slot, n, calls, some c⟩ →
      Journal runId now settings (n + 1) rest (l.append runId now c) works l' →
      Journal runId now settings n (slot :: rest) l (⟨slot, n, calls, some c⟩ :: works) l'
  /-- The work fails, and ends here. -/
  | stopped {n : Nat} {slot : Slot} {rest : List Slot} {l : Ledger} {parents : Option Parents}
      {calls : List LabCall} :
      ¬ l.HasCandidate runId slot.iter slot.sample →
      parentsAt l runId settings slot.iter = .ok parents →
      Work.Made parents ⟨slot, n, calls, none⟩ →
      Journal runId now settings n (slot :: rest) l [⟨slot, n, calls, none⟩] l
  /-- There are no parents, and the work ends before it begins. -/
  | barren {n : Nat} {slot : Slot} {rest : List Slot} {l : Ledger} {e : Failure} :
      ¬ l.HasCandidate runId slot.iter slot.sample →
      parentsAt l runId settings slot.iter = .error e →
      Journal runId now settings n (slot :: rest) l [] l

variable {σ : Type} {lab : Laboratory σ} {runId now : String} {settings : Settings}

/-! ## Keeping a journal -/

/-- Work that is not recorded, be it that it failed or that its record was not taken. -/
theorem made_of_worked {slot : Slot} {parents : Option Parents} {c? : Option Candidate}
    {calls : List LabCall} {w w' : Watched σ}
    (h : Worked slot (parents.map Parents.codes) c? calls w w') :
    Work.Made parents ⟨slot, w.sessions.length, calls, none⟩ := by
  obtain ⟨prompt, answer, xs, hcalls, htalked⟩ := h.slotCalls
  exact ⟨⟨prompt, answer, xs, hcalls, htalked.unrecorded⟩, by simp, by simp, by simp⟩

/-- **Every pass keeps a journal**, whether it succeeds or fails. -/
theorem visitAll_journal (lab : Laboratory σ) (runId now : String) (settings : Settings)
    (xs : List Slot) (summary : Summary) (s : State (Watched σ)) :
    ∃ works,
      Journal runId now settings s.world.sessions.length xs s.ledger works
        (finalState (visitAll lab.watched runId now settings xs summary) s).ledger ∧
      (finalState (visitAll lab.watched runId now settings xs summary) s).world.calls
        = s.world.calls ++ works.flatMap Work.noted := by
  induction xs generalizing summary s with
  | nil => exact ⟨[], .finished, by simp [finalState, visitAll, pure, EStateM.pure]⟩
  | cons slot rest ih =>
    have hvisit := visit_visited lab.watched runId now settings slot s
    cases hr : visit lab.watched runId now settings slot s with
    | error e s' =>
      have hend : finalState (visitAll lab.watched runId now settings (slot :: rest) summary) s
          = s' := finalState_of_error (bind_of_error hr)
      rw [hend, ledger_of_visit_error hr]
      rw [hr] at hvisit
      cases hvisit with
      | barren hfree hparents => exact ⟨[], .barren hfree hparents, by simp⟩
      | broken hfree hparents hrun =>
        obtain ⟨calls, hworked⟩ := (runSlot_worked _ s).2 hrun
        have hmade := made_of_worked hworked
        exact ⟨_, .stopped hfree hparents hmade, by simp [hworked.calls_eq, Work.noted]⟩
      | refused hfree hparents hrun _ =>
        obtain ⟨calls, hworked⟩ := (runSlot_worked _ s).1 hrun
        have hmade := made_of_worked hworked
        exact ⟨_, .stopped hfree hparents hmade, by simp [hworked.calls_eq, Work.noted]⟩
    | ok c? s' =>
      have hend : finalState (visitAll lab.watched runId now settings (slot :: rest) summary) s
          = finalState (visitAll lab.watched runId now settings rest (summary.count c?)) s' := by
        rw [finalState, visitAll, bind_of_ok hr, finalState]
      obtain ⟨works, hjournal, hcalls⟩ := ih (summary.count c?) s'
      rw [hend]
      rw [hr] at hvisit
      cases hvisit with
      | held hheld => exact ⟨works, .held hheld hjournal, hcalls⟩
      | filled hfree hparents hrun hrecord =>
        rename_i parents c t
        obtain ⟨calls, hworked⟩ := (runSlot_worked _ s).1 hrun
        have hledger := (keepsLedger_runSlot lab.watched settings slot parents).of_ok hrun
        obtain ⟨hiter, hsample, hids, hcodes⟩ := slot_of_runSlot hrun
        have hslot : c.slot = slot := by rw [Candidate.slot, hiter, hsample]
        have hmade : Work.Made parents ⟨slot, s.world.sessions.length, calls, some c⟩ :=
          ⟨hworked.slotCalls, by simpa using hslot, by simpa using hids, by simpa using hcodes⟩
        rw [hworked.sessions_length] at hjournal
        rw [hledger] at hjournal hcalls ⊢
        refine ⟨_, .recorded hfree hparents hmade hjournal, ?_⟩
        rw [hcalls, hworked.calls_eq, List.flatMap_cons, List.append_assoc, Work.noted]

/-! ## Reading a journal -/

namespace Journal

variable {n : Nat} {xs : List Slot} {l l' : Ledger} {works : List Work}

/-- The work is on slots of the pass, in their order. -/
theorem slots_sublist (h : Journal runId now settings n xs l works l') :
    (works.map Work.slot).Sublist xs := by
  induction h with
  | finished => exact .slnil
  | held _ _ ih => exact ih.cons _
  | recorded _ _ _ _ ih => exact ih.cons_cons _
  | stopped _ _ _ => exact (List.nil_sublist _).cons_cons _
  | barren _ _ => exact List.nil_sublist _

/-- Each piece of work has a session of its own. -/
theorem sessions_eq (h : Journal runId now settings n xs l works l') :
    works.map Work.session = List.range' n works.length := by
  induction h with
  | finished => rfl
  | held _ _ ih => exact ih
  | recorded _ _ _ _ ih => rw [List.map_cons, ih, List.length_cons, List.range'_succ]
  | stopped _ _ _ => rfl
  | barren _ _ => rfl

/-- The records are taken in their order, and nothing else is written. -/
theorem ledger_eq (h : Journal runId now settings n xs l works l') :
    l' = l.appendAll runId now (works.filterMap Work.record?) := by
  induction h with
  | finished => simp
  | held _ _ ih => exact ih
  | recorded _ _ _ _ ih =>
    rw [ih, ← Ledger.appendAll_cons]
    rfl
  | stopped _ _ _ => simp
  | barren _ _ => simp

/-- Each piece of work is on a slot that was open before the pass, and was done with some
parents. -/
theorem open_and_made (h : Journal runId now settings n xs l works l') :
    ∀ w ∈ works, ¬ l.HasCandidate runId w.slot.iter w.slot.sample ∧ ∃ parents, w.Made parents := by
  induction h with
  | finished => simp
  | held _ _ ih => exact ih
  | recorded hfree _ hmade _ ih =>
    refine List.forall_mem_cons.mpr ⟨⟨hfree, _, hmade⟩, fun w hw => ?_⟩
    obtain ⟨hopen, hparents⟩ := ih w hw
    exact ⟨mt (Ledger.extends_append _ _ _ _).hasCandidate hopen, hparents⟩
  | stopped hfree _ hmade => exact List.forall_mem_cons.mpr ⟨⟨hfree, _, hmade⟩, by simp⟩
  | barren _ _ => simp

/-- Every record that is taken is one of the work on its slot. -/
theorem exists_of_record (h : Journal runId now settings n xs l works l') {c : Candidate}
    (hc : c ∈ works.filterMap Work.record?) :
    ∃ w ∈ works, w.record? = some c ∧ c.slot = w.slot := by
  obtain ⟨w, hw, hcw⟩ := List.mem_filterMap.mp hc
  obtain ⟨_, hmade⟩ := (h.open_and_made w hw).2
  exact ⟨w, hw, hcw, hmade.slot_eq c hcw⟩

/-- **One choice is enough for an iteration.** If a pass begins with an iteration, all work in this
iteration is done with the parents that a choice gives before the pass. -/
theorem made_of_iter {iter : Nat} (h : Journal runId now settings n xs l works l')
    (hxs : ∀ slot ∈ xs, iter ≤ slot.iter) :
    ∀ w ∈ works, w.slot.iter = iter →
      ∃ parents, parentsAt l runId settings iter = .ok parents ∧ w.Made parents := by
  induction h with
  | finished => simp
  | held _ _ ih => exact ih fun slot hslot => hxs slot (List.mem_cons_of_mem _ hslot)
  | recorded _ hparents hmade _ ih =>
    refine List.forall_mem_cons.mpr ⟨?_, fun w hw hiter => ?_⟩
    · rintro rfl
      exact ⟨_, hparents, hmade⟩
    · obtain ⟨parents, hlater, hmade'⟩ :=
        ih (fun slot hslot => hxs slot (List.mem_cons_of_mem _ hslot)) w hw hiter
      rw [parentsAt_append] at hlater
      · exact ⟨parents, hlater, hmade'⟩
      · have hslot := congrArg Slot.iter (hmade.slot_eq _ rfl)
        exact Nat.le_trans (hxs _ List.mem_cons_self) (Nat.le_of_eq hslot.symm)
  | stopped _ hparents hmade =>
    refine List.forall_mem_cons.mpr ⟨?_, by simp⟩
    rintro rfl
    exact ⟨_, hparents, hmade⟩
  | barren _ _ => simp

/-- If there are no parents for an iteration with an open slot, there is no work. -/
theorem eq_nil_of_barren {iter : Nat} {e : Failure} {xs ys : List Slot}
    (h : Journal runId now settings n (xs ++ ys) l works l')
    (hparents : parentsAt l runId settings iter = .error e) (hxs : ∀ slot ∈ xs, slot.iter = iter)
    (hopen : ∃ slot ∈ xs, ¬ l.HasCandidate runId slot.iter slot.sample) : works = [] := by
  induction xs with
  | nil =>
    obtain ⟨slot, hslot, -⟩ := hopen
    exact absurd hslot List.not_mem_nil
  | cons slot rest ih =>
    obtain ⟨rfl, hrest⟩ := List.forall_mem_cons.mp hxs
    cases h with
    | held hheld h =>
      refine ih h hrest ?_
      obtain ⟨slot', hmem, hfree⟩ := hopen
      rcases List.mem_cons.mp hmem with rfl | hmem
      · exact absurd hheld hfree
      · exact ⟨slot', hmem, hfree⟩
    | recorded _ hchosen _ _ => exact nomatch hparents.symm.trans hchosen
    | stopped _ hchosen _ => exact nomatch hparents.symm.trans hchosen
    | barren _ _ => rfl

end Journal

/-! ## A whole call -/

section Calls

variable {start stop : Nat} {checkout : Option Checkout} {s : State σ}

theorem finalState_evolve_eq :
    finalState (evolve lab runId now settings start stop checkout) s =
      unwatched (finalState (evolve lab.watched runId now settings start stop checkout)
        ⟨s.ledger, .start s.world⟩) :=
  (evolve_watched lab runId now settings start stop checkout).finalState_eq
    ⟨s.ledger, .start s.world⟩

/-- A call on a run that does not exist does nothing. -/
theorem evolve_of_error (now : String) {e : Failure}
    (h : s.ledger.recordInvocation (noteOf lab runId settings start stop checkout) = .error e) :
    finalState (evolve lab runId now settings start stop checkout) s = s ∧
      callsOf lab runId now settings start stop checkout s = [] := by
  have hnote : s.ledger.recordInvocation (noteOf lab.watched runId settings start stop checkout)
      = .error e := h
  constructor
  · rw [finalState, evolve_eq, h]
  · rw [callsOf, finalState, evolve_eq, hnote]
    rfl

/-- **Every call keeps a journal** from the moment on at which it is noted. -/
theorem evolve_journal (now : String) {l : Ledger}
    (h : s.ledger.recordInvocation (noteOf lab runId settings start stop checkout) = .ok l) :
    ∃ works,
      Journal runId now settings 0 (slots start stop settings.samples) l works
        (finalState (evolve lab runId now settings start stop checkout) s).ledger ∧
      callsOf lab runId now settings start stop checkout s = works.flatMap Work.noted := by
  have hnote : s.ledger.recordInvocation (noteOf lab.watched runId settings start stop checkout)
      = .ok l := h
  have hwatched : finalState (evolve lab.watched runId now settings start stop checkout)
      ⟨s.ledger, .start s.world⟩ = finalState (visitAll lab.watched runId now settings
        (slots start stop settings.samples) (.start runId)) ⟨l, .start s.world⟩ := by
    rw [finalState, evolve_eq, hnote, finalState]
  obtain ⟨works, hjournal, hcalls⟩ := visitAll_journal lab runId now settings
    (slots start stop settings.samples) (.start runId) ⟨l, .start s.world⟩
  refine ⟨works, ?_, ?_⟩
  · rw [finalState_evolve_eq, hwatched]
    exact hjournal
  · rw [callsOf, hwatched, hcalls]
    rfl

end Calls

/-! ## The calls for one slot -/

/-- The calls that were made for a slot. -/
def callsFor (calls : List Noted) (slot : Slot) : List LabCall :=
  calls.filterMap fun x => if x.1 = slot then some x.2 else none

theorem callsFor_append (xs ys : List Noted) (slot : Slot) :
    callsFor (xs ++ ys) slot = callsFor xs slot ++ callsFor ys slot := List.filterMap_append

theorem callsFor_marked_self (slot : Slot) (xs : List LabCall) :
    callsFor (marked slot xs) slot = xs := by
  simp [callsFor, marked]

theorem callsFor_marked_of_ne {slot slot' : Slot} (h : slot ≠ slot') (xs : List LabCall) :
    callsFor (marked slot xs) slot' = [] := by
  simp [callsFor, marked, h]

theorem mem_noted_iff {works : List Work} {slot : Slot} {call : LabCall} :
    (slot, call) ∈ works.flatMap Work.noted ↔ ∃ w ∈ works, w.slot = slot ∧ call ∈ w.calls := by
  simp only [List.mem_flatMap, Work.noted, marked, List.mem_map, Prod.mk.injEq]
  constructor
  · rintro ⟨w, hw, _, hcall, hslot, rfl⟩
    exact ⟨w, hw, hslot, hcall⟩
  · rintro ⟨w, hw, hslot, hcall⟩
    exact ⟨w, hw, call, hcall, hslot, rfl⟩

theorem callsFor_eq_nil {works : List Work} {slot : Slot} (h : slot ∉ works.map Work.slot) :
    callsFor (works.flatMap Work.noted) slot = [] := by
  induction works with
  | nil => rfl
  | cons w rest ih =>
    rw [List.map_cons, List.mem_cons, not_or] at h
    rw [List.flatMap_cons, callsFor_append, ih h.2, Work.noted, callsFor_marked_of_ne (Ne.symm h.1),
      List.append_nil]

/-- Where no slot is worked on twice, the calls for a slot are those of its work. -/
theorem callsFor_eq {works : List Work} {w : Work} (hnodup : (works.map Work.slot).Nodup)
    (hw : w ∈ works) : callsFor (works.flatMap Work.noted) w.slot = w.calls := by
  induction works with
  | nil => exact absurd hw List.not_mem_nil
  | cons first rest ih =>
    obtain ⟨hnotin, hnodup⟩ := List.nodup_cons.mp hnodup
    rw [List.flatMap_cons, callsFor_append, Work.noted]
    rcases List.mem_cons.mp hw with rfl | hw
    · rw [callsFor_marked_self, callsFor_eq_nil hnotin, List.append_nil]
    · have hne : first.slot ≠ w.slot := fun h => hnotin (h ▸ List.mem_map_of_mem hw)
      rw [callsFor_marked_of_ne hne, ih hnodup hw, List.nil_append]

/-- Either there is no call for a slot, or the calls for it are those of its work. -/
theorem callsFor_cases {works : List Work} (hnodup : (works.map Work.slot).Nodup) (slot : Slot) :
    callsFor (works.flatMap Work.noted) slot = [] ∨
      ∃ w ∈ works, w.slot = slot ∧ callsFor (works.flatMap Work.noted) slot = w.calls := by
  by_cases hslot : slot ∈ works.map Work.slot
  · obtain ⟨w, hw, rfl⟩ := List.mem_map.mp hslot
    exact .inr ⟨w, hw, rfl, callsFor_eq hnodup hw⟩
  · exact .inl (callsFor_eq_nil hslot)

namespace Journal

variable {n : Nat} {xs : List Slot} {l l' : Ledger} {works : List Work}

/-- No two pieces of work share a session. -/
theorem eq_of_session_eq (h : Journal runId now settings n xs l works l') {w w' : Work}
    (hw : w ∈ works) (hw' : w' ∈ works) (heq : w.session = w'.session) : w = w' := by
  have hnodup : (works.map Work.session).Nodup := by
    rw [h.sessions_eq]
    exact List.nodup_range'
  exact List.inj_on_of_nodup_map hnodup hw hw' heq

/-- No two pieces of work are on the same slot. -/
theorem eq_of_slot_eq (h : Journal runId now settings n xs l works l') (hxs : xs.Nodup)
    {w w' : Work} (hw : w ∈ works) (hw' : w' ∈ works) (heq : w.slot = w'.slot) : w = w' :=
  List.inj_on_of_nodup_map (h.slots_sublist.nodup hxs) hw hw' heq

end Journal

end Evolution

end HeuristicEvolution

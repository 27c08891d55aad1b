import HeuristicEvolution.Proofs.Evolution.Slots

/-!
# A call as one pass over its slots

A call runs two nested loops, and within a generation it carries the parents along that its first
open slot chose. For proofs that is one loop and one piece of memory too many. This module shows
that a call is the same as one pass over a list of slots in which every open slot chooses its
parents anew.

## Why the memory can be dropped

A generation ranks rows of earlier iterations only, and all that it writes belongs to its own. So
at each of its slots a fresh choice is the first choice (`Ledger.selectParents_append_of_lt`).
The equality `runSamples_eq_visitAll` holds for every state and every laboratory, also for calls
that fail on the way; from there on nothing mentions the nested loops.

## Main definitions

* `Evolution.visitAll`: one slot after the other.
* `Evolution.slots`: the slots of a call, in order.

## Main results

* `Evolution.evolve_eq`: a call notes itself and visits its slots.
* `Evolution.evolve_preserves`: what every record that is taken keeps, a call keeps.
* `Evolution.visitAll_stops`, `Evolution.evolve_eq_error`: where the failure of a call comes from.
-/

namespace HeuristicEvolution

namespace Evolution

variable {σ : Type}

/-! ## All slots -/

/-- The summary after one more slot: passed over, or filled with a record. -/
def Summary.count (summary : Summary) : Option Candidate → Summary
  | none => summary.skip
  | some c => summary.add c

/-- Slots are visited one after the other; the first failure ends the pass. -/
def visitAll (lab : Laboratory σ) (runId now : String) (settings : Settings) :
    List Slot → Summary → Run σ Summary
  | [], summary => pure summary
  | slot :: rest, summary => do
    let c? ← visit lab runId now settings slot
    visitAll lab runId now settings rest (summary.count c?)

/-- The slots of an iteration. -/
def slotsOf (iter samples : Nat) : List Slot := (List.range samples).map (Slot.mk iter)

/-- The slots of a call: iterations in order, and within each the samples. -/
def slots (start stop samples : Nat) : List Slot :=
  (List.range' start (stop - start)).flatMap fun iter => slotsOf iter samples

section Passes

variable {lab : Laboratory σ} {runId now : String} {settings : Settings}

theorem visitAll_append (xs ys : List Slot) (summary : Summary) (s : State σ) :
    visitAll lab runId now settings (xs ++ ys) summary s =
      (visitAll lab runId now settings xs summary >>= visitAll lab runId now settings ys) s := by
  induction xs generalizing summary s with
  | nil => rfl
  | cons slot rest ih =>
    rw [List.cons_append, visitAll, visitAll]
    cases h : visit lab runId now settings slot s with
    | error e s' => rw [bind_of_error h, bind_of_error (bind_of_error h)]
    | ok c? s' =>
      rw [bind_of_ok h, ih]
      cases hrest : visitAll lab runId now settings rest (summary.count c?) s' with
      | error e t =>
        rw [bind_of_error hrest, bind_of_error (by rw [bind_of_ok h]; exact hrest)]
      | ok later t =>
        rw [bind_of_ok hrest, bind_of_ok (by rw [bind_of_ok h]; exact hrest)]

/-- **A generation needs no memory.** The induction is on the samples; what carries it is that the
remembered parents, if there are any, are those that a choice would give now. -/
theorem runSamples_eq_visitAll (iter : Nat) (samples : List Nat) (chosen : Option Parents)
    (summary : Summary) (s : State σ)
    (hchosen : ∀ p, chosen = some p →
      s.ledger.selectParents runId iter settings.parents = .ok p) :
    runSamples lab runId now settings iter samples chosen summary s =
      visitAll lab runId now settings (samples.map (Slot.mk iter)) summary s := by
  induction samples generalizing chosen summary s with
  | nil => rfl
  | cons sample rest ih =>
    have hfor : parentsFor runId settings iter chosen s = _ := parentsFor_apply hchosen
    have hvisit := visit_visited lab runId now settings ⟨iter, sample⟩ s
    rw [runSamples, List.map_cons, visitAll]
    change (if s.ledger.holds runId iter sample then _ else _ : Run σ _) s = _
    cases hr : visit lab runId now settings ⟨iter, sample⟩ s with
    | error e s' =>
      rw [hr] at hvisit
      rw [bind_of_error hr]
      cases hvisit with
      | barren hfree hparents =>
        rw [hparents] at hfor
        rw [if_neg (mt Ledger.holds_iff.mp hfree), bind_of_error hfor]
      | broken hfree hparents hrun =>
        rw [hparents] at hfor
        rw [if_neg (mt Ledger.holds_iff.mp hfree), bind_of_ok hfor, bind_of_error hrun]
      | refused hfree hparents hrun hrecord =>
        rw [hparents] at hfor
        rw [if_neg (mt Ledger.holds_iff.mp hfree), bind_of_ok hfor, bind_of_ok hrun,
          bind_of_error hrecord]
    | ok c? s' =>
      rw [hr] at hvisit
      rw [bind_of_ok hr]
      cases hvisit with
      | held hheld =>
        rw [if_pos (Ledger.holds_iff.mpr hheld)]
        exact ih chosen summary.skip s hchosen
      | filled hfree hparents hrun hrecord =>
        rename_i parents c t
        rw [hparents] at hfor
        rw [if_neg (mt Ledger.holds_iff.mp hfree), bind_of_ok hfor, bind_of_ok hrun,
          bind_of_ok hrecord]
        refine ih parents (summary.add c) _ fun p hp => ?_
        have hledger := (keepsLedger_runSlot lab settings ⟨iter, sample⟩ parents).of_ok hrun
        have hiter : iter ≤ c.iter := Nat.le_of_eq (slot_of_runSlot hrun).1.symm
        have hagain :
            parentsAt (t.ledger.append runId now c) runId settings iter = .ok (some p) := by
          rw [parentsAt_append t.ledger hiter, hledger, hparents, hp]
        exact (parentsAt_eq_some_iff.mp hagain).2

theorem runIterations_eq_visitAll (iters : List Nat) (summary : Summary) (s : State σ) :
    runIterations lab runId now settings iters summary s =
      visitAll lab runId now settings (iters.flatMap fun iter => slotsOf iter settings.samples)
        summary s := by
  induction iters generalizing summary s with
  | nil => rfl
  | cons iter rest ih =>
    have hone : ∀ summary s,
        runSamples lab runId now settings iter (List.range settings.samples) none summary s =
          visitAll lab runId now settings (slotsOf iter settings.samples) summary s :=
      fun summary s => runSamples_eq_visitAll iter _ none summary s (fun p hp => nomatch hp)
    rw [runIterations, List.flatMap_cons, visitAll_append]
    cases h : visitAll lab runId now settings (slotsOf iter settings.samples) summary s with
    | error e s' => rw [bind_of_error h, bind_of_error ((hone summary s).trans h)]
    | ok summary' s' => rw [bind_of_ok h, bind_of_ok ((hone summary s).trans h), ih]

/-- How a call is noted. -/
def noteOf (lab : Laboratory σ) (runId : String) (settings : Settings) (start stop : Nat)
    (checkout : Option Checkout) : Invocation where
  runId := runId
  start := start
  stop := stop
  samples := settings.samples
  model := lab.model
  commit := checkout.map Checkout.commit
  dirty := checkout.map Checkout.dirty

/-- **A call notes itself and visits its slots.** It fails at once if there is no such run. -/
theorem evolve_eq (start stop : Nat) (checkout : Option Checkout) (s : State σ) :
    evolve lab runId now settings start stop checkout s =
      match s.ledger.recordInvocation (noteOf lab runId settings start stop checkout) with
      | .error e => .error e s
      | .ok l =>
        visitAll lab runId now settings (slots start stop settings.samples) (.start runId)
          { s with ledger := l } := by
  rw [evolve]
  change (match s.ledger.recordInvocation (noteOf lab runId settings start stop checkout) with
    | .error e => throw e
    | .ok ledger => do
      set { s with ledger }
      runIterations lab runId now settings (List.range' start (stop - start)) (.start runId) :
        Run σ Summary) s = _
  cases s.ledger.recordInvocation (noteOf lab runId settings start stop checkout) with
  | error e => rfl
  | ok l => exact runIterations_eq_visitAll _ _ _

/-- Where there is such a run, a call is the pass over its slots. -/
theorem evolve_of_hasRun {start stop : Nat} {checkout : Option Checkout} {s : State σ}
    (h : s.ledger.HasRun runId) :
    evolve lab runId now settings start stop checkout s =
      visitAll lab runId now settings (slots start stop settings.samples) (.start runId)
        { s with ledger := { s.ledger with
          invocations := s.ledger.invocations
            ++ [noteOf lab runId settings start stop checkout] } } := by
  have hnoted : s.ledger.recordInvocation (noteOf lab runId settings start stop checkout) = .ok _ :=
    Ledger.recordInvocation_eq_ok_iff.mpr ⟨h, rfl⟩
  rw [evolve_eq, hnoted]

/-! ## What a call keeps, and where its failures come from -/

/-- What every record that is taken keeps is kept by a pass, however it ends. -/
theorem visitAll_preserves {P : Ledger → Prop} {xs : List Slot}
    (hstep : ∀ slot ∈ xs, ∀ l c, Taken lab runId settings slot l c → P l →
      P (l.append runId now c)) (summary : Summary) (s : State σ) (h : P s.ledger) :
    P (finalState (visitAll lab runId now settings xs summary) s).ledger := by
  induction xs generalizing summary s with
  | nil => exact h
  | cons slot rest ih =>
    have hlater := ih fun slot hmem => hstep slot (List.mem_cons_of_mem _ hmem)
    rw [visitAll, finalState]
    cases hr : visit lab runId now settings slot s with
    | error e s' =>
      rw [bind_of_error hr]
      exact ledger_of_visit_error hr ▸ h
    | ok c? s' =>
      rw [bind_of_ok hr]
      refine hlater (summary.count c?) s' ?_
      rcases taken_of_visit hr with ⟨-, hsame⟩ | ⟨c, htaken, hmore⟩
      · rwa [hsame]
      · rw [hmore]
        exact hstep slot List.mem_cons_self s.ledger c htaken h

theorem extends_of_visitAll {xs : List Slot} {summary summary' : Summary} {s s' : State σ}
    (h : visitAll lab runId now settings xs summary s = .ok summary' s') :
    s.ledger.Extends s'.ledger := by
  have hkept :
      s.ledger.Extends (finalState (visitAll lab runId now settings xs summary) s).ledger :=
    visitAll_preserves (fun _ _ l c _ hl => hl.trans (Ledger.extends_append l runId now c))
      summary s (.refl _)
  rwa [finalState_of_ok h] at hkept

/-- A pass that succeeds leaves no slot open. -/
theorem hasCandidate_of_visitAll {xs : List Slot} {summary summary' : Summary} {s s' : State σ}
    (h : visitAll lab runId now settings xs summary s = .ok summary' s') :
    ∀ slot ∈ xs, s'.ledger.HasCandidate runId slot.iter slot.sample := by
  induction xs generalizing summary s with
  | nil => exact fun slot hmem => absurd hmem List.not_mem_nil
  | cons first rest ih =>
    obtain ⟨c?, t, hvisit, hrest⟩ := bind_eq_ok_iff.mp h
    intro slot hmem
    rcases List.mem_cons.mp hmem with rfl | hmem
    · have hext : t.ledger.Extends s'.ledger := extends_of_visitAll hrest
      exact hext.hasCandidate (hasCandidate_of_visit hvisit)
    · exact ih hrest slot hmem

/-- A pass over filled slots does nothing but count them. -/
theorem visitAll_of_held {xs : List Slot} {s : State σ}
    (h : ∀ slot ∈ xs, s.ledger.HasCandidate runId slot.iter slot.sample) (summary : Summary) :
    visitAll lab runId now settings xs summary s =
      .ok { summary with skipped := summary.skipped + xs.length } s := by
  induction xs generalizing summary with
  | nil => rfl
  | cons slot rest ih =>
    rw [visitAll, bind_of_ok (visit_of_held (h slot List.mem_cons_self)),
      ih fun later hmem => h later (List.mem_cons_of_mem _ hmem)]
    simp [Summary.count, Summary.skip, Nat.add_assoc, Nat.add_comm 1]

/-- A pass that fails is a pass that succeeds, up to a slot on which the work fails. -/
theorem visitAll_stops {xs : List Slot} {summary : Summary} {s s' : State σ} {e : Failure}
    (h : visitAll lab runId now settings xs summary s = .error e s') :
    ∃ left slot right summary' t, xs = left ++ slot :: right ∧
      visitAll lab runId now settings left summary s = .ok summary' t ∧
      visit lab runId now settings slot t = .error e s' := by
  induction xs generalizing summary s with
  | nil => exact nomatch h
  | cons slot rest ih =>
    rcases bind_eq_error_iff.mp h with hvisit | ⟨c?, t, hvisit, hrest⟩
    · exact ⟨[], slot, rest, summary, s, rfl, rfl, hvisit⟩
    · obtain ⟨left, last, right, summary', u, rfl, hleft, hlast⟩ := ih hrest
      refine ⟨slot :: left, last, right, summary', u, rfl, ?_, hlast⟩
      rw [visitAll, bind_of_ok hvisit, hleft]

/-- A pass fails where the work on one of its slots does. -/
theorem visitAll_eq_error {xs : List Slot} {summary : Summary} {s s' : State σ} {e : Failure}
    (h : visitAll lab runId now settings xs summary s = .error e s') :
    ∃ slot ∈ xs, ∃ t, visit lab runId now settings slot t = .error e s' := by
  obtain ⟨left, slot, right, -, t, rfl, -, hvisit⟩ := visitAll_stops h
  exact ⟨slot, by simp, t, hvisit⟩

variable {start stop : Nat} {checkout : Option Checkout}

/-- **What a call keeps.** It is enough to look at the note of the call and at one record. -/
theorem evolve_preserves {P : Ledger → Prop}
    (hcall : ∀ l l' call, l.recordInvocation call = .ok l' → P l → P l')
    (hstep : ∀ slot ∈ slots start stop settings.samples, ∀ l c,
      Taken lab runId settings slot l c → P l → P (l.append runId now c))
    (s : State σ) (h : P s.ledger) :
    P (finalState (evolve lab runId now settings start stop checkout) s).ledger := by
  rw [finalState, evolve_eq]
  cases hnoted : s.ledger.recordInvocation _ with
  | error e => exact h
  | ok l => exact visitAll_preserves hstep _ _ (hcall s.ledger l _ hnoted h)

/-- A call fails because there is no such run, or where the work on one of its slots does. -/
theorem evolve_eq_error {s s' : State σ} {e : Failure}
    (h : evolve lab runId now settings start stop checkout s = .error e s') :
    (e = .ledger none ∧ ¬ s.ledger.HasRun runId) ∨
      ∃ slot ∈ slots start stop settings.samples, ∃ t,
        visit lab runId now settings slot t = .error e s' := by
  rw [evolve_eq] at h
  cases hnoted : s.ledger.recordInvocation _ with
  | error e' =>
    rw [hnoted] at h
    obtain ⟨rfl, -⟩ := EStateM.Result.error.inj h
    exact .inl (Ledger.recordInvocation_eq_error_iff.mp hnoted)
  | ok l =>
    rw [hnoted] at h
    exact .inr (visitAll_eq_error h)

end Passes

end Evolution

end HeuristicEvolution

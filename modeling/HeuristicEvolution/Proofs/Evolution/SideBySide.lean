import HeuristicEvolution.Proofs.Evolution.Guarantee

/-!
# Calls side by side

Nothing keeps a second call from working on a run while a first one is at it. Between the moment at
which a call finds a slot free and the moment at which it puts the record in, others may fill the
slot, and other slots of earlier and later iterations. This module lets any number of calls make
their steps in any order and says what the ledger is worth then.

That a slot is filled once is the ledger's doing, which refuses a second record. That lineage
survives is not: a record is written with parents that were chosen long before. It does because of
what each plan guarantees, and because what it relies on is kept by every move of the others
(`Concurrent.Safe.perform`).

## Main definitions

* `Sound`: a ledger that is intact and in which every row has its descent.
* `Move`, `Concurrent.after`: runs are opened, calls begin, and calls make steps, in any order.

## Main results

* `Concurrent.Safe.perform`: one move.
* `Concurrent.after_call`: a call that nobody interrupts is `evolve`.
* `Concurrent.calls_side_by_side`
-/

namespace HeuristicEvolution

namespace Evolution

/-! ## Ledgers that calls can leave -/

/-- The ledger is intact, and every row has its descent. -/
structure Sound (l : Ledger) : Prop where
  intact : l.Intact
  descent : ∀ r ∈ l.rows, Descent l r

namespace Sound

theorem empty : Sound .empty := ⟨.empty, fun _ hr => nomatch hr⟩

/-- Writing anything but a candidate. -/
theorem of_rows_eq {l l' : Ledger} (h : Sound l) (hintact : l'.Intact) (hext : l.Extends l')
    (hrows : l'.rows = l.rows) : Sound l' :=
  ⟨hintact, fun r hr => (h.descent r (hrows ▸ hr)).mono hext⟩

theorem openRun {l : Ledger} (h : Sound l) (task model now : String) (requested : Option String)
    (backend : Json) (checkout : Option Checkout) :
    Sound ((Call.openRun task model now requested backend checkout).perform l) ∧
      l.Extends ((Call.openRun task model now requested backend checkout).perform l) := by
  have hbred := bred_perform h.intact (.openRun task model now requested backend checkout)
    fun _ hk => nomatch hk
  refine ⟨⟨hbred.intact, fun r hr => ?_⟩, hbred.grown⟩
  rcases hbred.lineage r hr with hold | ⟨_, hk, -⟩
  · exact (h.descent r hold).mono hbred.grown
  · exact nomatch hk

theorem append {l : Ledger} (h : Sound l) {runId : String} {c : Candidate} (now : String)
    (hfree : ¬ l.HasCandidate runId c.iter c.sample) (hrun : l.HasRun runId)
    (hgrounded : Grounded l.rows runId c) : Sound (l.append runId now c) := by
  have hext := Ledger.extends_append l runId now c
  refine ⟨h.intact.append hfree hrun, fun r hr => ?_⟩
  rcases List.mem_append.mp hr with hold | hnew
  · exact (h.descent r hold).mono hext
  · obtain rfl := List.mem_singleton.mp hnew
    exact (hgrounded.descent h.intact now).mono hext

theorem step {σ α : Type} {p : Plan σ α} {s : State σ} (h : Sound s.ledger)
    (hp : p.Grounds s.ledger.rows) : Sound (Plan.step (p, s)).2.ledger := by
  rcases Plan.ledger_of_step p s with hsame | ⟨call, hnote⟩ |
    ⟨runId, now, c, next, rfl, hfree, hrun, happend⟩
  · exact hsame ▸ h
  · have hrows : (Plan.step (p, s)).2.ledger.rows = s.ledger.rows := by
      rw [(Ledger.recordInvocation_eq_ok_iff.mp hnote).2]
    exact h.of_rows_eq (h.intact.recordInvocation hnote) (Ledger.extends_recordInvocation hnote)
      hrows
  · rw [happend]
    exact h.append now hfree hrun hp.1

end Sound

/-! ## Moves in any order -/

/-- The ledger and the outside world, and what each of the calls has still to do. -/
structure Concurrent (σ : Type) where
  state : State σ
  plans : List (Plan σ Summary)

/-- What can happen next: a run is opened, a call begins, or a call that has begun makes a step. A
call that makes no more steps was cut off. -/
inductive Move (σ : Type) where
  | openRun (task model now : String) (requested : Option String) (backend : Json)
      (checkout : Option Checkout)
  | call (lab : Laboratory σ) (runId now : String) (settings : Settings) (start stop : Nat)
      (checkout : Option Checkout)
  | step (i : Nat)

namespace Concurrent

variable {σ : Type}

/-- One move. -/
def perform (s : Concurrent σ) : Move σ → Concurrent σ
  | .openRun task model now requested backend checkout =>
    { s with state.ledger :=
        (Call.openRun task model now requested backend checkout).perform s.state.ledger }
  | .call lab runId now settings start stop checkout =>
    { s with plans := s.plans ++ [Plan.evolve lab runId now settings start stop checkout] }
  | .step i =>
    match s.plans[i]? with
    | none => s
    | some p => ⟨(Plan.step (p, s.state)).2, s.plans.set i (Plan.step (p, s.state)).1⟩

/-- What moves lead to, where nothing is recorded at first. -/
def after (world : σ) (moves : List (Move σ)) : Concurrent σ :=
  moves.foldl perform ⟨⟨.empty, world⟩, []⟩

theorem after_append (world : σ) (moves more : List (Move σ)) :
    after world (moves ++ more) = more.foldl perform (after world moves) :=
  List.foldl_append

/-- The ledger is sound, and nobody is going to spoil it. -/
structure Safe (s : Concurrent σ) : Prop where
  sound : Sound s.state.ledger
  grounds : ∀ p ∈ s.plans, p.Grounds s.state.ledger.rows

/-- **One move.** What a call may rely on is that the others keep the rows. -/
theorem Safe.perform {s : Concurrent σ} (h : s.Safe) (move : Move σ) :
    (s.perform move).Safe ∧ s.state.ledger.Extends (s.perform move).state.ledger := by
  have hkept : ∀ {l : Ledger}, s.state.ledger.Extends l → ∀ p ∈ s.plans, p.Grounds l.rows :=
    fun hext p hp => (h.grounds p hp).mono hext.rows.subset
  cases move with
  | openRun task model now requested backend checkout =>
    obtain ⟨hsound, hext⟩ := h.sound.openRun task model now requested backend checkout
    exact ⟨⟨hsound, hkept hext⟩, hext⟩
  | call lab runId now settings start stop checkout =>
    refine ⟨⟨h.sound, fun p hp => ?_⟩, .refl _⟩
    rcases List.mem_append.mp hp with hold | hnew
    · exact h.grounds p hold
    · obtain rfl := List.mem_singleton.mp hnew
      exact Plan.grounds_evolve
  | step i =>
    rw [Concurrent.perform]
    split
    · exact ⟨h, .refl _⟩
    · next p hp =>
      have hp := h.grounds p (List.mem_of_getElem? hp)
      have hext := Plan.extends_of_step p s.state
      refine ⟨⟨h.sound.step hp, fun q hq => ?_⟩, hext⟩
      rcases List.mem_or_eq_of_mem_set hq with hold | rfl
      · exact hkept hext q hold
      · exact hp.step

theorem Safe.foldl {s : Concurrent σ} (h : s.Safe) (moves : List (Move σ)) :
    (moves.foldl Concurrent.perform s).Safe ∧
      s.state.ledger.Extends (moves.foldl Concurrent.perform s).state.ledger := by
  induction moves generalizing s with
  | nil => exact ⟨h, .refl _⟩
  | cons move rest ih =>
    obtain ⟨hsafe, hext⟩ := h.perform move
    obtain ⟨hlater, hmore⟩ := ih hsafe
    exact ⟨hlater, hext.trans hmore⟩

theorem safe_after (world : σ) (moves : List (Move σ)) : (after world moves).Safe :=
  (Safe.foldl ⟨.empty, fun _ hp => absurd hp List.not_mem_nil⟩ moves).1

theorem extends_after (world : σ) (moves more : List (Move σ)) :
    (after world moves).state.ledger.Extends (after world (moves ++ more)).state.ledger := by
  rw [after_append]
  exact ((safe_after world moves).foldl more).2

/-! ### The steps of one call -/

section Steps

variable {s : Concurrent σ} {i : Nat} {p : Plan σ Summary} {outcome : Except Failure Summary}

theorem perform_step (h : s.plans[i]? = some p) :
    s.perform (.step i) =
      ⟨(Plan.step (p, s.state)).2, s.plans.set i (Plan.step (p, s.state)).1⟩ := by
  simp only [perform, h]

theorem set_plan (h : s.plans[i]? = some p) : s.plans.set i p = s.plans := by
  obtain ⟨hlt, hget⟩ := List.getElem?_eq_some_iff.mp h
  rw [← hget, List.set_getElem_self]

/-- Steps of a call that has ended change nothing. -/
theorem perform_step_done (h : s.plans[i]? = some (.done outcome)) : s.perform (.step i) = s := by
  rw [perform_step h]
  simp only [Plan.step, set_plan h]

/-- A call that has ended does not begin again. -/
theorem foldl_perform_done (h : s.plans[i]? = some (.done outcome)) (moves : List (Move σ)) :
    (moves.foldl perform s).plans[i]? = some (.done outcome) := by
  induction moves generalizing s with
  | nil => exact h
  | cons move rest ih =>
    refine ih ?_
    cases move with
    | openRun task model now requested backend checkout => exact h
    | call lab runId now settings start stop checkout =>
      exact (List.getElem?_append_left (List.getElem?_eq_some_iff.mp h).1).trans h
    | step j =>
      by_cases hij : j = i
      · rw [hij, perform_step_done h]
        exact h
      · rw [perform]
        split
        · exact h
        · exact (List.getElem?_set_ne hij).trans h

/-- Steps of one call with nothing in between. -/
theorem foldl_perform_replicate (h : s.plans[i]? = some p) (n : Nat) :
    (List.replicate n (Move.step i)).foldl perform s =
      ⟨(Plan.step^[n] (p, s.state)).2, s.plans.set i (Plan.step^[n] (p, s.state)).1⟩ := by
  induction n generalizing s p with
  | zero =>
    simp only [List.replicate_zero, List.foldl_nil, Function.iterate_zero, id_eq, set_plan h]
  | succ n ih =>
    have hlt := (List.getElem?_eq_some_iff.mp h).1
    rw [List.replicate_succ, List.foldl_cons, perform_step h, ih (List.getElem?_set_self hlt),
      List.set_set, Function.iterate_succ_apply]

end Steps

/-- A call that nobody interrupts is `evolve`. -/
theorem after_call (world : σ) (moves : List (Move σ)) (lab : Laboratory σ) (runId now : String)
    (settings : Settings) (start stop : Nat) (checkout : Option Checkout) :
    let s := after world moves
    let ended := Plan.finished (evolve lab runId now settings start stop checkout s.state)
    ∃ n, after world (moves ++ .call lab runId now settings start stop checkout ::
      List.replicate n (.step s.plans.length)) = ⟨ended.2, s.plans ++ [ended.1]⟩ := by
  intro s ended
  obtain ⟨n, hn⟩ := Plan.follows_evolve lab runId now settings start stop checkout s.state
  let begun := s.perform (.call lab runId now settings start stop checkout)
  have hplan : begun.plans[s.plans.length]? =
      some (Plan.evolve lab runId now settings start stop checkout) :=
    List.getElem?_concat_length
  have halone : Plan.step^[n] (Plan.evolve lab runId now settings start stop checkout, begun.state)
      = ended := hn
  have hset : begun.plans.set s.plans.length ended.1 = s.plans ++ [ended.1] := by
    simp [begun, perform]
  refine ⟨n, (after_append world moves _).trans ?_⟩
  have hsteps := foldl_perform_replicate hplan n
  rw [halone, hset] at hsteps
  exact hsteps

/-- **Calls side by side.** Runs are opened, and any number of calls, on one run or on several, each
with a model, a backend, settings and iterations of its own, make their steps in any order; any of
them may be cut off. Then at every moment

* a slot has at most one record;
* the records that are there stay as they are, in their places;
* every record has its descent;
* a call whose next step is to put in a record for a slot that is filled by then fails with this
  slot and changes nothing, in that step or in any later one;
* a call that makes its steps with nothing in between is `evolve`. -/
theorem calls_side_by_side (world : σ) (moves more : List (Move σ)) :
    let now := after world moves
    (now.state.ledger.rows.map Row.place).Nodup ∧
      now.state.ledger.rows <+: (after world (moves ++ more)).state.ledger.rows ∧
      (∀ r ∈ now.state.ledger.rows, Descent now.state.ledger r) ∧
      (∀ i runId iter sample,
        now.plans[i]?.bind Plan.inserts? = some (runId, iter, sample) →
          now.state.ledger.HasCandidate runId iter sample →
            let failed := after world (moves ++ [.step i])
            let later := after world (moves ++ .step i :: more)
            failed.state = now.state ∧
              later.plans[i]? = some (.done (.error (.duplicateRecord runId iter sample))) ∧
              later.perform (.step i) = later) ∧
      ∀ lab runId when settings start stop checkout,
        let ended := Plan.finished (evolve lab runId when settings start stop checkout now.state)
        ∃ n, after world (moves ++ .call lab runId when settings start stop checkout ::
          List.replicate n (.step now.plans.length)) = ⟨ended.2, now.plans ++ [ended.1]⟩ := by
  intro now
  have hsound := (safe_after world moves).sound
  refine ⟨hsound.intact.places_nodup, (extends_after world moves more).rows, hsound.descent, ?_,
    fun lab runId when settings start stop checkout =>
      after_call world moves lab runId when settings start stop checkout⟩
  intro i runId iter sample hinserts hfilled failed later
  obtain ⟨p, hp, hinserts⟩ := Option.bind_eq_some_iff.mp hinserts
  have hstep : failed = ⟨now.state,
      now.plans.set i (.done (.error (.duplicateRecord runId iter sample)))⟩ := by
    have hfirst : failed = now.perform (.step i) := after_append world moves [.step i]
    rw [hfirst, perform_step hp, Plan.step_of_hasCandidate hinserts hfilled]
  have hended : failed.plans[i]? = some (.done (.error (.duplicateRecord runId iter sample))) := by
    rw [hstep]
    exact List.getElem?_set_self (List.getElem?_eq_some_iff.mp hp).1
  have hlater : later = more.foldl perform failed := by
    rw [← after_append, List.append_assoc]
    rfl
  have hstill := foldl_perform_done hended more
  rw [← hlater] at hstill
  exact ⟨by rw [hstep], hstill, perform_step_done hstill⟩

/-- Two calls of one slot: both find it free, and the second one comes late. -/
theorem calls_side_by_side_late :
    let lab := Script.laboratory Script.repairPrompt
    let call : Move Script := .call lab "sort_0" "" ⟨1, 1, 2, .standard⟩ 0 1 none
    let world : Script := { replies := [.text "no", .text "no"] }
    let moves : List (Move Script) := [.openRun "sort" "scripted" "" none .empty none, call, call,
      .step 0, .step 0, .step 0, .step 0, .step 0, .step 1, .step 1, .step 1, .step 1, .step 1,
      .step 0]
    ((after world moves).plans[1]?.bind Plan.inserts? = some ("sort_0", 0, 0) ∧
      (after world moves).state.ledger.HasCandidate "sort_0" 0 0) ∧
      ((after world (moves ++ [.step 1])).state.ledger.rows.map Row.place) = [("sort_0", 0, 0)] ∧
      (after world (moves ++ [.step 1])).plans[1]? =
        some (.done (.error (.duplicateRecord "sort_0" 0 0))) := by
  intro lab call world moves
  have hinserts : (after world moves).plans[1]?.bind Plan.inserts? = some ("sort_0", 0, 0) := by
    cbv
  have hrows : (after world moves).state.ledger.rows.map Row.place = [("sort_0", 0, 0)] := by
    cbv
  have hfilled : (after world moves).state.ledger.HasCandidate "sort_0" 0 0 :=
    List.mem_map.mp (hrows ▸ List.mem_singleton_self _)
  obtain ⟨-, -, -, hlate, -⟩ := calls_side_by_side world moves []
  obtain ⟨hstate, hended, -⟩ := hlate 1 "sort_0" 0 0 hinserts hfilled
  exact ⟨⟨hinserts, hfilled⟩, by rw [hstate, hrows], hended⟩

end Concurrent

end Evolution

end HeuristicEvolution

import HeuristicEvolution.Proofs.Evolution.Passes
import Mathlib.Logic.Function.Iterate

/-!
# Plans

`Evolution.evolve` is one function of the ledger and the outside world: between two of its steps
nobody else can do anything. A plan keeps the steps apart. It is a tree that stops at each request
to the model, each build and experiment, and each look into the ledger or record, and the branches
are what the step may bring. Between two steps of a plan anything may happen to the ledger and to
the world.

The plan of a call is written with the loops of the call. `Plan.follows_evolve` says that it does
what the call does as long as nobody interferes.

## Main definitions

* `Plan`, `Plan.step`: what is still to be done, and the next thing of it.
* `Plan.Follows`: alone, the plan comes to what the steps come to.
* `Plan.evolve`: the plan of a call.

## Main results

* `Plan.Follows.bind`
* `Plan.follows_evolve`
-/

namespace HeuristicEvolution.Evolution

/-- What is still to be done to get a value. All but the first are steps. -/
inductive Plan (σ α : Type) where
  | done (outcome : Except Failure α)
  /-- The model or the backend is called. What comes next depends on the world before the call. -/
  | act (effect : σ → σ) (next : σ → Plan σ α)
  /-- The call is noted in the ledger. -/
  | note (call : Invocation) (next : Plan σ α)
  /-- It is looked up whether a slot is filled. -/
  | look (runId : String) (iter sample : Nat) (next : Bool → Plan σ α)
  /-- Parents are chosen. -/
  | choose (runId : String) (iter most : Nat) (next : Parents → Plan σ α)
  /-- A record is put into the ledger. -/
  | insert (runId now : String) (c : Candidate) (next : Plan σ α)

namespace Plan

variable {σ α β : Type}

/-- One plan after another. A plan that fails is the end. -/
def bind : Plan σ α → (α → Plan σ β) → Plan σ β
  | done (.ok a), f => f a
  | done (.error e), _ => done (.error e)
  | act effect next, f => act effect fun w => (next w).bind f
  | note call next, f => note call (next.bind f)
  | look runId iter sample next, f => look runId iter sample fun b => (next b).bind f
  | choose runId iter most next, f => choose runId iter most fun p => (next p).bind f
  | insert runId now c next, f => insert runId now c (next.bind f)

instance : Monad (Plan σ) where
  pure a := done (.ok a)
  bind := bind

/-- The next step. What the ledger refuses ends the plan. -/
def step : Plan σ α × State σ → Plan σ α × State σ
  | (done outcome, s) => (done outcome, s)
  | (act effect next, s) => (next s.world, { s with world := effect s.world })
  | (note call next, s) =>
    match s.ledger.recordInvocation call with
    | .ok ledger => (next, { s with ledger })
    | .error e => (done (.error e), s)
  | (look runId iter sample next, s) => (next (s.ledger.holds runId iter sample), s)
  | (choose runId iter most next, s) =>
    match s.ledger.selectParents runId iter most with
    | .ok p => (next p, s)
    | .error e => (done (.error e), s)
  | (insert runId now c next, s) =>
    match s.ledger.insert runId now c with
    | .ok (_, ledger) => (next, { s with ledger })
    | .error e => (done (.error e), s)

/-! ## The plan of a call -/

/-- A call of the model or the backend. -/
def call (x : σ → α × σ) : Plan σ α := act (fun w => (x w).2) fun w => pure (x w).1

/-- A call of the model or the backend that may fail. -/
def callExcept (x : σ → Except Failure α × σ) : Plan σ α :=
  act (fun w => (x w).2) fun w => done (x w).1

/-- A prompt is sent, and again after each failure while tries are left. -/
def send (ask : String → σ → Exchange × σ) (policy : Policy) (prompt : String) :
    (retries : Nat) → Plan σ Response
  | 0 => do
    match ← call (ask prompt) with
    | .reply text usage => return .ofReply text usage
    | fault => done (.error (.generation (fault.fault policy)))
  | retries + 1 => do
    match ← call (ask prompt) with
    | .reply text usage => return .ofReply text usage
    | _ => send ask policy prompt retries

/-- The attempt that a reply leads to. -/
def attempt (tools : Repair.Tools σ) (number : Nat) (prompt : String) (response : Response) :
    Plan σ (Revision × Option String × String) := do
  match response.primaryCode with
  | some code =>
    let result ← callExcept (tools.build code)
    return (⟨number, result.success, result.stdout, result.stderr, prompt, response⟩, some code,
      tools.repairPrompt result.stdout result.stderr)
  | none =>
    return (⟨number, false, Prompt.noCodeDiagnostic, "", prompt, response⟩, none,
      Prompt.noCodeReprompt)

/-- The build-repair cycle. -/
def cycle (tools : Repair.Tools σ) : (left number : Nat) → (lastCode : Option String) →
    (prompt : String) → Response → Plan σ RepairResult
  | 0, _, lastCode, _, _ => pure ⟨false, lastCode, []⟩
  | left + 1, number, lastCode, prompt, response => do
    let (revision, code, next) ← attempt tools number prompt response
    let lastCode := code.or lastCode
    if revision.built || left = 0 then return ⟨revision.built, lastCode, [revision]⟩
    else
      let reply ← send tools.ask tools.policy next tools.policy.retries
      let rest ← cycle tools left (number + 1) lastCode next reply
      return { rest with revisions := revision :: rest.revisions }

/-- The conversation of a slot. -/
def talk (lab : Laboratory σ) (settings : Settings) (slot : Slot) (session : Nat)
    (prompt : String) : Plan σ RepairResult := do
  let response ← send (lab.ask slot session) settings.policy prompt settings.policy.retries
  cycle (tools lab settings slot session) settings.buildAttempts 0 none prompt response

/-- The first prompt of a slot. -/
def firstPrompt (lab : Laboratory σ) (slot : Slot) : Option Parents → Plan σ String
  | none => call (lab.initialPrompt slot)
  | some p => call (lab.mutationPrompt slot p.codes)

/-- What was built is measured. -/
def measure (lab : Laboratory σ) (slot : Slot) (parents : Option Parents)
    (repaired : RepairResult) : Plan σ Candidate :=
  if repaired.built then do
    let outcome ← callExcept (lab.experiment slot)
    return measured (unmeasured slot parents repaired) outcome
  else return unmeasured slot parents repaired

/-- The record of a slot. -/
def runSlot (lab : Laboratory σ) (settings : Settings) (slot : Slot) (parents : Option Parents) :
    Plan σ Candidate := do
  let prompt ← firstPrompt lab slot parents
  let session ← call (lab.openSession slot)
  let repaired ← talk lab settings slot session prompt
  measure lab slot parents repaired

/-- A finished record is put into the ledger, unless something is wrong with it. -/
def record (runId now : String) (bound : Nat) (c : Candidate) : Plan σ Unit :=
  match c.flaw? bound with
  | some flaw => done (.error (.inconsistent (c.flawMessage flaw)))
  | none => insert runId now c (pure ())

/-- The parents for a slot. -/
def parentsFor (runId : String) (settings : Settings) (iter : Nat) (chosen : Option Parents) :
    Plan σ (Option Parents) :=
  if iter = 0 then pure none
  else
    match chosen with
    | some p => pure (some p)
    | none => choose runId iter settings.parents fun p => pure (some p)

/-- The slots of one iteration. -/
def runSamples (lab : Laboratory σ) (runId now : String) (settings : Settings) (iter : Nat) :
    List Nat → Option Parents → Summary → Plan σ Summary
  | [], _, summary => pure summary
  | sample :: rest, chosen, summary => do
    if ← look runId iter sample pure then
      runSamples lab runId now settings iter rest chosen summary.skip
    else
      let parents ← parentsFor runId settings iter chosen
      let c ← runSlot lab settings ⟨iter, sample⟩ parents
      record runId now settings.buildAttempts c
      runSamples lab runId now settings iter rest parents (summary.add c)

/-- Iterations in order. -/
def runIterations (lab : Laboratory σ) (runId now : String) (settings : Settings) :
    List Nat → Summary → Plan σ Summary
  | [], summary => pure summary
  | iter :: rest, summary => do
    let summary ← runSamples lab runId now settings iter (List.range settings.samples) none summary
    runIterations lab runId now settings rest summary

/-- The plan of a call that works on a run. -/
def evolve (lab : Laboratory σ) (runId now : String) (settings : Settings) (start stop : Nat)
    (checkout : Option Checkout) : Plan σ Summary :=
  note (noteOf lab runId settings start stop checkout) <|
    runIterations lab runId now settings (List.range' start (stop - start)) (.start runId)

/-! ## A plan that is left alone -/

/-- A plan that has ended as the steps ended, in the state that they left. -/
def finished : EStateM.Result Failure (State σ) α → Plan σ α × State σ
  | .ok a s => (done (.ok a), s)
  | .error e s => (done (.error e), s)

/-- Alone, the plan ends as the steps do, and leaves what they leave. -/
def Follows (p : Plan σ α) (steps : Run σ α) : Prop :=
  ∀ s, ∃ n, step^[n] (p, s) = finished (steps s)

/-- As long as the first of two plans has not ended, a step of both is a step of it. -/
theorem step_bind {x : Plan σ α} (f : α → Plan σ β) (s : State σ) (h : ∀ a, x ≠ done (.ok a)) :
    step (x.bind f, s) = ((step (x, s)).1.bind f, (step (x, s)).2) := by
  cases x with
  | done outcome =>
    cases outcome with
    | ok a => exact absurd rfl (h a)
    | error e => rfl
  | act effect next => rfl
  | note call next =>
    simp only [bind, step]
    cases s.ledger.recordInvocation call <;> rfl
  | look runId iter sample next => rfl
  | choose runId iter most next =>
    simp only [bind, step]
    cases s.ledger.selectParents runId iter most <;> rfl
  | insert runId now c next =>
    simp only [bind, step]
    cases s.ledger.insert runId now c <;> rfl

theorem iterate_step_done (outcome : Except Failure α) (s : State σ) (n : Nat) :
    step^[n] (done outcome, s) = (done outcome, s) :=
  Function.iterate_fixed rfl n

/-- Steps of the first of two plans, up to its end. -/
theorem iterate_step_bind {x : Plan σ α} (f : α → Plan σ β) {s s' : State σ} {n : Nat}
    {outcome : Except Failure α} (h : step^[n] (x, s) = (done outcome, s')) :
    ∃ m, step^[m] (x.bind f, s) = ((done outcome).bind f, s') := by
  induction n generalizing x s with
  | zero =>
    obtain ⟨rfl, rfl⟩ := Prod.mk.inj h
    exact ⟨0, rfl⟩
  | succ n ih =>
    by_cases hended : ∃ a, x = done (.ok a)
    · obtain ⟨a, rfl⟩ := hended
      rw [iterate_step_done] at h
      obtain ⟨hplan, rfl⟩ := Prod.mk.inj h
      exact ⟨0, by rw [← hplan]; rfl⟩
    · obtain ⟨m, hm⟩ := ih (x := (step (x, s)).1) (s := (step (x, s)).2) h
      refine ⟨m + 1, ?_⟩
      rw [Function.iterate_succ_apply, step_bind f s fun a ha => hended ⟨a, ha⟩]
      exact hm

/-- When the first of two plans has brought its value, what the second one comes to from there is
what both come to. -/
theorem iterate_step_bind_ok {x : Plan σ α} {f : α → Plan σ β} {s s' : State σ} {n : Nat} {a : α}
    {q : Plan σ β × State σ} (h : step^[n] (x, s) = (done (.ok a), s'))
    (hnext : ∃ k, step^[k] (f a, s') = q) : ∃ m, step^[m] (x.bind f, s) = q := by
  obtain ⟨m, hm⟩ := iterate_step_bind f h
  obtain ⟨k, hk⟩ := hnext
  refine ⟨k + m, ?_⟩
  rw [Function.iterate_add_apply]
  exact (congrArg step^[k] hm).trans hk

namespace Follows

theorem pure (a : α) : Follows (Pure.pure a : Plan σ α) (Pure.pure a) := fun _ => ⟨0, rfl⟩

theorem bind {x : Plan σ α} {f : α → Plan σ β} {steps : Run σ α} {more : α → Run σ β}
    (hx : x.Follows steps) (hf : ∀ a, (f a).Follows (more a)) :
    (x >>= f).Follows (steps >>= more) := by
  intro s
  obtain ⟨n, hn⟩ := hx s
  cases hsteps : steps s with
  | error e s' =>
    rw [hsteps] at hn
    rw [bind_of_error hsteps]
    exact iterate_step_bind f hn
  | ok a s' =>
    rw [hsteps] at hn
    rw [bind_of_ok hsteps]
    exact iterate_step_bind_ok hn (hf a s')

/-- The first step is made, and the rest follows what remains of the steps. -/
theorem of_step {p : Plan σ α} {steps : Run σ α}
    (h : ∀ s, ∃ n, step^[n] (step (p, s)) = finished (steps s)) : p.Follows steps := by
  intro s
  obtain ⟨n, hn⟩ := h s
  exact ⟨n + 1, hn⟩

theorem call (x : σ → α × σ) : (call x).Follows (outside x) := fun _ => ⟨1, rfl⟩

theorem callExcept (x : σ → Except Failure α × σ) : (callExcept x).Follows (outsideExcept x) := by
  refine of_step fun s => ⟨0, ?_⟩
  rw [outsideExcept]
  simp only [Function.iterate_zero, id_eq, Plan.callExcept, step]
  rcases x s.world with ⟨_ | _, _⟩ <;> rfl

end Follows

/-! ### The conversation of a slot -/

/-- Alone, the plan comes to what is said in a conversation, whatever was said before. -/
def Speaks (p : Plan σ α) (talk : EStateM Failure (Conversation σ) α) : Prop :=
  ∀ turns, p.Follows fun s =>
    match talk ⟨s.world, turns⟩ with
    | .ok a c => .ok a { s with world := c.world }
    | .error e c => .error e { s with world := c.world }

namespace Speaks

theorem pure (a : α) : Speaks (Pure.pure a : Plan σ α) (Pure.pure a) := fun _ _ => ⟨0, rfl⟩

theorem bind {x : Plan σ α} {f : α → Plan σ β} {talk : EStateM Failure (Conversation σ) α}
    {more : α → EStateM Failure (Conversation σ) β} (hx : x.Speaks talk)
    (hf : ∀ a, (f a).Speaks (more a)) : (x >>= f).Speaks (talk >>= more) := by
  intro turns s
  obtain ⟨n, hn⟩ := hx turns s
  dsimp only at hn ⊢
  cases htalk : talk ⟨s.world, turns⟩ with
  | error e c =>
    rw [htalk] at hn
    rw [bind_of_error htalk]
    exact iterate_step_bind f hn
  | ok a c =>
    rw [htalk] at hn
    rw [bind_of_ok htalk]
    exact iterate_step_bind_ok hn (hf a c.turns { s with world := c.world })

theorem converse {p : Plan σ α} {talk : EStateM Failure (Conversation σ) α} (h : p.Speaks talk) :
    p.Follows (converse talk) := h 0

end Speaks

theorem step_call_bind (x : σ → α × σ) (f : α → Plan σ β) (s : State σ) :
    step (call x >>= f, s) = (f (x s.world).1, { s with world := (x s.world).2 }) := rfl

/-- Sending a prompt with some tries left. -/
theorem iterate_step_send (ask : String → σ → Exchange × σ) (policy : Policy) (prompt : String)
    (retries : Nat) (s : State σ) :
    ∃ n, step^[n] (send ask policy prompt retries, s) = finished
      (match Conversation.request ask policy prompt retries s.world with
        | (.ok (text, usage), w) => .ok (.ofReply text usage) { s with world := w }
        | (.error fault, w) => .error (.generation fault) { s with world := w }) := by
  induction retries generalizing s with
  | zero =>
    refine ⟨1, ?_⟩
    rw [Function.iterate_one, send, step_call_bind, Conversation.request]
    rcases ask prompt s.world with ⟨_ | _ | _, w⟩ <;> rfl
  | succ retries ih =>
    have hfirst : step (send ask policy prompt (retries + 1), s) = _ := step_call_bind _ _ s
    rw [Conversation.request]
    rcases hask : ask prompt s.world with ⟨_ | _ | _, w⟩
    · refine ⟨1, ?_⟩
      rw [Function.iterate_one, hfirst, hask]
      rfl
    all_goals
      obtain ⟨n, hn⟩ := ih { s with world := w }
      refine ⟨n + 1, ?_⟩
      rw [Function.iterate_succ_apply, hfirst, hask]
      exact hn

theorem speaks_send (ask : String → σ → Exchange × σ) (policy : Policy) (prompt : String) :
    (send ask policy prompt policy.retries).Speaks (Conversation.send ask policy prompt) := by
  intro turns s
  obtain ⟨n, hn⟩ := iterate_step_send ask policy prompt policy.retries s
  refine ⟨n, hn.trans ?_⟩
  dsimp only [Conversation.send]
  rcases Conversation.request ask policy prompt policy.retries s.world with ⟨_ | _, w⟩ <;> rfl

theorem speaks_build (tools : Repair.Tools σ) (code : String) :
    (callExcept (tools.build code)).Speaks (Repair.buildStep tools code) := by
  refine fun turns => Follows.of_step fun s => ⟨0, ?_⟩
  simp only [Function.iterate_zero, id_eq, callExcept, step, Repair.buildStep]
  rcases tools.build code s.world with ⟨_ | _, _⟩ <;> rfl

theorem speaks_attempt (tools : Repair.Tools σ) (number : Nat) (prompt : String)
    (response : Response) :
    (attempt tools number prompt response).Speaks
      (Repair.attempt tools number prompt response) := by
  rw [attempt, Repair.attempt]
  cases response.primaryCode with
  | none => exact .pure _
  | some code => exact (speaks_build tools code).bind fun result => .pure _

theorem speaks_cycle (tools : Repair.Tools σ) (left number : Nat) (lastCode : Option String)
    (prompt : String) (response : Response) :
    (cycle tools left number lastCode prompt response).Speaks
      (Repair.cycle tools left number lastCode prompt response) := by
  induction left generalizing number lastCode prompt response with
  | zero => exact .pure _
  | succ left ih =>
    rw [cycle, Repair.cycle]
    refine (speaks_attempt tools number prompt response).bind fun ⟨revision, code, next⟩ => ?_
    dsimp only
    split
    · exact .pure _
    · refine (speaks_send tools.ask tools.policy next).bind fun reply => ?_
      exact (ih _ _ _ _).bind fun rest => .pure _

theorem speaks_talk (lab : Laboratory σ) (settings : Settings) (slot : Slot) (session : Nat)
    (prompt : String) :
    (talk lab settings slot session prompt).Speaks
      (Evolution.talk lab settings slot session prompt) :=
  (speaks_send _ _ _).bind fun _ => speaks_cycle _ _ _ _ _ _

/-! ### The loops -/

theorem follows_runSlot (lab : Laboratory σ) (settings : Settings) (slot : Slot)
    (parents : Option Parents) :
    (runSlot lab settings slot parents).Follows (Evolution.runSlot lab settings slot parents) := by
  rw [runSlot_eq]
  have hprompt :
      (firstPrompt lab slot parents).Follows (Evolution.firstPrompt lab slot parents) := by
    cases parents <;> exact .call _
  refine hprompt.bind fun prompt => (Follows.call _).bind fun session => ?_
  refine (speaks_talk lab settings slot session prompt).converse.bind fun repaired => ?_
  rw [measure, Evolution.measure]
  split
  · exact (Follows.callExcept _).bind fun outcome => .pure _
  · exact .pure _

theorem follows_record (runId now : String) (bound : Nat) (c : Candidate) :
    (record runId now bound c : Plan σ Unit).Follows (Evolution.record runId now bound c) := by
  intro s
  rw [record, Evolution.record]
  cases c.flaw? bound with
  | some flaw => exact ⟨0, rfl⟩
  | none =>
    refine ⟨1, ?_⟩
    simp only [Function.iterate_one, step]
    rcases s.ledger.insert runId now c with _ | ⟨_, _⟩ <;> rfl

theorem follows_parentsFor (runId : String) (settings : Settings) (iter : Nat)
    (chosen : Option Parents) :
    (parentsFor runId settings iter chosen : Plan σ _).Follows
      (Evolution.parentsFor runId settings iter chosen) := by
  intro s
  unfold parentsFor Evolution.parentsFor
  by_cases hzero : iter = 0
  · rw [if_pos hzero, if_pos hzero]
    exact ⟨0, rfl⟩
  · rw [if_neg hzero, if_neg hzero]
    cases chosen with
    | some p => exact ⟨0, rfl⟩
    | none =>
      refine ⟨1, ?_⟩
      simp only [Function.iterate_one, step]
      cases s.ledger.selectParents runId iter settings.parents <;> rfl

section Loops

variable (lab : Laboratory σ) (runId now : String) (settings : Settings)

theorem follows_runSamples (iter : Nat) (samples : List Nat) (chosen : Option Parents)
    (summary : Summary) :
    (runSamples lab runId now settings iter samples chosen summary).Follows
      (Evolution.runSamples lab runId now settings iter samples chosen summary) := by
  induction samples generalizing chosen summary with
  | nil => exact .pure _
  | cons sample rest ih =>
    refine Follows.of_step fun s => ?_
    change ∃ n, step^[n] (if s.ledger.holds runId iter sample then _ else _, s) =
      finished ((if s.ledger.holds runId iter sample then _ else _ : Run σ _) s)
    split
    · exact ih chosen summary.skip s
    · refine Follows.bind (follows_parentsFor runId settings iter chosen) (fun parents => ?_) s
      refine (follows_runSlot lab settings ⟨iter, sample⟩ parents).bind fun c => ?_
      exact (follows_record runId now settings.buildAttempts c).bind fun _ => ih parents _

theorem follows_runIterations (iters : List Nat) (summary : Summary) :
    (runIterations lab runId now settings iters summary).Follows
      (Evolution.runIterations lab runId now settings iters summary) := by
  induction iters generalizing summary with
  | nil => exact .pure _
  | cons iter rest ih =>
    exact (follows_runSamples lab runId now settings iter _ none summary).bind fun _ => ih _

/-- **The plan of a call is the call**, when it is left alone. -/
theorem follows_evolve (start stop : Nat) (checkout : Option Checkout) :
    (evolve lab runId now settings start stop checkout).Follows
      (Evolution.evolve lab runId now settings start stop checkout) := by
  refine Follows.of_step fun s => ?_
  rw [evolve_eq]
  simp only [evolve, step]
  cases s.ledger.recordInvocation (noteOf lab runId settings start stop checkout) with
  | error e => exact ⟨0, rfl⟩
  | ok l =>
    dsimp only
    rw [slots, ← runIterations_eq_visitAll]
    exact follows_runIterations lab runId now settings _ _ { s with ledger := l }

end Loops

end Plan

end HeuristicEvolution.Evolution

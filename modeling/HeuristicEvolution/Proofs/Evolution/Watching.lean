import HeuristicEvolution.Proofs.Evolution.Passes

/-!
# Watching a laboratory

What a call does to the outside world is what it asks of its laboratory. To speak about that, the
laboratory is watched: the watched laboratory passes every call on and notes it with its answer.
It also numbers the sessions in the order in which they are opened, so that two sessions never
share a number, whatever numbers the laboratory itself gives them.

## Watching changes nothing

`Mirrors` relates steps in the watched laboratory to steps in the laboratory itself: they end in
the same way, and their states differ only by what was noted. One lemma for each part of a call
leads to `evolve_watched`, and so the notes of a watched call are the calls of the call itself.

## Main definitions

* `LabCall`, `Noted`: a call of a laboratory, and a call with its slot.
* `Watched`, `Laboratory.watched`: the watched laboratory.
* `Evolution.callsOf`: the calls of a laboratory that one call of `evolve` makes.
* `Evolution.Mirrors`

## Main results

* `Evolution.evolve_watched`
-/

namespace HeuristicEvolution

/-- A call of a laboratory, with what came back. -/
inductive LabCall where
  | initialPrompt (prompt : String)
  | mutationPrompt (codes : List String) (prompt : String)
  | opened (session : Nat)
  | asked (session : Nat) (prompt : String) (answer : Exchange)
  | built (code : String) (answer : Except Failure BuildResult)
  | measured (answer : Except Failure Outcome)

/-- A call of a laboratory and the slot for which it was made. -/
abbrev Noted := Slot × LabCall

/-- A world that is watched. -/
structure Watched (σ : Type) where
  world : σ
  /-- The numbers that the laboratory gave to its sessions, in the order in which it opened them. -/
  sessions : List Nat
  /-- The calls so far, in order. -/
  calls : List Noted

namespace Watched

variable {σ : Type}

/-- Nothing was called yet. -/
def start (world : σ) : Watched σ := ⟨world, [], []⟩

/-- A call is noted, after which the world is as given. -/
def note (w : Watched σ) (slot : Slot) (call : LabCall) (world : σ) : Watched σ :=
  ⟨world, w.sessions, w.calls ++ [(slot, call)]⟩

end Watched

/-- The laboratory with all its calls noted. Sessions are numbered in order; a number that was not
given out is passed on as it is. -/
def Laboratory.watched {σ : Type} (lab : Laboratory σ) : Laboratory (Watched σ) where
  model := lab.model
  openSession slot w :=
    let (session, world) := lab.openSession slot w.world
    (w.sessions.length,
      { w.note slot (.opened w.sessions.length) world with sessions := w.sessions ++ [session] })
  ask slot session prompt w :=
    let (answer, world) := lab.ask slot (w.sessions.getD session session) prompt w.world
    (answer, w.note slot (.asked session prompt answer) world)
  initialPrompt slot w :=
    let (prompt, world) := lab.initialPrompt slot w.world
    (prompt, w.note slot (.initialPrompt prompt) world)
  mutationPrompt slot codes w :=
    let (prompt, world) := lab.mutationPrompt slot codes w.world
    (prompt, w.note slot (.mutationPrompt codes prompt) world)
  repairPrompt := lab.repairPrompt
  build slot code w :=
    let (answer, world) := lab.build slot code w.world
    (answer, w.note slot (.built code answer) world)
  experiment slot w :=
    let (answer, world) := lab.experiment slot w.world
    (answer, w.note slot (.measured answer) world)

namespace Evolution

/-! ## Steps that mirror other steps -/

section Mirrors

variable {ε τ σ α β : Type}

/-- Steps over `τ` end as the steps over `σ` do, seen through `view`. They start where `I` holds,
and when they succeed, `J` holds of both results and of the state. -/
structure Mirrors (view : τ → σ) (I : τ → Prop) (x : EStateM ε τ α) (y : EStateM ε σ β)
    (J : α → β → τ → Prop) : Prop where
  ok : ∀ {s a s'}, I s → x s = .ok a s' → ∃ b, y (view s) = .ok b (view s') ∧ J a b s'
  error : ∀ {s e s'}, I s → x s = .error e s' → y (view s) = .error e (view s')

namespace Mirrors

variable {view : τ → σ} {I I' : τ → Prop} {x : EStateM ε τ α} {y : EStateM ε σ β}
  {J : α → β → τ → Prop}

theorem pure {a : α} {b : β} (h : ∀ s, I s → J a b s) :
    Mirrors view I (Pure.pure a : EStateM ε τ α) (Pure.pure b : EStateM ε σ β) J where
  ok hI hs := by
    obtain ⟨rfl, rfl⟩ := EStateM.Result.ok.inj hs
    exact ⟨b, rfl, h _ hI⟩
  error _ hs := nomatch hs

theorem bind {α' β' : Type} {f : α → EStateM ε τ α'} {g : β → EStateM ε σ β'}
    {K : α' → β' → τ → Prop} (hx : Mirrors view I x y J)
    (hf : ∀ a b, Mirrors view (J a b) (f a) (g b) K) : Mirrors view I (x >>= f) (y >>= g) K where
  ok hI hs := by
    obtain ⟨a, t, ha, hs⟩ := bind_eq_ok_iff.mp hs
    obtain ⟨b, hb, hJ⟩ := hx.ok hI ha
    rw [bind_of_ok hb]
    exact (hf a b).ok hJ hs
  error hI hs := by
    rcases bind_eq_error_iff.mp hs with ha | ⟨a, t, ha, hs⟩
    · exact bind_of_error (hx.error hI ha)
    · obtain ⟨b, hb, hJ⟩ := hx.ok hI ha
      rw [bind_of_ok hb]
      exact (hf a b).error hJ hs

/-- What is known of the results, apart from the state, is known of all that follows. -/
theorem bind_rel {α' β' : Type} {P : α → β → Prop} {f : α → EStateM ε τ α'}
    {g : β → EStateM ε σ β'} {K : α' → β' → τ → Prop}
    (hx : Mirrors view I x y fun a b s => P a b ∧ I' s)
    (hf : ∀ a b, P a b → Mirrors view I' (f a) (g b) K) :
    Mirrors view I (x >>= f) (y >>= g) K :=
  hx.bind fun a b =>
    ⟨fun ⟨hab, hI⟩ hs => (hf a b hab).ok hI hs, fun ⟨hab, hI⟩ hs => (hf a b hab).error hI hs⟩

/-- Where the results are equal, one result is enough for what follows. -/
theorem bind_eq {α' β' : Type} {y : EStateM ε σ α} {f : α → EStateM ε τ α'}
    {g : α → EStateM ε σ β'} {K : α' → β' → τ → Prop}
    (hx : Mirrors view I x y fun a b s => a = b ∧ I' s)
    (hf : ∀ a, Mirrors view I' (f a) (g a) K) : Mirrors view I (x >>= f) (y >>= g) K :=
  hx.bind_rel fun a _ hab => hab ▸ hf a

/-- A single step mirrors another one if they end in the same way from every state. -/
theorem of_step (h : ∀ s, I s →
    (∃ a b s', x s = .ok a s' ∧ y (view s) = .ok b (view s') ∧ J a b s') ∨
      ∃ e s', x s = .error e s' ∧ y (view s) = .error e (view s')) : Mirrors view I x y J where
  ok hI hs := by
    rcases h _ hI with ⟨a, b, s', ha, hb, hJ⟩ | ⟨e, s', he, -⟩
    · obtain ⟨rfl, rfl⟩ := EStateM.Result.ok.inj (ha.symm.trans hs)
      exact ⟨b, hb, hJ⟩
    · exact nomatch he.symm.trans hs
  error hI hs := by
    rcases h _ hI with ⟨a, b, s', ha, -, -⟩ | ⟨e, s', he, hb⟩
    · exact nomatch ha.symm.trans hs
    · obtain ⟨rfl, rfl⟩ := EStateM.Result.error.inj (he.symm.trans hs)
      exact hb

end Mirrors

end Mirrors

variable {σ α : Type} {lab : Laboratory σ} {slot : Slot} {settings : Settings}

/-- The conversation in the laboratory itself. -/
def unwatchedTalk (c : Conversation (Watched σ)) : Conversation σ := ⟨c.world.world, c.turns⟩

/-- The state in the laboratory itself. -/
def unwatched (s : State (Watched σ)) : State σ := ⟨s.ledger, s.world.world⟩

/-- The laboratory itself gave the number `n` to the session with the number `k`. -/
def KnownAs (k n : Nat) (c : Conversation (Watched σ)) : Prop := c.world.sessions.getD k k = n

/-! ## A conversation -/

section Talk

variable {k n : Nat}

theorem request_watched (policy : Policy) (prompt : String) (retries : Nat) (w : Watched σ)
    (hk : w.sessions.getD k k = n) :
    ∃ w', Conversation.request (lab.watched.ask slot k) policy prompt retries w
        = ((Conversation.request (lab.ask slot n) policy prompt retries w.world).1, w') ∧
      w'.world = (Conversation.request (lab.ask slot n) policy prompt retries w.world).2 ∧
      w'.sessions = w.sessions := by
  have hask : ∀ w : Watched σ, w.sessions.getD k k = n → lab.watched.ask slot k prompt w =
      ((lab.ask slot n prompt w.world).1, w.note slot
        (.asked k prompt (lab.ask slot n prompt w.world).1) (lab.ask slot n prompt w.world).2) := by
    rintro w rfl
    rfl
  induction retries generalizing w with
  | zero =>
    rw [Conversation.request, Conversation.request, hask w hk]
    rcases lab.ask slot n prompt w.world with ⟨_ | _ | _, w'⟩ <;> exact ⟨_, rfl, rfl, rfl⟩
  | succ retries ih =>
    rw [Conversation.request, Conversation.request, hask w hk]
    rcases lab.ask slot n prompt w.world with ⟨_ | _ | _, w'⟩
    · exact ⟨_, rfl, rfl, rfl⟩
    · exact ih _ hk
    · exact ih _ hk

theorem send_watched (policy : Policy) (prompt : String) :
    Mirrors unwatchedTalk (KnownAs k n)
      (Conversation.send (lab.watched.ask slot k) policy prompt)
      (Conversation.send (lab.ask slot n) policy prompt) fun a b c => a = b ∧ KnownAs k n c := by
  refine .of_step fun c hk => ?_
  obtain ⟨w', hrequest, hworld, hsessions⟩ :=
    request_watched policy prompt policy.retries c.world hk
  have hknown : ∀ turns, KnownAs k n ⟨w', turns⟩ := fun _ => by rw [KnownAs, hsessions]; exact hk
  rw [Conversation.send, Conversation.send, hrequest, unwatchedTalk]
  rcases hr : Conversation.request (lab.ask slot n) policy prompt policy.retries c.world.world
    with ⟨_ | ⟨text, usage⟩, w⟩
  · rw [hr] at hworld
    exact .inr ⟨_, _, rfl, by simp [unwatchedTalk, hworld]⟩
  · rw [hr] at hworld
    exact .inl ⟨_, _, _, rfl, by simp [unwatchedTalk, hworld], rfl, hknown _⟩

theorem buildStep_watched (code : String) :
    Mirrors unwatchedTalk (KnownAs k n)
      (Repair.buildStep (tools lab.watched settings slot k) code)
      (Repair.buildStep (tools lab settings slot n) code) fun a b c => a = b ∧ KnownAs k n c := by
  refine .of_step fun c hk => ?_
  have hbuild : (tools lab.watched settings slot k).build code c.world =
      ((lab.build slot code c.world.world).1, c.world.note slot
        (.built code (lab.build slot code c.world.world).1)
        (lab.build slot code c.world.world).2) := rfl
  have hplain : (tools lab settings slot n).build code (unwatchedTalk c).world
      = lab.build slot code c.world.world := rfl
  rw [Repair.buildStep, Repair.buildStep, hbuild, hplain]
  rcases lab.build slot code c.world.world with ⟨_ | _, w⟩
  · exact .inr ⟨_, _, rfl, rfl⟩
  · exact .inl ⟨_, _, _, rfl, rfl, rfl, hk⟩

theorem attempt_watched (number : Nat) (prompt : String) (response : Response) :
    Mirrors unwatchedTalk (KnownAs k n)
      (Repair.attempt (tools lab.watched settings slot k) number prompt response)
      (Repair.attempt (tools lab settings slot n) number prompt response)
      fun a b c => a = b ∧ KnownAs k n c := by
  unfold Repair.attempt
  cases response.primaryCode with
  | none => exact .pure fun _ hk => ⟨rfl, hk⟩
  | some code => exact (buildStep_watched code).bind_eq fun _ => .pure fun _ hk => ⟨rfl, hk⟩

theorem cycle_watched (left number : Nat) (earlier : Option String) (prompt : String)
    (response : Response) :
    Mirrors unwatchedTalk (KnownAs k n)
      (Repair.cycle (tools lab.watched settings slot k) left number earlier prompt response)
      (Repair.cycle (tools lab settings slot n) left number earlier prompt response)
      fun a b c => a = b ∧ KnownAs k n c := by
  induction left generalizing number earlier prompt response with
  | zero => exact .pure fun _ hk => ⟨rfl, hk⟩
  | succ left ih =>
    rw [Repair.cycle, Repair.cycle]
    refine (attempt_watched number prompt response).bind_eq fun ⟨v, code, next⟩ => ?_
    simp only
    split
    · exact .pure fun _ hk => ⟨rfl, hk⟩
    · refine (send_watched settings.policy next).bind_eq fun reply => ?_
      exact (ih (number + 1) _ next reply).bind_eq fun _ => .pure fun _ hk => ⟨rfl, hk⟩

theorem talk_watched (prompt : String) :
    Mirrors unwatchedTalk (KnownAs k n) (talk lab.watched settings slot k prompt)
      (talk lab settings slot n prompt) fun a b c => a = b ∧ KnownAs k n c :=
  (send_watched settings.policy prompt).bind_eq fun response =>
    cycle_watched settings.buildAttempts 0 none prompt response

end Talk

/-! ## The work on a slot -/

section Work

variable {parents : Option Parents}

/-- Steps on states that end with the same result, and ask nothing of the states. -/
abbrev MirrorsRun (x : Run (Watched σ) α) (y : Run σ α) : Prop :=
  Mirrors unwatched (fun _ => True) x y fun a b _ => a = b ∧ True

theorem MirrorsRun.finalState_eq {x : Run (Watched σ) α} {y : Run σ α} (h : MirrorsRun x y)
    (s : State (Watched σ)) : finalState y (unwatched s) = unwatched (finalState x s) := by
  cases hx : x s with
  | ok a s' =>
    obtain ⟨b, hb, -⟩ := h.ok trivial hx
    rw [finalState_of_ok hx, finalState_of_ok hb]
  | error e s' => rw [finalState_of_error hx, finalState_of_error (h.error trivial hx)]

theorem outside_watched {step : Watched σ → α × Watched σ} {step' : σ → α × σ}
    (h : ∀ w, (step w).1 = (step' w.world).1 ∧ (step w).2.world = (step' w.world).2) :
    MirrorsRun (outside step) (outside step') := by
  refine .of_step fun s _ => .inl ⟨_, _, _, rfl, ?_, rfl, trivial⟩
  obtain ⟨hresult, hworld⟩ := h s.world
  change outside step' (unwatched s) = .ok (step s.world).1 ⟨s.ledger, (step s.world).2.world⟩
  rw [hresult, hworld]
  rfl

theorem firstPrompt_watched :
    MirrorsRun (firstPrompt lab.watched slot parents) (firstPrompt lab slot parents) := by
  cases parents <;> exact outside_watched fun _ => ⟨rfl, rfl⟩

/-- A new session is known under the number that the laboratory gave it. -/
theorem openSession_watched :
    Mirrors unwatched (fun _ => True) (outside (lab.watched.openSession slot))
      (outside (lab.openSession slot)) fun k n s => KnownAs k n ⟨s.world, 0⟩ := by
  refine .of_step fun s _ => .inl ⟨_, _, _, rfl, rfl, ?_⟩
  change (s.world.sessions ++ [(lab.openSession slot s.world.world).1]).getD
    s.world.sessions.length s.world.sessions.length = (lab.openSession slot s.world.world).1
  simp [List.getD]

theorem converse_watched {k n : Nat} {x : EStateM Failure (Conversation (Watched σ)) α}
    {y : EStateM Failure (Conversation σ) α}
    (h : Mirrors unwatchedTalk (KnownAs k n) x y fun a b c => a = b ∧ KnownAs k n c) :
    Mirrors unwatched (fun s => KnownAs k n ⟨s.world, 0⟩) (converse x) (converse y)
      fun a b _ => a = b ∧ True where
  ok hk hs := by
    obtain ⟨c, hc, rfl⟩ := converse_eq_ok_iff.mp hs
    obtain ⟨b, hb, rfl, -⟩ := h.ok hk hc
    exact ⟨_, converse_eq_ok_iff.mpr ⟨_, hb, rfl⟩, rfl, trivial⟩
  error hk hs := by
    obtain ⟨c, hc, rfl⟩ := converse_eq_error_iff.mp hs
    exact converse_eq_error_iff.mpr ⟨_, h.error hk hc, rfl⟩

theorem measure_watched (repaired : RepairResult) :
    MirrorsRun (measure lab.watched slot parents repaired) (measure lab slot parents repaired) := by
  have hexperiment : MirrorsRun (outsideExcept (lab.watched.experiment slot))
      (outsideExcept (lab.experiment slot)) := by
    refine .of_step fun s _ => ?_
    have hcall : lab.watched.experiment slot s.world = ((lab.experiment slot s.world.world).1,
      s.world.note slot (.measured (lab.experiment slot s.world.world).1)
        (lab.experiment slot s.world.world).2) := rfl
    have hworld : (unwatched s).world = s.world.world := rfl
    rw [outsideExcept, outsideExcept, hcall, hworld]
    rcases lab.experiment slot s.world.world with ⟨_ | _, w⟩
    · exact .inr ⟨_, _, rfl, rfl⟩
    · exact .inl ⟨_, _, _, rfl, rfl, rfl, trivial⟩
  unfold measure
  split
  · exact hexperiment.bind_eq fun _ => .pure fun _ _ => ⟨rfl, trivial⟩
  · exact .pure fun _ _ => ⟨rfl, trivial⟩

theorem runSlot_watched :
    MirrorsRun (runSlot lab.watched settings slot parents) (runSlot lab settings slot parents) := by
  rw [runSlot_eq, runSlot_eq]
  refine firstPrompt_watched.bind_eq fun prompt => ?_
  refine openSession_watched.bind fun k n => ?_
  exact (converse_watched (talk_watched prompt)).bind_eq measure_watched

variable {runId now : String}

theorem parentsFor_watched (iter : Nat) :
    MirrorsRun (parentsFor runId settings iter none : Run (Watched σ) _)
      (parentsFor runId settings iter none : Run σ _) := by
  refine .of_step fun s _ => ?_
  have hfor : (parentsFor runId settings iter none : Run (Watched σ) _) s = _ :=
    parentsFor_apply fun p hp => nomatch hp
  have hfor' : (parentsFor runId settings iter none : Run σ _) (unwatched s) = _ :=
    parentsFor_apply fun p hp => nomatch hp
  have hledger : (unwatched s).ledger = s.ledger := rfl
  rw [hledger] at hfor'
  cases hparents : parentsAt s.ledger runId settings iter with
  | ok parents =>
    rw [hparents] at hfor hfor'
    exact .inl ⟨_, _, _, hfor, hfor', rfl, trivial⟩
  | error e =>
    rw [hparents] at hfor hfor'
    exact .inr ⟨_, _, hfor, hfor'⟩

theorem record_watched (bound : Nat) (c : Candidate) :
    MirrorsRun (record runId now bound c : Run (Watched σ) _)
      (record runId now bound c : Run σ _) := by
  refine .of_step fun s _ => ?_
  have hledger : (unwatched s).ledger = s.ledger := rfl
  rw [record, record, hledger]
  cases c.flaw? bound with
  | some flaw => exact .inr ⟨_, _, rfl, rfl⟩
  | none =>
    cases s.ledger.insert runId now c with
    | error e => exact .inr ⟨_, _, rfl, rfl⟩
    | ok r => exact .inl ⟨_, _, _, rfl, rfl, rfl, trivial⟩

theorem visit_watched (slot : Slot) :
    MirrorsRun (visit lab.watched runId now settings slot) (visit lab runId now settings slot) := by
  have hget : Mirrors unwatched (fun _ => True) (get : Run (Watched σ) _) (get : Run σ _)
      fun s t _ => t = unwatched s ∧ True := .of_step fun s _ =>
    .inl ⟨s, unwatched s, s, rfl, rfl, rfl, trivial⟩
  unfold visit
  refine hget.bind_rel fun s t hst => ?_
  subst hst
  change Mirrors _ _ (if s.ledger.holds runId slot.iter slot.sample then _ else _)
    (if s.ledger.holds runId slot.iter slot.sample then _ else _) _
  split
  · exact .pure fun _ _ => ⟨rfl, trivial⟩
  · refine (parentsFor_watched slot.iter).bind_eq fun parents => ?_
    refine runSlot_watched.bind_eq fun c => ?_
    exact (record_watched settings.buildAttempts c).bind_eq fun _ =>
      .pure fun _ _ => ⟨rfl, trivial⟩

theorem visitAll_watched (xs : List Slot) (summary : Summary) :
    MirrorsRun (visitAll lab.watched runId now settings xs summary)
      (visitAll lab runId now settings xs summary) := by
  induction xs generalizing summary with
  | nil => exact .pure fun _ _ => ⟨rfl, trivial⟩
  | cons slot rest ih =>
    exact (visit_watched slot).bind_eq fun c? => ih (summary.count c?)

end Work

/-! ## A whole call -/

section Calls

variable (lab : Laboratory σ) (runId now : String) (settings : Settings) (start stop : Nat)
  (checkout : Option Checkout) (s : State σ)

/-- The calls of its laboratory that a call of `evolve` makes, in order, whether it succeeds or
fails. -/
def callsOf : List Noted :=
  (finalState (evolve lab.watched runId now settings start stop checkout)
    ⟨s.ledger, .start s.world⟩).world.calls

/-- **Watching changes nothing.** -/
theorem evolve_watched :
    MirrorsRun (evolve lab.watched runId now settings start stop checkout)
      (evolve lab runId now settings start stop checkout) := by
  have hnote : noteOf lab.watched runId settings start stop checkout
      = noteOf lab runId settings start stop checkout := rfl
  refine .of_step fun s _ => ?_
  have hledger : (unwatched s).ledger = s.ledger := rfl
  rw [evolve_eq, evolve_eq, hnote, hledger]
  cases s.ledger.recordInvocation (noteOf lab runId settings start stop checkout) with
  | error e => exact .inr ⟨_, _, rfl, rfl⟩
  | ok l =>
    have hall : MirrorsRun
        (visitAll lab.watched runId now settings (slots start stop settings.samples) (.start runId))
        (visitAll lab runId now settings (slots start stop settings.samples) (.start runId)) :=
      visitAll_watched _ _
    cases hr : visitAll lab.watched runId now settings (slots start stop settings.samples)
        (.start runId) { s with ledger := l } with
    | error e s' => exact .inr ⟨_, _, hr, hall.error trivial hr⟩
    | ok summary s' =>
      obtain ⟨_, hb, rfl, -⟩ := hall.ok trivial hr
      exact .inl ⟨_, _, _, hr, hb, rfl, trivial⟩

end Calls

end Evolution

end HeuristicEvolution

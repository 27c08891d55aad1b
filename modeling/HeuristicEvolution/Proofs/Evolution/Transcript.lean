import HeuristicEvolution.Proofs.Evolution.Watching

/-!
# The calls for one slot

The work on a slot asks for a first prompt, opens a session, and then talks in this session: a
prompt is sent until it is answered, the code of the reply is built, and if the build fails the
next prompt is sent. This module says which sequences of calls that makes, `SlotCalls`, and that
no others occur, however the work ends (`runSlot_slotCalls`).

## Turns

Most turns of a conversation are fruitless: nothing is answered, there is no code in the answer,
or its build fails. At most one turn bears fruit. It is the last one: its code is built, the build
is measured, and the record repeats what came of it. So the calls of a conversation are fruitless
turns and possibly one more, and each part of the work is described by what it adds to the calls
before it (`Notes`).

## Main definitions

* `Fruitless`, `Talked`, `SlotCalls`: the calls of some turns, of a conversation, of a slot.
* `Candidate.Reports`: a record repeats what came of a build.
* `Evolution.Notes`: steps that note calls for a slot.

## Main results

* `Evolution.runSlot_slotCalls`
-/

namespace HeuristicEvolution

/-- The calls are made for the slot. -/
def marked (slot : Slot) (xs : List LabCall) : List Noted := xs.map (Prod.mk slot)

theorem marked_append (slot : Slot) (xs ys : List LabCall) :
    marked slot (xs ++ ys) = marked slot xs ++ marked slot ys := List.map_append

/-- The build came to its end, and succeeded. -/
def Succeeds (answer : Except Failure BuildResult) : Prop :=
  ∃ result, answer = .ok result ∧ result.success = true

/-! ## Sequences of calls -/

section Sequences

variable {codes? : Option (List String)} {session : Nat} {c? : Option Candidate}
  {xs ys calls : List LabCall}

/-- Turns of a session in which nothing was built with success. -/
inductive Fruitless (session : Nat) : List LabCall → Prop
  | nil : Fruitless session []
  /-- Nothing was built. -/
  | asked (prompt : String) (answer : Exchange) {xs : List LabCall} : Fruitless session xs →
      Fruitless session (.asked session prompt answer :: xs)
  /-- The code of the answer was built in vain. -/
  | built (prompt text : String) (usage : Usage) {code : String}
      {answer : Except Failure BuildResult} {xs : List LabCall} :
      (Response.ofReply text usage).primaryCode = some code → ¬ Succeeds answer →
      Fruitless session xs →
      Fruitless session (.asked session prompt (.reply text usage) :: .built code answer :: xs)

theorem Fruitless.append (hxs : Fruitless session xs) (hys : Fruitless session ys) :
    Fruitless session (xs ++ ys) := by
  induction hxs with
  | nil => exact hys
  | asked prompt answer _ ih => exact .asked prompt answer ih
  | built prompt text usage hcode hanswer _ ih => exact .built prompt text usage hcode hanswer ih

/-- The turn that bears fruit: the code of an answer is built with success. -/
inductive Fruitful (session : Nat) (code : String) : List LabCall → Prop
  | built (prompt text : String) (usage : Usage) {answer : Except Failure BuildResult} :
      (Response.ofReply text usage).primaryCode = some code → Succeeds answer →
      Fruitful session code [.asked session prompt (.reply text usage), .built code answer]

/-- The record holds the code that was built, and the outcome of the experiment. -/
structure Candidate.Reports (c : Candidate) (code : String) (answer : Except Failure Outcome) :
    Prop where
  buildStatus_eq : c.buildStatus = some true
  finalCode_eq : c.finalCode = some code
  outcome : ∃ outcome, answer = .ok outcome ∧ c.execStatus = some outcome.executed ∧
    c.results = some outcome.results ∧ c.logs = some outcome.logs

/-- The calls of a conversation, up to the experiment on what was built, and the record that was
made of it, if one was made. -/
inductive Talked (session : Nat) (c? : Option Candidate) : List LabCall → Prop
  | unbuilt {xs : List LabCall} : Fruitless session xs → (∀ c ∈ c?, c.buildStatus = some false) →
      Talked session c? xs
  | measured {xs turn : List LabCall} {code : String} {answer : Except Failure Outcome} :
      Fruitless session xs → Fruitful session code turn → (∀ c ∈ c?, c.Reports code answer) →
      Talked session c? (xs ++ turn ++ [.measured answer])

/-- Work that is not recorded says nothing about a record. -/
theorem Talked.unrecorded (h : Talked session c? xs) : Talked session none xs := by
  cases h with
  | unbuilt hxs _ => exact .unbuilt hxs fun _ hc => nomatch hc
  | measured hxs hturn _ => exact .measured hxs hturn fun _ hc => nomatch hc

/-- The call that asks for the first prompt of a slot, which shows the codes of its parents if it
has any. -/
def LabCall.firstPrompt : Option (List String) → String → LabCall
  | none => .initialPrompt
  | some codes => .mutationPrompt codes

/-- The calls for a slot, and the record that was made, if one was made. The first prompt is what
the session is opened with. -/
def SlotCalls (codes? : Option (List String)) (session : Nat) (c? : Option Candidate)
    (calls : List LabCall) : Prop :=
  ∃ prompt answer xs, calls = .firstPrompt codes? prompt :: .opened session ::
      .asked session prompt answer :: xs ∧
    Talked session c? (.asked session prompt answer :: xs)

/-- The call belongs to a conversation in the session. -/
def LabCall.InSession (session : Nat) : LabCall → Prop
  | .asked k _ _ => k = session
  | .built _ _ | .measured _ => True
  | _ => False

/-- A first prompt is asked for, a session is opened, and its first request is this prompt. All
other calls are requests in this session, builds and experiments. -/
def OneSession (codes? : Option (List String)) (session : Nat) (calls : List LabCall) : Prop :=
  ∃ prompt answer rest, calls = .firstPrompt codes? prompt :: .opened session ::
      .asked session prompt answer :: rest ∧
    ∀ call ∈ rest, call.InSession session

theorem Fruitless.inSession (h : Fruitless session xs) :
    ∀ call ∈ xs, call.InSession session := by
  induction h with
  | nil => simp
  | asked prompt answer _ ih => exact List.forall_mem_cons.mpr ⟨rfl, ih⟩
  | built prompt text usage _ _ _ ih =>
    exact List.forall_mem_cons.mpr ⟨rfl, List.forall_mem_cons.mpr ⟨trivial, ih⟩⟩

theorem Talked.inSession (h : Talked session c? xs) :
    ∀ call ∈ xs, call.InSession session := by
  cases h with
  | unbuilt hxs _ => exact hxs.inSession
  | measured hxs hturn _ =>
    cases hturn with
    | built prompt text usage _ _ =>
      intro call hcall
      simp only [List.append_assoc, List.mem_append, List.mem_cons, List.not_mem_nil, or_false]
        at hcall
      rcases hcall with hcall | (rfl | rfl) | rfl
      · exact hxs.inSession call hcall
      · rfl
      · trivial
      · trivial

theorem SlotCalls.oneSession (h : SlotCalls codes? session c? calls) :
    OneSession codes? session calls := by
  obtain ⟨prompt, answer, xs, rfl, htalked⟩ := h
  exact ⟨prompt, answer, xs, rfl, fun call hcall =>
    htalked.inSession call (List.mem_cons_of_mem _ hcall)⟩

/-- There is no session among the calls but the one around which they are made. -/
theorem OneSession.eq_of_opened {k : Nat} (h : OneSession codes? session calls)
    (hk : .opened k ∈ calls) : k = session := by
  obtain ⟨prompt, answer, rest, rfl, hrest⟩ := h
  have hprompt : LabCall.opened k ≠ .firstPrompt codes? prompt := by cases codes? <;> exact nofun
  simp only [List.mem_cons, hprompt, LabCall.opened.injEq, reduceCtorEq, false_or] at hk
  rcases hk with rfl | hk
  · rfl
  · exact (hrest _ hk).elim

end Sequences

/-! ## Steps that note calls -/

/-- From `w` to `w'` the calls `xs` were noted for the slot, and no session was opened. -/
structure Watched.Adds {σ : Type} (slot : Slot) (xs : List LabCall) (w w' : Watched σ) : Prop where
  sessions_eq : w'.sessions = w.sessions
  calls_eq : w'.calls = w.calls ++ marked slot xs

namespace Watched.Adds

variable {σ : Type} {slot : Slot} {xs ys : List LabCall} {w w' w'' : Watched σ}

theorem refl (w : Watched σ) : w.Adds slot [] w := ⟨rfl, by simp [marked]⟩

theorem trans (h : w.Adds slot xs w') (h' : w'.Adds slot ys w'') : w.Adds slot (xs ++ ys) w'' :=
  ⟨h'.sessions_eq.trans h.sessions_eq, by
    rw [h'.calls_eq, h.calls_eq, marked_append, List.append_assoc]⟩

theorem note (w : Watched σ) (call : LabCall) (world : σ) :
    w.Adds slot [call] (w.note slot call world) := ⟨rfl, rfl⟩

end Watched.Adds

namespace Evolution

section Notes

variable {σ τ α β : Type}

/-- The steps note calls for the slot: if they succeed with `a`, calls `xs` with `P a xs`, and if
they fail, calls `xs` with `Q xs`. -/
structure Notes (view : τ → Watched σ) (slot : Slot) (x : EStateM Failure τ α)
    (P : α → List LabCall → Prop) (Q : List LabCall → Prop) : Prop where
  ok : ∀ {s a s'}, x s = .ok a s' → ∃ xs, (view s).Adds slot xs (view s') ∧ P a xs
  error : ∀ {s e s'}, x s = .error e s' → ∃ xs, (view s).Adds slot xs (view s') ∧ Q xs

namespace Notes

variable {view : τ → Watched σ} {slot : Slot} {x : EStateM Failure τ α}
  {P : α → List LabCall → Prop} {Q : List LabCall → Prop}

theorem pure {a : α} (h : P a []) :
    Notes view slot (Pure.pure a : EStateM Failure τ α) P Q where
  ok hs := by
    obtain ⟨rfl, rfl⟩ := EStateM.Result.ok.inj hs
    exact ⟨[], .refl _, h⟩
  error hs := nomatch hs

theorem imp {P' : α → List LabCall → Prop} {Q' : List LabCall → Prop}
    (h : Notes view slot x P Q) (hP : ∀ a xs, P a xs → P' a xs) (hQ : ∀ xs, Q xs → Q' xs) :
    Notes view slot x P' Q' where
  ok hs := by
    obtain ⟨xs, hadds, hxs⟩ := h.ok hs
    exact ⟨xs, hadds, hP _ xs hxs⟩
  error hs := by
    obtain ⟨xs, hadds, hxs⟩ := h.error hs
    exact ⟨xs, hadds, hQ xs hxs⟩

/-- A single step. -/
theorem of_step (h : ∀ s,
    (∃ a s' xs, x s = .ok a s' ∧ (view s).Adds slot xs (view s') ∧ P a xs) ∨
      ∃ e s' xs, x s = .error e s' ∧ (view s).Adds slot xs (view s') ∧ Q xs) :
    Notes view slot x P Q where
  ok {s a s'} hs := by
    rcases h s with ⟨b, t, xs, hok, hadds, hP⟩ | ⟨e, t, xs, herror, -⟩
    · obtain ⟨rfl, rfl⟩ := EStateM.Result.ok.inj (hok.symm.trans hs)
      exact ⟨xs, hadds, hP⟩
    · exact nomatch herror.symm.trans hs
  error {s e s'} hs := by
    rcases h s with ⟨b, t, xs, hok, -⟩ | ⟨e', t, xs, herror, hadds, hQ⟩
    · exact nomatch hok.symm.trans hs
    · obtain ⟨rfl, rfl⟩ := EStateM.Result.error.inj (herror.symm.trans hs)
      exact ⟨xs, hadds, hQ⟩

/-- What is noted in the first steps is noted before what is noted in the others. -/
theorem bind {f : α → EStateM Failure τ β} {P' : β → List LabCall → Prop}
    {Q' : List LabCall → Prop} (hx : Notes view slot x P Q)
    (hf : ∀ a xs, P a xs →
      Notes view slot (f a) (fun b ys => P' b (xs ++ ys)) fun ys => Q' (xs ++ ys))
    (hQ : ∀ xs, Q xs → Q' xs) : Notes view slot (x >>= f) P' Q' where
  ok hs := by
    obtain ⟨a, t, ha, hb⟩ := bind_eq_ok_iff.mp hs
    obtain ⟨xs, hadds, hP⟩ := hx.ok ha
    obtain ⟨ys, hmore, hP'⟩ := (hf a xs hP).ok hb
    exact ⟨xs ++ ys, hadds.trans hmore, hP'⟩
  error hs := by
    rcases bind_eq_error_iff.mp hs with ha | ⟨a, t, ha, hb⟩
    · obtain ⟨xs, hadds, hfail⟩ := hx.error ha
      exact ⟨xs, hadds, hQ xs hfail⟩
    · obtain ⟨xs, hadds, hP⟩ := hx.ok ha
      obtain ⟨ys, hmore, hQ'⟩ := (hf a xs hP).error hb
      exact ⟨xs ++ ys, hadds.trans hmore, hQ'⟩

end Notes

variable {lab : Laboratory σ} {settings : Settings} {slot : Slot} {k : Nat}

/-- The calls of a conversation up to the build that ends it, as far as the result tells. -/
def Told (session : Nat) (r : RepairResult) (calls : List LabCall) : Prop :=
  (r.built = false ∧ Fruitless session calls) ∨
    (r.built = true ∧ ∃ xs turn code, calls = xs ++ turn ∧ Fruitless session xs ∧
      Fruitful session code turn ∧ r.finalCode = some code)

theorem Told.append {r : RepairResult} {xs ys : List LabCall} (hxs : Fruitless k xs)
    (h : Told k r ys) : Told k r (xs ++ ys) := by
  rcases h with ⟨hbuilt, hys⟩ | ⟨hbuilt, zs, turn, code, rfl, hzs, hturn, hcode⟩
  · exact .inl ⟨hbuilt, hxs.append hys⟩
  · exact .inr ⟨hbuilt, xs ++ zs, turn, code, by rw [List.append_assoc], hxs.append hzs, hturn,
      hcode⟩

/-- The calls begin with a request for the prompt. -/
def Opens (session : Nat) (prompt : String) (calls : List LabCall) : Prop :=
  ∃ answer xs, calls = .asked session prompt answer :: xs

theorem Opens.append {prompt : String} {xs : List LabCall} (h : Opens k prompt xs)
    (ys : List LabCall) : Opens k prompt (xs ++ ys) := by
  obtain ⟨answer, zs, rfl⟩ := h
  exact ⟨answer, zs ++ ys, rfl⟩

/-- The calls for a prompt that is sent until it is answered, and what comes of them. -/
inductive Replied (session : Nat) (prompt : String) :
    Except String (String × Usage) → List LabCall → Prop
  | answered {xs : List LabCall} (text : String) (usage : Usage) : Fruitless session xs →
      Replied session prompt (.ok (text, usage))
        (xs ++ [.asked session prompt (.reply text usage)])
  | failed {xs : List LabCall} (fault : String) : Fruitless session xs →
      Replied session prompt (.error fault) xs

/-- The prompt was sent once before. -/
theorem Replied.cons {prompt : String} {r : Except String (String × Usage)} {xs : List LabCall}
    (h : Replied k prompt r xs) (answer : Exchange) :
    Replied k prompt r (.asked k prompt answer :: xs) := by
  cases h with
  | answered text usage hxs => exact .answered text usage (.asked prompt answer hxs)
  | failed fault hxs => exact .failed fault (.asked prompt answer hxs)

theorem request_notes (lab : Laboratory σ) (slot : Slot) (k : Nat) (policy : Policy)
    (prompt : String) (retries : Nat) (w : Watched σ) :
    ∃ xs, w.Adds slot xs (Conversation.request (lab.watched.ask slot k) policy prompt retries w).2 ∧
      Opens k prompt xs ∧
      Replied k prompt (Conversation.request (lab.watched.ask slot k) policy prompt retries w).1
        xs := by
  have hask : ∀ w : Watched σ, ∃ answer world,
      lab.watched.ask slot k prompt w = (answer, w.note slot (.asked k prompt answer) world) :=
    fun w => ⟨_, _, rfl⟩
  induction retries generalizing w with
  | zero =>
    obtain ⟨answer, world, hw⟩ := hask w
    rw [Conversation.request, hw]
    refine ⟨[.asked k prompt answer], ?_⟩
    cases answer with
    | reply text usage => exact ⟨.note w _ world, ⟨_, [], rfl⟩, .answered text usage .nil⟩
    | failed e => exact ⟨.note w _ world, ⟨_, [], rfl⟩, .failed _ (.asked prompt _ .nil)⟩
    | silent => exact ⟨.note w _ world, ⟨_, [], rfl⟩, .failed _ (.asked prompt _ .nil)⟩
  | succ retries ih =>
    obtain ⟨answer, world, hw⟩ := hask w
    obtain ⟨xs, hadds, -, hreplied⟩ := ih (w.note slot (.asked k prompt answer) world)
    have hmore := (Watched.Adds.note w (.asked k prompt answer) world).trans hadds
    rw [Conversation.request, hw]
    cases answer with
    | reply text usage =>
      exact ⟨[_], .note w _ world, ⟨_, [], rfl⟩, .answered text usage .nil⟩
    | failed e => exact ⟨_, hmore, ⟨_, xs, rfl⟩, hreplied.cons _⟩
    | silent => exact ⟨_, hmore, ⟨_, xs, rfl⟩, hreplied.cons _⟩

theorem send_notes (policy : Policy) (prompt : String) :
    Notes Conversation.world slot (Conversation.send (lab.watched.ask slot k) policy prompt)
      (fun response calls => Opens k prompt calls ∧ ∃ text usage xs,
        response = .ofReply text usage ∧ Fruitless k xs ∧
          calls = xs ++ [.asked k prompt (.reply text usage)])
      fun calls => Opens k prompt calls ∧ Fruitless k calls := by
  refine .of_step fun c => ?_
  obtain ⟨calls, hadds, hopens, hreplied⟩ :=
    request_notes lab slot k policy prompt policy.retries c.world
  rw [Conversation.send]
  generalize Conversation.request (lab.watched.ask slot k) policy prompt policy.retries c.world
    = result at hadds hreplied
  obtain ⟨reply, w⟩ := result
  cases hreplied with
  | answered text usage hxs =>
    exact .inl ⟨_, _, _, rfl, hadds, hopens, text, usage, _, rfl, hxs, rfl⟩
  | failed fault hxs => exact .inr ⟨_, _, _, rfl, hadds, hopens, hxs⟩

theorem buildStep_notes (code : String) :
    Notes Conversation.world slot (Repair.buildStep (tools lab.watched settings slot k) code)
      (fun result calls => calls = [.built code (.ok result)])
      fun calls => ∃ e, calls = [.built code (.error e)] := by
  refine .of_step fun c => ?_
  obtain ⟨answer, world, hbuild⟩ : ∃ answer world,
      (tools lab.watched settings slot k).build code c.world =
        (answer, c.world.note slot (.built code answer) world) := ⟨_, _, rfl⟩
  rw [Repair.buildStep, hbuild]
  cases answer with
  | ok result => exact .inl ⟨_, _, _, rfl, .note c.world _ world, rfl⟩
  | error e => exact .inr ⟨_, _, _, rfl, .note c.world _ world, e, rfl⟩

section Cycle

variable (prompt text : String) (usage : Usage)

/-- An attempt ends the turn that its reply began. -/
theorem attempt_notes (number : Nat) (next : String) :
    Notes Conversation.world slot
      (Repair.attempt (tools lab.watched settings slot k) number next (.ofReply text usage))
      (fun v calls =>
        (v.1.built = false ∧ Fruitless k (.asked k prompt (.reply text usage) :: calls)) ∨
          (v.1.built = true ∧ ∃ code, v.2.1 = some code ∧
            Fruitful k code (.asked k prompt (.reply text usage) :: calls)))
      fun calls => Fruitless k (.asked k prompt (.reply text usage) :: calls) := by
  unfold Repair.attempt
  cases hcode : (Response.ofReply text usage).primaryCode with
  | none => exact .pure (.inl ⟨rfl, .asked prompt _ .nil⟩)
  | some code =>
    refine (buildStep_notes code).bind (fun result calls hcalls => .pure ?_) fun calls hcalls => ?_
    · subst hcalls
      cases hbuilt : result.success with
      | false =>
        have hvain : ¬ Succeeds (.ok result) := by simp [Succeeds, hbuilt]
        exact .inl ⟨rfl, .built prompt text usage hcode hvain .nil⟩
      | true =>
        have hgood : Succeeds (.ok result) := ⟨result, rfl, hbuilt⟩
        exact .inr ⟨rfl, code, rfl, .built prompt text usage hcode hgood⟩
    · obtain ⟨e, rfl⟩ := hcalls
      have hvain : ¬ Succeeds (.error e) := by simp [Succeeds]
      exact .built prompt text usage hcode hvain .nil

/-- A cycle goes on from the reply with which the calls so far end. -/
theorem cycle_notes (left number : Nat) (earlier : Option String) (next : String) :
    Notes Conversation.world slot
      (Repair.cycle (tools lab.watched settings slot k) left number earlier next
        (.ofReply text usage))
      (fun r calls => Told k r (.asked k prompt (.reply text usage) :: calls))
      fun calls => Fruitless k (.asked k prompt (.reply text usage) :: calls) := by
  induction left generalizing number earlier prompt text usage next with
  | zero => exact .pure (.inl ⟨rfl, .asked prompt _ .nil⟩)
  | succ left ih =>
    rw [Repair.cycle]
    refine (attempt_notes prompt text usage number next).bind (fun result turn hturn => ?_)
      fun _ => id
    obtain ⟨v, code?, next'⟩ := result
    simp only at hturn ⊢
    rcases hturn with ⟨hbuilt, hvain⟩ | ⟨hbuilt, code, rfl, hfruit⟩
    · rw [hbuilt]
      split
      · exact .pure (.inl ⟨rfl, by simpa using hvain⟩)
      · -- the turn was in vain, and another prompt is sent
        refine (send_notes settings.policy next').bind (fun reply calls hreply => ?_)
          fun calls h => ?_
        · obtain ⟨-, text', usage', xs, rfl, hxs, rfl⟩ := hreply
          refine (ih next' text' usage' (number + 1) _ next').bind (fun rest ys hrest => .pure ?_)
            fun ys hys => ?_
          · change Told k rest _
            simpa using (hrest.append hxs).append hvain
          · simpa using hvain.append (hxs.append hys)
        · exact hvain.append h.2
    · rw [hbuilt, Bool.true_or, if_pos rfl]
      exact .pure (.inr ⟨rfl, [], _, code, by simp, .nil, hfruit, rfl⟩)

end Cycle

theorem talk_notes (prompt : String) :
    Notes Conversation.world slot (talk lab.watched settings slot k prompt)
      (fun r calls => Opens k prompt calls ∧ Told k r calls)
      fun calls => Opens k prompt calls ∧ Fruitless k calls := by
  refine (send_notes settings.policy prompt).bind (fun response calls h => ?_) fun _ => id
  obtain ⟨hopens, text, usage, xs, rfl, hxs, rfl⟩ := h
  refine (cycle_notes prompt text usage settings.buildAttempts 0 none prompt).imp
    (fun r ys hys => ⟨hopens.append ys, ?_⟩) fun ys hys => ⟨hopens.append ys, ?_⟩
  · simpa using hys.append hxs
  · simpa using hxs.append hys

/-- The steps of a conversation note what they note when it is held in a call. -/
theorem Notes.converse {x : EStateM Failure (Conversation (Watched σ)) α}
    {P : α → List LabCall → Prop} {Q : List LabCall → Prop}
    (h : Notes Conversation.world slot x P Q) :
    Notes State.world slot (Evolution.converse x) P Q where
  ok hs := by
    obtain ⟨c, hc, rfl⟩ := converse_eq_ok_iff.mp hs
    exact h.ok hc
  error hs := by
    obtain ⟨c, hc, rfl⟩ := converse_eq_error_iff.mp hs
    exact h.error hc

/-- What was built is measured, and nothing else. -/
theorem measure_notes {parents : Option Parents} {r : RepairResult} {calls : List LabCall}
    (h : Told k r calls) :
    Notes State.world slot (measure lab.watched slot parents r)
      (fun c xs => Talked k (some c) (calls ++ xs)) fun xs => Talked k none (calls ++ xs) := by
  unfold measure
  rcases h with ⟨hbuilt, hvain⟩ | ⟨hbuilt, xs, turn, code, rfl, hxs, hturn, hcode⟩
  · rw [hbuilt, if_neg Bool.false_ne_true]
    refine .pure (.unbuilt (by simpa using hvain) ?_)
    simp [unmeasured, hbuilt]
  · rw [hbuilt, if_pos rfl]
    refine Notes.bind (P := fun outcome ys => ys = [.measured (.ok outcome)])
      (Q := fun ys => ∃ e, ys = [.measured (.error e)]) (.of_step fun s => ?_)
      (fun outcome ys hys => .pure ?_) fun ys hys => ?_
    · obtain ⟨answer, world, hcall⟩ : ∃ answer world, lab.watched.experiment slot s.world =
          (answer, s.world.note slot (.measured answer) world) := ⟨_, _, rfl⟩
      rw [outsideExcept, hcall]
      cases answer with
      | ok outcome => exact .inl ⟨_, _, _, rfl, .note s.world _ world, rfl⟩
      | error e => exact .inr ⟨_, _, _, rfl, .note s.world _ world, e, rfl⟩
    · subst hys
      refine .measured hxs hturn fun c hc => ?_
      obtain rfl := Option.mem_some_iff.mp hc
      exact ⟨by simp [measured, unmeasured, hbuilt], hcode, outcome, rfl, rfl, rfl, rfl⟩
    · obtain ⟨e, rfl⟩ := hys
      exact .measured hxs hturn fun c hc => absurd hc (Option.not_mem_none c)

/-- A conversation, and the experiment on what it came to. -/
theorem talk_measure_notes (lab : Laboratory σ) (settings : Settings) (slot : Slot) (k : Nat)
    (parents : Option Parents) (prompt : String) :
    Notes State.world slot
      (converse (talk lab.watched settings slot k prompt) >>= measure lab.watched slot parents)
      (fun c calls => Opens k prompt calls ∧ Talked k (some c) calls)
      fun calls => Opens k prompt calls ∧ Talked k none calls :=
  (talk_notes prompt).converse.bind
    (fun _ _ h => (measure_notes h.2).imp
      (fun _ _ hxs => ⟨h.1.append _, hxs⟩) fun _ hxs => ⟨h.1.append _, hxs⟩)
    fun _ h => ⟨h.1, .unbuilt h.2 fun _ hc => nomatch hc⟩

/-! ## The work on a slot -/

/-- From `w` to `w'` the calls for one slot were noted, in the next session. -/
structure Worked (slot : Slot) (codes? : Option (List String)) (c? : Option Candidate)
    (calls : List LabCall) (w w' : Watched σ) : Prop where
  sessions_length : w'.sessions.length = w.sessions.length + 1
  calls_eq : w'.calls = w.calls ++ marked slot calls
  slotCalls : SlotCalls codes? w.sessions.length c? calls

/-- What is noted for a slot in a session that is open completes the calls for it. -/
theorem worked_of_adds {codes? : Option (List String)} {prompt : String} {c? : Option Candidate}
    {xs : List LabCall} {w w₂ w' : Watched σ}
    (hsessions : w₂.sessions.length = w.sessions.length + 1)
    (hcalls : w₂.calls = w.calls ++
      marked slot [.firstPrompt codes? prompt, .opened w.sessions.length])
    (hadds : w₂.Adds slot xs w') (hopens : Opens w.sessions.length prompt xs)
    (htalked : Talked w.sessions.length c? xs) : ∃ calls, Worked slot codes? c? calls w w' := by
  obtain ⟨answer, ys, rfl⟩ := hopens
  refine ⟨_, ?_, ?_, prompt, answer, ys, rfl, htalked⟩
  · rw [hadds.sessions_eq, hsessions]
  · rw [hadds.calls_eq, hcalls, List.append_assoc, ← marked_append]
    rfl

/-- **The calls for a slot** in a laboratory that is watched, whether its record is made or the
work on it fails. -/
theorem runSlot_worked (parents : Option Parents) (s : State (Watched σ)) :
    (∀ {c s'}, runSlot lab.watched settings slot parents s = .ok c s' →
      ∃ calls, Worked slot (parents.map Parents.codes) (some c) calls s.world s'.world) ∧
    ∀ {e s'}, runSlot lab.watched settings slot parents s = .error e s' →
      ∃ calls, Worked slot (parents.map Parents.codes) none calls s.world s'.world := by
  generalize hcodes : parents.map Parents.codes = codes?
  obtain ⟨prompt, world, hprompt⟩ : ∃ prompt world, firstPrompt lab.watched slot parents s =
      .ok prompt { s with world := s.world.note slot (.firstPrompt codes? prompt) world } := by
    subst hcodes
    cases parents <;> exact ⟨_, _, rfl⟩
  obtain ⟨t, hopen, hsessions, hcalls⟩ : ∃ t, outside (lab.watched.openSession slot)
      { s with world := s.world.note slot (.firstPrompt codes? prompt) world } =
        .ok s.world.sessions.length t ∧
      t.world.sessions.length = s.world.sessions.length + 1 ∧
      t.world.calls = s.world.calls ++
        marked slot [.firstPrompt codes? prompt, .opened s.world.sessions.length] := by
    refine ⟨_, rfl, ?_, ?_⟩
    · simp [Laboratory.watched, Watched.note]
    · simp [Laboratory.watched, Watched.note, marked]
  rw [runSlot_eq, bind_of_ok hprompt, bind_of_ok hopen]
  have hrest := talk_measure_notes lab settings slot s.world.sessions.length parents prompt
  constructor
  · intro c s' h
    obtain ⟨xs, hadds, hopens, htalked⟩ := hrest.ok h
    exact worked_of_adds hsessions hcalls hadds hopens htalked
  · intro e s' h
    obtain ⟨xs, hadds, hopens, htalked⟩ := hrest.error h
    exact worked_of_adds hsessions hcalls hadds hopens htalked

end Notes

end Evolution

end HeuristicEvolution

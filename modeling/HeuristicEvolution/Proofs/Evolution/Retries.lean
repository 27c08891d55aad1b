import HeuristicEvolution.Evolution.Scripted
import HeuristicEvolution.Proofs.Evolution.Attempts
import Mathlib

/-!
# Retries

A prompt is sent until a reply comes or the tries are used up. Here the world outside is anything
that can be asked, and what comes of a prompt that is sent again and again is a sequence, of which
only the beginning is ever looked at. How much of it is looked at depends on one number, the
position of the first reply, and on the retries that the policy allows. The position may be
infinite, and then all tries are used up.

The world is wrapped so that each request is noted with the number of its session. A request of
another session, a prompt that was changed on the way, and one request too many would all be seen
in the notes.

## Main definitions

* `Line`, `Line.ask`: a world that notes its requests.
* `Line.outcome`: what comes of a prompt that is sent again and again.
* `Exchange.firstReply`: the position of the first reply.
* `Conversation.Event`, `Conversation.after`: a session up to some point.

## Main results

* `Conversation.request_eq`: how many requests are made, and which outcome decides.
* `Conversation.exists_sent`: how a send ends.
* `Conversation.exists_accounted`: the requests and the turns of a whole session.
* `Conversation.send_keeps_to_policy`
-/

namespace HeuristicEvolution

/-! ## The first reply -/

namespace Exchange

/-- A reply came. -/
def isReply : Exchange → Bool
  | .reply _ _ => true
  | _ => false

/-- What a caller is told: the reply, or what went wrong. -/
def verdict (policy : Policy) : Exchange → Except String (String × Usage)
  | .reply text usage => .ok (text, usage)
  | fault => .error (fault.fault policy)

theorem isReply_iff {x : Exchange} :
    x.isReply = true ↔ ∃ text usage, x = .reply text usage := by
  cases x <;> simp [isReply]

theorem verdict_of_fault {x : Exchange} (h : x.isReply = false) (policy : Policy) :
    x.verdict policy = .error (x.fault policy) := by
  cases x with
  | reply text usage => exact nomatch h
  | failed e => rfl
  | silent => rfl

variable {outcomes : ℕ → Exchange}

open Classical in
/-- The position of the first reply, counted from one, or infinity if no reply ever comes. -/
noncomputable def firstReply (outcomes : ℕ → Exchange) : ℕ∞ :=
  if h : ∃ n, (outcomes n).isReply then ((Nat.find h + 1 : ℕ) : ℕ∞) else ⊤

theorem firstReply_of_reply (h : (outcomes 0).isReply = true) : firstReply outcomes = 1 := by
  have hreply : ∃ n, (outcomes n).isReply := ⟨0, h⟩
  rw [firstReply, dif_pos hreply, (Nat.find_eq_zero hreply).mpr h]
  rfl

/-- A fault only delays the first reply. -/
theorem firstReply_of_fault (h : (outcomes 0).isReply = false) :
    firstReply outcomes = firstReply (fun n => outcomes (n + 1)) + 1 := by
  by_cases hlater : ∃ n, (outcomes (n + 1)).isReply
  · have hreply : ∃ n, (outcomes n).isReply := hlater.elim fun n hn => ⟨n + 1, hn⟩
    have hfirst : ¬ (outcomes 0).isReply = true := by simp [h]
    rw [firstReply, firstReply, dif_pos hreply, dif_pos hlater,
      Nat.find_comp_succ hreply hlater hfirst]
    push_cast
    rfl
  · have hnone : ¬ ∃ n, (outcomes n).isReply := by
      rintro ⟨n, hn⟩
      cases n with
      | zero => simp [h] at hn
      | succ n => exact hlater ⟨n, hn⟩
    rw [firstReply, firstReply, dif_neg hnone, dif_neg hlater, top_add]

theorem one_le_firstReply (outcomes : ℕ → Exchange) : 1 ≤ firstReply outcomes := by
  rw [firstReply]
  split
  · exact_mod_cast Nat.le_add_left 1 _
  · exact le_top

theorem isReply_of_firstReply {n : ℕ} (h : ((n + 1 : ℕ) : ℕ∞) = firstReply outcomes) :
    (outcomes n).isReply = true := by
  rw [firstReply] at h
  split at h
  · next hreply =>
    have hn : n = Nat.find hreply := Nat.succ.inj (Nat.cast_injective h)
    rw [hn]
    exact Nat.find_spec hreply
  · exact absurd h (ENat.natCast_ne_top _)

theorem isReply_of_lt_firstReply {n : ℕ} (h : ((n + 1 : ℕ) : ℕ∞) < firstReply outcomes) :
    (outcomes n).isReply = false := by
  rw [firstReply] at h
  split at h
  · next hreply =>
    have hlt : n < Nat.find hreply := Nat.lt_of_succ_lt_succ (Nat.cast_lt.mp h)
    exact Bool.eq_false_iff.mpr (Nat.find_min hreply hlt)
  · next hnone => exact Bool.eq_false_iff.mpr fun hn => hnone ⟨n, hn⟩

end Exchange

/-! ## Requests that are noted -/

/-- A world, and the requests that were sent into it, each with the number of its session. -/
structure Line (σ : Type) where
  world : σ
  requests : List (Nat × String)

namespace Line

variable {σ : Type} (answer : Nat → String → σ → Exchange × σ) (session : Nat) (prompt : String)

/-- One request, which is noted. -/
def ask (l : Line σ) : Exchange × Line σ :=
  ((answer session prompt l.world).1,
    ⟨(answer session prompt l.world).2, l.requests ++ [(session, prompt)]⟩)

/-- The same request, again and again. -/
def askTimes (n : ℕ) (l : Line σ) : Line σ := (fun l => (ask answer session prompt l).2)^[n] l

/-- What comes of the request after it was made `n` times. -/
def outcome (l : Line σ) (n : ℕ) : Exchange :=
  (ask answer session prompt (askTimes answer session prompt n l)).1

theorem askTimes_succ (n : ℕ) (l : Line σ) :
    askTimes answer session prompt (n + 1) l
      = askTimes answer session prompt n (ask answer session prompt l).2 := rfl

theorem outcome_succ (l : Line σ) (n : ℕ) :
    outcome answer session prompt l (n + 1)
      = outcome answer session prompt (ask answer session prompt l).2 n := rfl

theorem requests_askTimes (n : ℕ) (l : Line σ) :
    (askTimes answer session prompt n l).requests
      = l.requests ++ List.replicate n (session, prompt) := by
  induction n generalizing l with
  | zero => simp [askTimes]
  | succ n ih =>
    rw [askTimes_succ, ih, List.replicate_succ]
    simp [ask]

end Line

namespace Conversation

open Exchange Line

variable {σ : Type} (answer : Nat → String → σ → Exchange × σ) (policy : Policy) (session : Nat)

section Request

variable {answer policy session} {prompt : String} {l l' : Line σ}

theorem request_of_reply {x : Exchange} (hreply : x.isReply = true)
    (hask : ask answer session prompt l = (x, l')) (retries : ℕ) :
    request (ask answer session) policy prompt retries l = (x.verdict policy, l') := by
  cases x with
  | reply text usage =>
    cases retries with
    | zero => rw [request, hask]; rfl
    | succ retries => rw [request, hask]; rfl
  | failed e => exact nomatch hreply
  | silent => exact nomatch hreply

theorem request_of_fault {x : Exchange} (hfault : x.isReply = false)
    (hask : ask answer session prompt l = (x, l')) (retries : ℕ) :
    request (ask answer session) policy prompt retries l =
      match retries with
      | 0 => (x.verdict policy, l')
      | retries + 1 => request (ask answer session) policy prompt retries l' := by
  cases x with
  | reply text usage => exact nomatch hfault
  | failed e =>
    cases retries with
    | zero => rw [request, hask]; rfl
    | succ retries => rw [request, hask]
  | silent =>
    cases retries with
    | zero => rw [request, hask]; rfl
    | succ retries => rw [request, hask]

variable (answer policy session prompt)

/-- **How many requests are made, and which outcome decides.** The induction is on the retries that
are left, and what carries it is that a fault costs one of them and moves the first reply one step
nearer. -/
theorem request_eq (retries : ℕ) (l : Line σ) :
    ∃ n : ℕ, ((n + 1 : ℕ) : ℕ∞)
        = min (firstReply (outcome answer session prompt l)) (retries + 1) ∧
      request (ask answer session) policy prompt retries l
        = ((outcome answer session prompt l n).verdict policy,
            askTimes answer session prompt (n + 1) l) := by
  induction retries generalizing l with
  | zero =>
    refine ⟨0, ?_, ?_⟩
    · have hone := one_le_firstReply (outcome answer session prompt l)
      simpa using hone
    · cases hreply : (outcome answer session prompt l 0).isReply with
      | true => exact request_of_reply hreply rfl 0
      | false => exact request_of_fault hreply rfl 0
  | succ retries ih =>
    cases hreply : (outcome answer session prompt l 0).isReply with
    | true =>
      refine ⟨0, ?_, request_of_reply hreply rfl _⟩
      rw [firstReply_of_reply hreply]
      simp
    | false =>
      obtain ⟨n, hn, hrequest⟩ := ih (ask answer session prompt l).2
      refine ⟨n + 1, ?_, (request_of_fault hreply rfl _).trans hrequest⟩
      have hnearer : (fun n => outcome answer session prompt l (n + 1))
          = outcome answer session prompt (ask answer session prompt l).2 :=
        funext fun n => outcome_succ answer session prompt l n
      rw [firstReply_of_fault hreply, hnearer]
      push_cast at hn ⊢
      rw [min_add_add_right, ← hn]

/-- The notes change nothing. -/
theorem request_of_line (retries : ℕ) (l : Line σ) :
    request (answer session) policy prompt retries l.world
      = ((request (ask answer session) policy prompt retries l).1,
          (request (ask answer session) policy prompt retries l).2.world) := by
  induction retries generalizing l with
  | zero =>
    rw [request, request]
    rcases hanswer : answer session prompt l.world with ⟨⟨text, usage⟩ | failure | _, w⟩
    all_goals simp [ask, hanswer]
  | succ retries ih =>
    rw [request, request]
    rcases hanswer : answer session prompt l.world with ⟨⟨text, usage⟩ | failure | _, w⟩
    all_goals simp [ask, hanswer, ← ih]

end Request

/-! ## Sends -/

/-- **How a send ends.** It makes `n` requests and looks at nothing that comes after them. -/
inductive Sent (prompt : String) (c : Conversation (Line σ)) (n : ℕ) :
    EStateM.Result Failure (Conversation (Line σ)) Response → Prop
  /-- The first reply came in time, and is returned with its parts. -/
  | replied {text : String} {usage : Usage} {response : Response} :
      firstReply (outcome answer session prompt c.world) ≤ policy.retries + 1 →
      outcome answer session prompt c.world (n - 1) = .reply text usage →
      response.full = text → response.usage = usage → response.Parted →
      Sent prompt c n (.ok response ⟨askTimes answer session prompt n c.world, c.turns + 1⟩)
  /-- It would have come too late, and the fault of the last try is reported. -/
  | failed :
      policy.retries + 1 < firstReply (outcome answer session prompt c.world) →
      Sent prompt c n (.error
        (.generation ((outcome answer session prompt c.world policy.retries).fault policy))
        ⟨askTimes answer session prompt n c.world, c.turns⟩)

section Ends

variable {answer policy session} {prompt : String} {c : Conversation (Line σ)} {l : Line σ}

theorem send_of_reply {text : String} {usage : Usage}
    (h : request (ask answer session) policy prompt policy.retries c.world
      = (.ok (text, usage), l)) :
    send (ask answer session) policy prompt c = .ok (.ofReply text usage) ⟨l, c.turns + 1⟩ := by
  unfold send
  rw [h]

theorem send_of_fault {fault : String}
    (h : request (ask answer session) policy prompt policy.retries c.world = (.error fault, l)) :
    send (ask answer session) policy prompt c = .error (.generation fault) ⟨l, c.turns⟩ := by
  unfold send
  rw [h]

/-- A conversation whose world makes no notes. -/
def unnoted (c : Conversation (Line σ)) : Conversation σ := ⟨c.world.world, c.turns⟩

/-- **The notes change nothing**: without them a send comes to the same in the same world. -/
theorem send_unnoted (prompt : String) (c : Conversation (Line σ)) :
    send (answer session) policy prompt c.unnoted =
      match send (ask answer session) policy prompt c with
      | .ok response c' => .ok response c'.unnoted
      | .error e c' => .error e c'.unnoted := by
  unfold send
  rw [unnoted, request_of_line]
  rcases request (ask answer session) policy prompt policy.retries c.world with ⟨_ | _, _⟩ <;> rfl

end Ends

/-- **Every send ends so.** -/
theorem exists_sent (prompt : String) (c : Conversation (Line σ)) :
    ∃ n : ℕ, (n : ℕ∞)
        = min (firstReply (outcome answer session prompt c.world)) (policy.retries + 1) ∧
      Sent answer policy session prompt c n (send (ask answer session) policy prompt c) := by
  obtain ⟨n, hcount, hrequest⟩ := request_eq answer policy session prompt policy.retries c.world
  refine ⟨n + 1, hcount, ?_⟩
  rcases lt_or_ge ((policy.retries : ℕ∞) + 1)
    (firstReply (outcome answer session prompt c.world)) with hlate | htime
  · -- all tries are used up, and the outcome that decides is the last fault
    rw [min_eq_right (le_of_lt hlate)] at hcount
    obtain rfl : n = policy.retries := by
      have hcast : ((n + 1 : ℕ) : ℕ∞) = ((policy.retries + 1 : ℕ) : ℕ∞) := by exact_mod_cast hcount
      exact Nat.succ.inj (Nat.cast_injective hcast)
    have hfault := isReply_of_lt_firstReply (n := policy.retries) (by exact_mod_cast hlate)
    have hverdict := verdict_of_fault hfault policy
    rw [hverdict] at hrequest
    rw [send_of_fault hrequest]
    exact .failed hlate
  · rw [min_eq_left htime] at hcount
    obtain ⟨text, usage, houtcome⟩ := isReply_iff.mp (isReply_of_firstReply hcount)
    rw [houtcome] at hrequest
    rw [send_of_reply hrequest]
    exact .replied htime houtcome rfl rfl (Response.parted_ofReply _ _)

/-! ## Sessions -/

/-- What happens in a session: prompts are sent, and in between the world changes in any way. -/
inductive Event (σ : Type) where
  | send (prompt : String)
  | meanwhile (change : σ → σ)

/-- The prompt that is sent, if this is a send. -/
def Event.prompt? : Event σ → Option String
  | .send prompt => some prompt
  | .meanwhile _ => none

/-- The conversation after an event. -/
def perform (c : Conversation (Line σ)) : Event σ → Conversation (Line σ)
  | .send prompt =>
    match send (ask answer session) policy prompt c with
    | .ok _ c' => c'
    | .error _ c' => c'
  | .meanwhile change => { c with world := { c.world with world := change c.world.world } }

/-- A new session after some events. -/
def after (events : List (Event σ)) (world : σ) : Conversation (Line σ) :=
  events.foldl (perform answer policy session) ⟨⟨world, []⟩, 0⟩

/-- What a send has cost, and whether it was worth it. -/
structure Expense where
  prompt : String
  requests : ℕ
  answered : Bool

/-- The send kept to the policy: a prompt without a reply was tried as often as is allowed. -/
structure Expense.Allowed (e : Expense) : Prop where
  pos : 1 ≤ e.requests
  le : e.requests ≤ policy.retries + 1
  eq_of_unanswered : e.answered = false → e.requests = policy.retries + 1

/-- The requests and the turns of a conversation are those of its sends. -/
structure Accounted (events : List (Event σ)) (expenses : List Expense)
    (c : Conversation (Line σ)) : Prop where
  prompts : expenses.map Expense.prompt = events.filterMap Event.prompt?
  requests : c.world.requests
    = expenses.flatMap fun e => List.replicate e.requests (session, e.prompt)
  turns : c.turns = expenses.countP Expense.answered
  allowed : ∀ e ∈ expenses, e.Allowed policy

variable {policy session}

/-- A prompt is sent at least once. -/
theorem bounds_of_count {outcomes : ℕ → Exchange} {n : ℕ}
    (h : (n : ℕ∞) = min (firstReply outcomes) (policy.retries + 1)) :
    1 ≤ n ∧ n ≤ policy.retries + 1 := by
  have hone : (1 : ℕ∞) ≤ n := by
    rw [h]
    exact le_min (one_le_firstReply outcomes) (by simp)
  have hmost : (n : ℕ∞) ≤ policy.retries + 1 := by
    rw [h]
    exact min_le_right _ _
  exact ⟨by exact_mod_cast hone, by exact_mod_cast hmost⟩

theorem Accounted.concat {events : List (Event σ)} {expenses : List Expense}
    {c c' : Conversation (Line σ)} (h : Accounted policy session events expenses c) {e : Expense}
    (hallowed : e.Allowed policy)
    (hrequests : c'.world.requests
      = c.world.requests ++ List.replicate e.requests (session, e.prompt))
    (hturns : c'.turns = c.turns + if e.answered then 1 else 0) :
    Accounted policy session (events ++ [.send e.prompt]) (expenses ++ [e]) c' where
  prompts := by simp [h.prompts, Event.prompt?]
  requests := by simp [hrequests, h.requests]
  turns := by
    rw [hturns, h.turns, List.countP_append, List.countP_singleton]
  allowed := by
    intro e' he'
    rcases List.mem_append.mp he' with hold | hnew
    · exact h.allowed e' hold
    · exact List.mem_singleton.mp hnew ▸ hallowed

/-- A send adds one expense to the account. -/
theorem Accounted.send {events : List (Event σ)} {expenses : List Expense}
    {c : Conversation (Line σ)} (h : Accounted policy session events expenses c)
    (prompt : String) : ∃ e, Accounted policy session (events ++ [.send prompt]) (expenses ++ [e])
      (perform answer policy session c (.send prompt)) := by
  obtain ⟨n, hcount, hsent⟩ := exists_sent answer policy session prompt c
  obtain ⟨hpos, hle⟩ := bounds_of_count hcount
  have hrequests := requests_askTimes answer session prompt n c.world
  rw [perform]
  generalize Conversation.send (ask answer session) policy prompt c = result at hsent ⊢
  cases hsent with
  | replied _ _ _ _ _ =>
    have hallowed : Expense.Allowed policy ⟨prompt, n, true⟩ := ⟨hpos, hle, by simp⟩
    exact ⟨_, h.concat hallowed hrequests rfl⟩
  | failed hlate =>
    have hall : n = policy.retries + 1 := by
      rw [min_eq_right (le_of_lt hlate)] at hcount
      exact_mod_cast hcount
    have hallowed : Expense.Allowed policy ⟨prompt, n, false⟩ := ⟨hpos, hle, fun _ => hall⟩
    exact ⟨_, h.concat hallowed hrequests rfl⟩

variable (policy session)

/-- **The account of a session.** -/
theorem exists_accounted (events : List (Event σ)) (world : σ) :
    ∃ expenses, Accounted policy session events expenses
      (after answer policy session events world) := by
  induction events using List.reverseRecOn with
  | nil => exact ⟨[], rfl, rfl, rfl, by simp⟩
  | append_singleton events event ih =>
    obtain ⟨expenses, h⟩ := ih
    rw [after, List.foldl_append, ← after]
    cases event with
    | send prompt =>
      obtain ⟨e, hsend⟩ := h.send answer prompt
      exact ⟨expenses ++ [e], hsend⟩
    | meanwhile change =>
      refine ⟨expenses, ?_, h.requests, h.turns, h.allowed⟩
      rw [h.prompts]
      simp [Event.prompt?]

/-- **A send keeps to the policy.** Let prompts be sent in a session, under a policy with any number
of retries, and let the world outside do what it likes, also between the sends. Look at the next
send, and count from one at which request its prompt would get its first reply, if it were sent
again and again. The send

* makes as many requests as this number says, or as the retries allow, whichever is less; all of
  them carry the prompt in this session, and nothing else is asked of the world;
* returns that reply, with the parts of its text and the usage that came with it, exactly if it came
  in time, and then the conversation has one more turn;
* otherwise reports the fault of the last request, and the conversation has the turns that it had.

So the turns of the session are its sends that were answered, and its requests are those of its
sends: for each at least one and at most one more than the retries, and not less than that if it was
not answered. A world that makes no notes of the requests comes to the same. -/
theorem send_keeps_to_policy (events : List (Event σ)) (world : σ) (prompt : String) :
    let c := after answer policy session events world
    let j := firstReply (outcome answer session prompt c.world)
    let result := send (ask answer session) policy prompt c
    (∃ n : ℕ, (n : ℕ∞) = min j (policy.retries + 1) ∧
      (askTimes answer session prompt n c.world).requests
        = c.world.requests ++ List.replicate n (session, prompt) ∧
      Sent answer policy session prompt c n result) ∧
    ((∃ response c', result = .ok response c') ↔ j ≤ policy.retries + 1) ∧
    (∃ expenses, Accounted policy session events expenses c) ∧
    send (answer session) policy prompt c.unnoted =
      match result with
      | .ok response c' => .ok response c'.unnoted
      | .error e c' => .error e c'.unnoted := by
  intro c j result
  obtain ⟨n, hcount, hsent⟩ := exists_sent answer policy session prompt c
  refine ⟨⟨n, hcount, requests_askTimes answer session prompt n c.world, hsent⟩, ?_,
    exists_accounted answer policy session events world, send_unnoted prompt c⟩
  constructor
  · rintro ⟨response, c', hok⟩
    have hends : Sent answer policy session prompt c n (.ok response c') := hok ▸ hsent
    cases hends with
    | replied htime => exact htime
  · intro htime
    cases hresult : result with
    | ok response c' => exact ⟨response, c', rfl⟩
    | error e c' =>
      have hends : Sent answer policy session prompt c n (.error e c') := hresult ▸ hsent
      cases hends with
      | failed hlate => exact absurd htime (not_le.mpr hlate)

/-- One fault, silence, and a reply, with one retry and then with two. -/
example :
    let s : Script := { replies := [.error "503", .hang, .text "x"], turns := [0] }
    let tries (retries : Nat) := match send (Script.ask 0) ⟨retries, 9, 5⟩ "p" ⟨s, 0⟩ with
      | .ok r c => (Except.ok r.full, c.world.prompts, c.turns)
      | .error e c => (Except.error e.message, c.world.prompts, c.turns)
    tries 1 = (.error "generation transport failed: no reply within 9s", ["p", "p"], 0) ∧
      tries 2 = (.ok "x", ["p", "p", "p"], 1) := by
  decide +kernel

end Conversation

end HeuristicEvolution

import HeuristicEvolution.Evolution.Live
import Mathlib

/-!
# The history of a chat session

A service keeps nothing between requests, so a request has to repeat the conversation. This module
says what a request repeats, for any number of sessions that are open side by side and for any
mixture of messages that are answered, refused, cut off or given up.

The conversation is taken from what the callers saw and not from what a session holds: a message
belongs to it if its caller was given a reply, and it goes with the reply that was given. That the
sessions hold just this is the invariant `Remembered`, and `Remembered.perform` shows that each
message keeps it, whatever comes of it.

A request is read as the service reads it. `HttpRequest.messages?` finds the messages in the body
of a request, in the form of either service, and `messages?_request` says that nothing is lost or
changed on the way there.

## Main definitions

* `HttpRequest.messages?`: the messages in the body of a request.
* `ChatStep`, `Surroundings.after`: messages in any order in any sessions.
* `Sending.pairs`: the messages of a session that were answered, with their replies.

## Main results

* `HttpRequest.messages?_request`
* `ChatSession.receive_cases`: what an answer does to its session.
* `Surroundings.request_repeats_conversation`
-/

namespace HeuristicEvolution

/-! ## Reading a request -/

namespace Service

/-- The author whom a service calls by a name. -/
def author? : Service → String → Option Author
  | _, "user" => some .user
  | .openAI, "assistant" => some .model
  | .gemini, "model" => some .model
  | _, _ => none

/-- The text of a message, where a service looks for it: in the content, or in the only part. -/
def messageText? : Service → Json → Option String
  | .openAI, j => (j.get? "content").bind Json.str?
  | .gemini, j =>
    match (j.get? "parts").bind Json.arr? with
    | some [part] => (part.get? "text").bind Json.str?
    | _ => none

/-- A message as a service reads it. -/
def message? (service : Service) (j : Json) : Option Message := do
  let name ← (j.get? "role").bind Json.str?
  return ⟨← service.author? name, ← service.messageText? j⟩

/-- The member of a request that holds the messages. -/
def messagesName : Service → String
  | .openAI => "messages"
  | .gemini => "contents"

theorem message?_message (service : Service) (m : Message) :
    service.message? (service.message m) = some m := by
  obtain ⟨author, text⟩ := m
  cases service <;> cases author <;> rfl

end Service

namespace HttpRequest

/-- The messages in the body of a request, as the service reads them. -/
def messages? (service : Service) (r : HttpRequest) : Option (List Message) :=
  ((r.body.get? service.messagesName).bind Json.arr?).bind fun items =>
    items.mapM service.message?

theorem mapM_message? (service : Service) (ms : List Message) :
    (ms.map service.message).mapM service.message? = some ms := by
  induction ms with
  | nil => rfl
  | cons m ms ih =>
    rw [List.map_cons, List.mapM_cons, Service.message?_message, ih]
    rfl

/-- What a service reads is what was written for it. -/
theorem messages?_request (e : Endpoint) (ms : List Message) :
    (e.request ms).messages? e.service = some ms := by
  have hbody : ((e.request ms).body.get? e.service.messagesName).bind Json.arr?
      = some (ms.map e.service.message) := by
    obtain ⟨service, model, key⟩ := e
    cases service <;> rfl
  rw [messages?, hbody, Option.bind_some, mapM_message?]

end HttpRequest

/-! ## What an answer does to its session -/

/-- A reply came back: the request was granted, and the body of the answer is a value in which the
reply stands where the service puts it. -/
def Endpoint.Replied (e : Endpoint) (outcome : HttpOutcome) (reply : String) (usage : Usage) :
    Prop :=
  ∃ status body j, outcome = .answered status body ∧ 200 ≤ status ∧ status < 300 ∧
    Json.parse? body = some j ∧ Endpoint.replyText e.service j = .ok reply ∧ usage = e.usage j

namespace ChatSession

variable (chat : ChatSession) (text : String)

theorem readReply_eq_ok_iff {e : Endpoint} {status : Nat} {body reply : String} {usage : Usage} :
    e.readReply status body = .ok (reply, usage) ↔
      e.Replied (.answered status body) reply usage := by
  have hgranted : Status.isSuccess status = true ↔ 200 ≤ status ∧ status < 300 := by
    simp [Status.isSuccess]
  constructor
  · intro h
    rw [Endpoint.readReply] at h
    split at h
    · next hsuccess =>
      obtain ⟨hlow, hhigh⟩ := hgranted.mp hsuccess
      split at h
      · exact nomatch h
      · next j hparse =>
        cases hreply : Endpoint.replyText e.service j with
        | error failure => simp [hreply, Except.map] at h
        | ok found =>
          simp only [hreply, Except.map, Except.ok.injEq, Prod.mk.injEq] at h
          obtain ⟨rfl, rfl⟩ := h
          exact ⟨status, body, j, rfl, hlow, hhigh, hparse, hreply, rfl⟩
    · exact nomatch h
  · rintro ⟨status', body', j, hsame, hlow, hhigh, hparse, hreply, rfl⟩
    obtain ⟨rfl, rfl⟩ := HttpOutcome.answered.inj hsame
    rw [Endpoint.readReply, if_pos (hgranted.mpr ⟨hlow, hhigh⟩), hparse]
    simp only [hreply]
    rfl

/-- The caller is given a reply exactly if one came back. -/
theorem receive_eq_reply_iff {outcome : HttpOutcome} {reply : String} {usage : Usage} :
    (chat.receive text outcome).1 = .reply reply usage ↔
      chat.endpoint.Replied outcome reply usage := by
  cases outcome with
  | answered status body =>
    rw [← readReply_eq_ok_iff, receive]
    cases hread : chat.endpoint.readReply status body with
    | error failure => simp
    | ok found => simp [Prod.ext_iff]
  | dropped => simp [receive, Endpoint.Replied]
  | silent => simp [receive, Endpoint.Replied]

/-- **What an answer does to its session.** With a reply the session grows by the message and the
reply that the caller is given; without one it stays as it is. -/
theorem receive_cases (outcome : HttpOutcome) :
    (∃ reply usage, (chat.receive text outcome).1 = .reply reply usage ∧
      (chat.receive text outcome).2 =
        { chat with history := chat.history ++ [⟨.user, text⟩, ⟨.model, reply⟩] }) ∨
    ((∀ reply usage, (chat.receive text outcome).1 ≠ .reply reply usage) ∧
      (chat.receive text outcome).2 = chat) := by
  cases outcome with
  | answered status body =>
    rw [receive]
    cases chat.endpoint.readReply status body with
    | error failure => exact .inr ⟨fun _ _ h => (nomatch h), rfl⟩
    | ok found =>
      refine .inl ⟨found.1, found.2, rfl, ?_⟩
      simp [messages]
  | dropped => exact .inr ⟨fun _ _ h => (nomatch h), rfl⟩
  | silent => exact .inr ⟨fun _ _ h => (nomatch h), rfl⟩

end ChatSession

/-! ## Messages in any order -/

/-- What is done with chat sessions: one is opened, or a message is sent in one. -/
inductive ChatStep where
  | openSession (e : Endpoint)
  | send (session : Nat) (text : String)

/-- A message that was sent, and what its caller was given. -/
structure Sending where
  session : Nat
  text : String
  answer : Exchange

namespace Sending

/-- The message and its reply, if it was sent in the session and a reply came. -/
def pair? (session : Nat) (sending : Sending) : Option (String × String) :=
  match sending.answer with
  | .reply reply _ => if sending.session = session then some (sending.text, reply) else none
  | _ => none

/-- The messages of a session that were answered, with their replies, in order. -/
def pairs (session : Nat) (past : List Sending) : List (String × String) :=
  past.filterMap (pair? session)

theorem pairs_append_singleton (session : Nat) (past : List Sending) (sending : Sending) :
    pairs session (past ++ [sending]) = pairs session past ++ (sending.pair? session).toList := by
  rw [pairs, List.filterMap_append, ← pairs]
  cases h : sending.pair? session <;> simp [h]

theorem pairs_append_of_none {session : Nat} {sending : Sending}
    (h : sending.pair? session = none) (past : List Sending) :
    pairs session (past ++ [sending]) = pairs session past := by
  rw [pairs_append_singleton, h, Option.toList_none, List.append_nil]

/-- A message that was not answered adds no pair. -/
theorem pairs_append_of_unanswered {sending : Sending}
    (h : ∀ reply usage, sending.answer ≠ .reply reply usage) (session : Nat)
    (past : List Sending) : pairs session (past ++ [sending]) = pairs session past := by
  refine pairs_append_of_none ?_ past
  rw [pair?]
  split
  · next reply usage hanswer => exact absurd hanswer (h reply usage)
  · rfl

/-- A message that was sent in another session adds no pair. -/
theorem pairs_append_of_ne {sending : Sending} {session : Nat} (h : sending.session ≠ session)
    (past : List Sending) : pairs session (past ++ [sending]) = pairs session past := by
  refine pairs_append_of_none ?_ past
  rw [pair?]
  split
  · rw [if_neg h]
  · rfl

end Sending

/-- Messages and their replies in turn. -/
def Message.ofPairs (pairs : List (String × String)) : List Message :=
  pairs.flatMap fun (text, reply) => [Message.mk .user text, Message.mk .model reply]

theorem Message.ofPairs_append_singleton (pairs : List (String × String)) (text reply : String) :
    Message.ofPairs (pairs ++ [(text, reply)]) =
      Message.ofPairs pairs ++ [⟨.user, text⟩, ⟨.model, reply⟩] := by
  rw [ofPairs, List.flatMap_append]
  rfl

/-- User and model take turns, and the user begins and ends. -/
theorem Message.alternate (pairs : List (String × String)) (text : String) :
    (Message.ofPairs pairs ++ [Message.mk .user text]).IsChain
        (fun a b : Message => a.author ≠ b.author) ∧
      (Message.ofPairs pairs ++ [Message.mk .user text]).head?.map Message.author = some .user := by
  induction pairs with
  | nil => exact ⟨.singleton _, rfl⟩
  | cons pair rest ih =>
    obtain ⟨question, reply⟩ := pair
    obtain ⟨hchain, hhead⟩ := ih
    refine ⟨?_, rfl⟩
    change List.IsChain _ (⟨.user, question⟩ :: ⟨.model, reply⟩ :: (ofPairs rest ++ _))
    refine .cons_cons (by simp) ?_
    rw [List.isChain_cons]
    refine ⟨fun next hnext => ?_, hchain⟩
    rw [Option.mem_def.mp hnext] at hhead
    have hauthor : next.author = .user := Option.some.inj hhead
    simp [hauthor]

namespace ChatStep

/-- The endpoints of the sessions that steps open, by the numbers of the sessions. -/
def opened (steps : List ChatStep) : List Endpoint :=
  steps.filterMap fun
    | openSession e => some e
    | send _ _ => none

/-- One step. What was sent, and what came of it, is put on record. -/
def perform (p : Surroundings × List Sending) : ChatStep → Surroundings × List Sending
  | openSession e => ((p.1.openSession e).2, p.2)
  | send session text =>
    let (answer, s) := p.1.ask session text
    (s, p.2 ++ [⟨session, text, answer⟩])

end ChatStep

namespace Surroundings

/-- The surroundings after steps that are taken in them, and what was sent. -/
def after (s : Surroundings) (steps : List ChatStep) : Surroundings × List Sending :=
  steps.foldl ChatStep.perform (s, [])

theorem after_append_singleton (s : Surroundings) (steps : List ChatStep) (step : ChatStep) :
    s.after (steps ++ [step]) = step.perform (s.after steps) := by
  rw [after, List.foldl_append]
  rfl

/-- Every session holds the messages that were answered, with the replies that were given. -/
structure Remembered (endpoints : List Endpoint) (p : Surroundings × List Sending) : Prop where
  session_eq : ∀ k, p.1.sessions[k]? =
    endpoints[k]?.map fun e => ChatSession.mk e (Message.ofPairs (Sending.pairs k p.2))
  pairs_of_unopened : ∀ k, endpoints[k]? = none → Sending.pairs k p.2 = []

theorem remembered_start (world : World) (network : Network) :
    Remembered [] (start world network, []) := ⟨fun _ => rfl, fun _ _ => rfl⟩

/-! ### What one step does -/

theorem ask_of_unopened {s : Surroundings} {session : Nat} (text : String)
    (h : s.sessions[session]? = none) : s.ask session text = (.failed .transport, s) := by
  rw [ask, h]

theorem ask_of_opened {s : Surroundings} {session : Nat} {chat : ChatSession} (text : String)
    (h : s.sessions[session]? = some chat) :
    s.ask session text =
      let outcome := s.network s.sent (chat.request text)
      ((chat.receive text outcome).1,
        { s with sent := s.sent ++ [chat.request text]
                 sessions := s.sessions.set session (chat.receive text outcome).2 }) := by
  rw [ask, h]

variable {endpoints : List Endpoint} {p : Surroundings × List Sending}

theorem Remembered.openSession (h : Remembered endpoints p) (e : Endpoint) :
    Remembered (endpoints ++ [e]) ((p.1.openSession e).2, p.2) := by
  have hlength : p.1.sessions.length = endpoints.length := by
    refine Nat.le_antisymm ?_ ?_
    · rw [← List.getElem?_eq_none_iff, h.session_eq, List.getElem?_eq_none (Nat.le_refl _)]
      rfl
    · rw [← List.getElem?_eq_none_iff]
      have hend := h.session_eq p.1.sessions.length
      rw [List.getElem?_eq_none (Nat.le_refl _)] at hend
      exact Option.map_eq_none_iff.mp hend.symm
  refine ⟨fun k => ?_, fun k hk => ?_⟩
  · change (p.1.sessions ++ [ChatSession.start e])[k]? = _
    rcases Nat.lt_trichotomy k endpoints.length with hlt | heq | hgt
    · rw [List.getElem?_append_left (hlength ▸ hlt), List.getElem?_append_left hlt, h.session_eq]
    · have hnew : endpoints[k]? = none := List.getElem?_eq_none (Nat.le_of_eq heq.symm)
      rw [heq, List.getElem?_concat_length, ← hlength, List.getElem?_concat_length, hlength, ← heq,
        Option.map_some, h.pairs_of_unopened k hnew]
      rfl
    · rw [List.getElem?_eq_none (by simp; omega), List.getElem?_eq_none (by simp; omega)]
      rfl
  · refine h.pairs_of_unopened k ?_
    rw [List.getElem?_eq_none_iff] at hk ⊢
    rw [List.length_append] at hk
    omega

/-- A session that holds its conversation holds it after one more message. -/
theorem receive_eq_ofPairs (e : Endpoint) (session : Nat) (past : List Sending) (text : String)
    (outcome : HttpOutcome) :
    let chat : ChatSession := ⟨e, Message.ofPairs (Sending.pairs session past)⟩
    (chat.receive text outcome).2 = ⟨e, Message.ofPairs (Sending.pairs session
      (past ++ [⟨session, text, (chat.receive text outcome).1⟩]))⟩ := by
  intro chat
  rcases chat.receive_cases text outcome with ⟨reply, usage, hanswer, hchat⟩ | ⟨hnone, hchat⟩
  · have hpair : Sending.pair? session ⟨session, text, .reply reply usage⟩ = some (text, reply) :=
      if_pos rfl
    rw [hchat, hanswer, Sending.pairs_append_singleton, hpair, Option.toList_some,
      Message.ofPairs_append_singleton]
  · rw [hchat, Sending.pairs_append_of_unanswered hnone]

/-- A message keeps what the sessions remember, whatever comes of it. -/
theorem Remembered.send (h : Remembered endpoints p) (session : Nat) (text : String) :
    Remembered endpoints (ChatStep.perform p (.send session text)) := by
  cases hopened : endpoints[session]? with
  | none =>
    have hnone : p.1.sessions[session]? = none := by rw [h.session_eq, hopened]; rfl
    have hpairs : ∀ k, Sending.pairs k (p.2 ++ [⟨session, text, .failed .transport⟩])
        = Sending.pairs k p.2 := fun k =>
      Sending.pairs_append_of_unanswered (by simp) k p.2
    rw [ChatStep.perform, ask_of_unopened text hnone]
    exact ⟨fun k => by rw [hpairs]; exact h.session_eq k,
      fun k hk => by rw [hpairs]; exact h.pairs_of_unopened k hk⟩
  | some e =>
    have hchat : p.1.sessions[session]? =
        some ⟨e, Message.ofPairs (Sending.pairs session p.2)⟩ := by rw [h.session_eq, hopened]; rfl
    obtain ⟨hlt, -⟩ := List.getElem?_eq_some_iff.mp hchat
    rw [ChatStep.perform, ask_of_opened text hchat]
    refine ⟨fun k => ?_, fun k hk => ?_⟩
    · by_cases hk : session = k
      · subst hk
        rw [List.getElem?_set_self hlt, hopened, Option.map_some, receive_eq_ofPairs]
      · rw [List.getElem?_set_ne hk, Sending.pairs_append_of_ne hk, h.session_eq]
    · have hne : session ≠ k := by
        rintro rfl
        rw [hopened] at hk
        exact nomatch hk
      rw [Sending.pairs_append_of_ne hne, h.pairs_of_unopened k hk]

theorem remembered_after (world : World) (network : Network) (steps : List ChatStep) :
    Remembered (ChatStep.opened steps) ((start world network).after steps) := by
  induction steps using List.reverseRecOn with
  | nil => exact remembered_start world network
  | append_singleton steps step ih =>
    rw [after_append_singleton]
    cases step with
    | openSession e =>
      have hopened :
          ChatStep.opened (steps ++ [.openSession e]) = ChatStep.opened steps ++ [e] := by
        simp [ChatStep.opened]
      rw [hopened]
      exact ih.openSession e
    | send session text =>
      have hopened : ChatStep.opened (steps ++ [.send session text]) = ChatStep.opened steps := by
        simp [ChatStep.opened]
      rw [hopened]
      exact ih.send session text

theorem network_after (s : Surroundings) (steps : List ChatStep) :
    (s.after steps).1.network = s.network := by
  induction steps using List.reverseRecOn with
  | nil => rfl
  | append_singleton steps step ih =>
    rw [after_append_singleton, ← ih]
    cases step with
    | openSession e => rfl
    | send session text =>
      rw [ChatStep.perform, ask]
      cases (s.after steps).1.sessions[session]? <;> rfl

/-! ## What a request repeats -/

/-- What is said in a session up to a message: the messages that were answered, with the replies
that their callers were given, and the message. -/
def conversation (session : Nat) (past : List Sending) (text : String) : List Message :=
  Message.ofPairs (Sending.pairs session past) ++ [⟨.user, text⟩]

section Asking

variable (world : World) (network : Network) {steps : List ChatStep} {session : Nat} {e : Endpoint}

theorem ask_after (h : (ChatStep.opened steps)[session]? = some e) (text : String) :
    let s := ((start world network).after steps).1
    let request := e.request (conversation session ((start world network).after steps).2 text)
    (s.ask session text).2.sent = s.sent ++ [request] ∧
      ∀ reply usage, (s.ask session text).1 = .reply reply usage ↔
        e.Replied (network s.sent request) reply usage := by
  intro s request
  have hchat := (remembered_after world network steps).session_eq session
  rw [h] at hchat
  rw [ask_of_opened text hchat]
  refine ⟨rfl, fun reply usage => ?_⟩
  rw [ChatSession.receive_eq_reply_iff, network_after]
  rfl

/-- A try that gets its reply is the last one, and any other one is followed by a further try while
some are left. -/
theorem request_cases {σ : Type} (ask : String → σ → Exchange × σ) (policy : Policy)
    (text : String) (retries : Nat) (s : σ) :
    (Conversation.request ask policy text retries s).2 = (ask text s).2 ∨
      (∀ reply usage, (ask text s).1 ≠ .reply reply usage) ∧ ∃ left, retries = left + 1 ∧
        (Conversation.request ask policy text retries s).2
          = (Conversation.request ask policy text left (ask text s).2).2 := by
  rcases hask : ask text s with ⟨⟨reply, usage⟩ | failure | _, s'⟩
  · left
    cases retries <;> rw [Conversation.request, hask]
  all_goals
    cases retries with
    | zero =>
      left
      rw [Conversation.request, hask]
    | succ left =>
      right
      refine ⟨fun _ _ h => (nomatch h), left, rfl, ?_⟩
      rw [Conversation.request, hask]

/-- A message that is sent again because no reply came is the same request each time. -/
theorem request_again (policy : Policy) (text : String) (retries : Nat)
    (h : (ChatStep.opened steps)[session]? = some e) :
    let p := (start world network).after steps
    ∃ n, 1 ≤ n ∧ n ≤ retries + 1 ∧
      (Conversation.request (ask session) policy text retries p.1).2
        = ((start world network).after (steps ++ List.replicate n (.send session text))).1 ∧
      (Conversation.request (ask session) policy text retries p.1).2.sent
        = p.1.sent ++ List.replicate n (e.request (conversation session p.2 text)) := by
  induction retries using Nat.strong_induction_on generalizing steps with
  | _ retries ih =>
    intro p
    have hsent := (ask_after world network h text).1
    have hafter : (start world network).after (steps ++ [.send session text])
        = ((p.1.ask session text).2, p.2 ++ [⟨session, text, (p.1.ask session text).1⟩]) := by
      rw [after_append_singleton]
      rfl
    rcases request_cases (ask session) policy text retries p.1 with
      hlast | ⟨hnone, left, rfl, hmore⟩
    · refine ⟨1, Nat.le_refl _, Nat.succ_le_succ (Nat.zero_le _), ?_, ?_⟩
      · rw [hlast, List.replicate_one, hafter]
      · rw [hlast, List.replicate_one]
        exact hsent
    · have hopened : (ChatStep.opened (steps ++ [.send session text]))[session]? = some e := by
        have hsame : ChatStep.opened (steps ++ [.send session text]) = ChatStep.opened steps := by
          simp [ChatStep.opened]
        rw [hsame]
        exact h
      obtain ⟨n, -, hle, hstate, hrequests⟩ := ih left (Nat.lt_succ_self _) hopened
      have hsaid : conversation session (p.2 ++ [⟨session, text, (p.1.ask session text).1⟩]) text
          = conversation session p.2 text := by
        rw [conversation, Sending.pairs_append_of_unanswered hnone]
        rfl
      rw [hafter] at hstate hrequests
      refine ⟨n + 1, Nat.le_add_left _ _, Nat.succ_le_succ hle, ?_, ?_⟩
      · rw [hmore, hstate, List.replicate_succ, List.append_assoc, List.singleton_append]
      · rw [hmore, hrequests, hsaid, hsent, List.replicate_succ, List.append_assoc,
          List.singleton_append]

end Asking

/-- **A request repeats the conversation.** Let sessions be opened and messages be sent in them in
any order, and let every message be answered, refused, cut off or given up as the network likes.
Then the next message of a session is sent in one request, and in its body the service finds

* the earlier messages of the session that were answered, each with the reply that its caller was
  given, in order, and then the message itself: nothing of messages that were not answered, and
  nothing of other sessions;
* user and model in turn, the user first and last.

The message is answered exactly if a reply comes back in the form of the service. A message that is
sent again while no reply comes is one and the same request every time. -/
theorem request_repeats_conversation (world : World) (network : Network) (steps : List ChatStep)
    (session : Nat) (text : String) (e : Endpoint)
    (h : (ChatStep.opened steps)[session]? = some e) :
    let p := (start world network).after steps
    let messages := Message.ofPairs (Sending.pairs session p.2) ++ [⟨.user, text⟩]
    let request := e.request messages
    (p.1.ask session text).2.sent = p.1.sent ++ [request] ∧
      request.messages? e.service = some messages ∧
      messages.IsChain (fun a b => a.author ≠ b.author) ∧
      messages.head?.map Message.author = some .user ∧
      (∀ reply usage, (p.1.ask session text).1 = .reply reply usage ↔
        e.Replied (network p.1.sent request) reply usage) ∧
      ∀ policy retries, ∃ n, 1 ≤ n ∧ n ≤ retries + 1 ∧
        (Conversation.request (ask session) policy text retries p.1).2
          = ((start world network).after (steps ++ List.replicate n (.send session text))).1 ∧
        (Conversation.request (ask session) policy text retries p.1).2.sent
          = p.1.sent ++ List.replicate n request := by
  intro p messages request
  obtain ⟨hsent, hreplied⟩ := ask_after world network h text
  obtain ⟨hturns, hfirst⟩ := Message.alternate (Sending.pairs session p.2) text
  exact ⟨hsent, HttpRequest.messages?_request e messages, hturns, hfirst, hreplied,
    fun policy retries => request_again world network policy text retries h⟩

/-- A message is given up, refused, and then answered; another session says something in between. -/
theorem request_repeats_conversation_retried :
    let e : Endpoint := ⟨.openAI, "m", ""⟩
    let network : Network := fun earlier _ =>
      match earlier.length with
      | 0 => .silent
      | 1 => .answered 503 "busy"
      | _ => .answered 200 "\x7b\"choices\":[\x7b\"message\":\x7b\"content\":\"hi\"\x7d\x7d]\x7d"
    let steps : List ChatStep := [.openSession e, .openSession e, .send 0 "a", .send 0 "a",
      .send 1 "x", .send 0 "a"]
    let world : World := { files := default, host := fun _ _ _ => default }
    let s := ((start world network).after steps).1
    (ChatStep.opened steps)[0]? = some e ∧
      ((s.ask 0 "b").2.sent.getLast?.bind fun r => r.messages? .openAI)
        = some [⟨.user, "a"⟩, ⟨.model, "hi"⟩, ⟨.user, "b"⟩] := by
  intro e network steps world s
  have hopened : (ChatStep.opened steps)[0]? = some e := rfl
  have hparse : Json.parse? "\x7b\"choices\":[\x7b\"message\":\x7b\"content\":\"hi\"\x7d\x7d]\x7d" =
      some (.obj [("choices", .arr [.obj [("message", .obj [("content", .str "hi")])]])]) := by cbv
  have hreply : ∃ usage, e.readReply 200
      "\x7b\"choices\":[\x7b\"message\":\x7b\"content\":\"hi\"\x7d\x7d]\x7d" = .ok ("hi", usage) :=
    ⟨_, ChatSession.readReply_eq_ok_iff.mpr
      ⟨_, _, _, rfl, by decide, by decide, hparse, by cbv, rfl⟩⟩
  obtain ⟨usage, hreply⟩ := hreply
  have hrefused : e.readReply 503 "busy" = .error (e.refused 503 "busy") := rfl
  have hpairs : Sending.pairs 0 ((start world network).after steps).2 = [("a", "hi")] := by
    simp [Sending.pairs, Sending.pair?, steps, after, ChatStep.perform, start, openSession, ask,
      network, ChatSession.start, ChatSession.receive, hreply, hrefused]
    rfl
  obtain ⟨hsent, hmessages, -⟩ := request_repeats_conversation _ network steps 0 "b" e hopened
  refine ⟨hopened, ?_⟩
  rw [hsent, List.getLast?_concat, Option.bind_some, hmessages, hpairs]
  rfl

end Surroundings

end HeuristicEvolution

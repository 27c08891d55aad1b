import HeuristicEvolution.Proofs.Evolution.Slots

/-!
# Laboratories that give the same answers

A model and a backend may keep what state they like, fail when they like and be asked again as
often as the policy allows. What matters for a record is only what they answer when they do answer.
If the answers to a candidate are determined by its slot and by what was said and built for it so
far, then so is its record.

To say this, the answers are taken out of the laboratory: `Answers` is a book of them, and
`Laboratory.Gives` says that a laboratory answers by the book. The book has a laboratory of its
own, which never fails and whose whole state is the transcript of the conversation. The main result
is that a record that any laboratory with this book comes to is the record of the book.

## What a transcript leaves out

Requests that bring no reply leave no trace in a transcript: a repeated request is answered like
the first. So nothing here depends on the number of retries, and a call that failed on the way is
as good as one that did not, up to the point at which it stopped.

## What is asked of a laboratory

Only what the work on a candidate calls for. An experiment is not told what was built; it measures
what the last build has left. So the book is asked about an experiment only behind a build that
succeeded, about a build only for the code that the last reply brought, and about a reply only as
long as nothing is ready to be measured. Anywhere else the laboratory may say what it likes.

## Main definitions

* `Answers`, `Answers.laboratory`: the book of answers, and the laboratory that reads it out.
* `Brings`, `EndsBuilt`: how far the work on a candidate has come, by its transcript.
* `Course`: the states of the world in the course of a conversation.
* `Laboratory.Gives`: answering by the book.

## Main results

* `Answers.gives_laboratory`
* `runSlot_follows`: records are the same, whoever gives the answers.
-/

namespace HeuristicEvolution

/-- What leaves a trace in the work on a candidate. -/
inductive Event where
  | said (prompt reply : String) (usage : Usage)
  | built (code : String) (result : BuildResult)
  deriving DecidableEq, Repr

/-- All that was said and built for a candidate, the last event first. -/
abbrev Transcript := List Event

/-- The answers of a model and a backend, by the slot of a candidate and its transcript. -/
structure Answers where
  initialPrompt : Slot → String
  mutationPrompt : Slot → (codes : List String) → String
  repairPrompt : (stdout stderr : String) → String
  reply : Slot → Transcript → (prompt : String) → String × Usage
  build : Slot → Transcript → (code : String) → BuildResult
  experiment : Slot → Transcript → Outcome

/-- The laboratory that reads out the answers. Its world is the transcript of the conversation. -/
def Answers.laboratory (a : Answers) : Laboratory Transcript where
  model := ""
  openSession _ _ := (0, [])
  ask slot _ prompt t :=
    let (text, usage) := a.reply slot t prompt
    (.reply text usage, .said prompt text usage :: t)
  initialPrompt slot t := (a.initialPrompt slot, t)
  mutationPrompt slot codes t := (a.mutationPrompt slot codes, t)
  repairPrompt := a.repairPrompt
  build slot code t :=
    let result := a.build slot t code
    (.ok result, .built code result :: t)
  experiment slot t := (.ok (a.experiment slot t), t)

/-- The last event is a reply, and this is the response made of it. -/
def Brings (r : Response) : Transcript → Prop
  | .said _ reply usage :: _ => .ofReply reply usage = r
  | _ => False

/-- The last event is a build that succeeded. -/
def EndsBuilt : Transcript → Prop
  | .built _ result :: _ => result.success = true
  | _ => False

theorem Brings.not_endsBuilt {r : Response} {t : Transcript} (h : Brings r t) : ¬ EndsBuilt t := by
  intro hbuilt
  cases t with
  | nil => exact h
  | cons event t =>
    cases event with
    | said prompt reply usage => exact hbuilt
    | built code result => exact h

/-! ## The course of a conversation -/

section Course

variable {σ : Type}

/-- `Course lab slot session t w` says that `w` is a state of the world in the conversation of the
given number about the slot, and `t` its transcript. The conversation may start in any world. It
goes on until a build succeeds, and what is built is the code of the last reply. -/
inductive Course (lab : Laboratory σ) (slot : Slot) : (session : Nat) → Transcript → σ → Prop where
  | opened (w : σ) : Course lab slot (lab.openSession slot w).1 [] (lab.openSession slot w).2
  | said {session : Nat} {t : Transcript} {w w' : σ} {prompt reply : String} {usage : Usage} :
      Course lab slot session t w → ¬ EndsBuilt t →
      lab.ask slot session prompt w = (.reply reply usage, w') →
      Course lab slot session (.said prompt reply usage :: t) w'
  | unanswered {session : Nat} {t : Transcript} {w w' : σ} {prompt : String} {x : Exchange} :
      Course lab slot session t w → ¬ EndsBuilt t → lab.ask slot session prompt w = (x, w') →
      (∀ reply usage, x ≠ .reply reply usage) → Course lab slot session t w'
  | built {session : Nat} {t : Transcript} {w w' : σ} {r : Response} {code : String}
      {result : BuildResult} :
      Course lab slot session t w → Brings r t → r.primaryCode = some code →
      lab.build slot code w = (.ok result, w') →
      Course lab slot session (.built code result :: t) w'

/-- The laboratory answers by the book, as far as it answers: any request, build or experiment may
also fail. The book is asked about a build when the last reply has brought the code, and about an
experiment when the build before it has succeeded. -/
structure Laboratory.Gives (lab : Laboratory σ) (a : Answers) : Prop where
  initialPrompt : ∀ slot w, (lab.initialPrompt slot w).1 = a.initialPrompt slot
  mutationPrompt : ∀ slot codes w, (lab.mutationPrompt slot codes w).1 = a.mutationPrompt slot codes
  repairPrompt : lab.repairPrompt = a.repairPrompt
  reply : ∀ {slot session t w prompt reply usage w'}, Course lab slot session t w →
    ¬ EndsBuilt t → lab.ask slot session prompt w = (.reply reply usage, w') →
      a.reply slot t prompt = (reply, usage)
  build : ∀ {slot session t w r code result w'}, Course lab slot session t w → Brings r t →
    r.primaryCode = some code → lab.build slot code w = (.ok result, w') →
      a.build slot t code = result
  experiment : ∀ {slot session t w outcome w'}, Course lab slot session t w → EndsBuilt t →
    lab.experiment slot w = (.ok outcome, w') → a.experiment slot t = outcome

/-- In the laboratory of the book the world is the transcript. -/
theorem Answers.eq_of_course {a : Answers} {slot : Slot} {session : Nat} {t w : Transcript}
    (h : Course a.laboratory slot session t w) : w = t := by
  induction h with
  | opened w => rfl
  | said _ _ hask ih =>
    simp only [laboratory, Prod.mk.injEq, Exchange.reply.injEq] at hask
    obtain ⟨⟨rfl, rfl⟩, rfl⟩ := hask
    rw [ih]
  | unanswered _ _ hask hfault ih =>
    exact absurd (Prod.mk.inj hask).1.symm (hfault _ _)
  | built _ _ _ hbuild ih =>
    simp only [laboratory, Prod.mk.injEq, Except.ok.injEq] at hbuild
    obtain ⟨rfl, rfl⟩ := hbuild
    rw [ih]

/-- The laboratory of the book answers by the book. -/
theorem Answers.gives_laboratory (a : Answers) : a.laboratory.Gives a where
  initialPrompt _ _ := rfl
  mutationPrompt _ _ _ := rfl
  repairPrompt := rfl
  reply hcourse _ hask := by
    obtain rfl := eq_of_course hcourse
    simp only [laboratory, Prod.mk.injEq, Exchange.reply.injEq] at hask
    exact Prod.ext hask.1.1 hask.1.2
  build hcourse _ _ hbuild := by
    obtain rfl := eq_of_course hcourse
    exact Except.ok.inj (Prod.mk.inj hbuild).1
  experiment hcourse _ hmeasure := by
    obtain rfl := eq_of_course hcourse
    exact Except.ok.inj (Prod.mk.inj hmeasure).1

end Course

namespace Evolution

/-! ## Steps that follow the book -/

section Follows

variable {σ α β : Type} {lab : Laboratory σ} {a : Answers} {slot : Slot} {session : Nat}

/-- From transcripts of the one kind, what the steps come to in a conversation, the steps of the
book come to as well, and they lead to a transcript of the other kind. -/
def Follows (lab : Laboratory σ) (slot : Slot) (session : Nat) (before : Transcript → Prop)
    (steps : EStateM Failure (Conversation σ) α)
    (book : EStateM Failure (Conversation Transcript) α) (after : α → Transcript → Prop) : Prop :=
  ∀ t c x c', Course lab slot session t c.world → before t → steps c = .ok x c' →
    ∃ t', Course lab slot session t' c'.world ∧ after x t' ∧
      book ⟨t, c.turns⟩ = .ok x ⟨t', c'.turns⟩

theorem Follows.pure {before : Transcript → Prop} {after : α → Transcript → Prop} {x : α}
    (h : ∀ t, before t → after x t) :
    Follows lab slot session before (Pure.pure x) (Pure.pure x) after := by
  intro t c y c' hcourse hbefore hpure
  obtain ⟨rfl, rfl⟩ := EStateM.Result.ok.inj hpure
  exact ⟨t, hcourse, h t hbefore, rfl⟩

theorem Follows.bind {before : Transcript → Prop} {mid : α → Transcript → Prop}
    {after : β → Transcript → Prop} {x : EStateM Failure (Conversation σ) α}
    {x' : EStateM Failure (Conversation Transcript) α}
    {f : α → EStateM Failure (Conversation σ) β}
    {f' : α → EStateM Failure (Conversation Transcript) β}
    (hx : Follows lab slot session before x x' mid)
    (hf : ∀ y, Follows lab slot session (mid y) (f y) (f' y) after) :
    Follows lab slot session before (x >>= f) (x' >>= f') after := by
  intro t c z c' hcourse hbefore h
  obtain ⟨y, d, hy, hz⟩ := bind_eq_ok_iff.mp h
  obtain ⟨u, hcourse', hmid, hbook⟩ := hx t c y d hcourse hbefore hy
  obtain ⟨t', hcourse'', hafter, hbook'⟩ := hf y u d z c' hcourse' hmid hz
  exact ⟨t', hcourse'', hafter, by rw [bind_of_ok hbook]; exact hbook'⟩

/-- A request that is answered in the end is answered by the book, however often it failed. The
induction is on the retries that are left. -/
theorem request_course (hgives : lab.Gives a) {policy : Policy} {prompt reply : String}
    {usage : Usage} {retries : Nat} {t : Transcript} {w w' : σ}
    (hcourse : Course lab slot session t w) (hopen : ¬ EndsBuilt t)
    (h : Conversation.request (lab.ask slot session) policy prompt retries w
      = (.ok (reply, usage), w')) :
    a.reply slot t prompt = (reply, usage) ∧
      Course lab slot session (.said prompt reply usage :: t) w' := by
  induction retries generalizing w with
  | zero =>
    rw [Conversation.request] at h
    split at h
    · next hask =>
      simp only [Prod.mk.injEq, Except.ok.injEq] at h
      obtain ⟨⟨rfl, rfl⟩, rfl⟩ := h
      exact ⟨hgives.reply hcourse hopen hask, .said hcourse hopen hask⟩
    · simp at h
  | succ retries ih =>
    rw [Conversation.request] at h
    split at h
    · next hask =>
      simp only [Prod.mk.injEq, Except.ok.injEq] at h
      obtain ⟨⟨rfl, rfl⟩, rfl⟩ := h
      exact ⟨hgives.reply hcourse hopen hask, .said hcourse hopen hask⟩
    · next hfault hask =>
      exact ih (.unanswered hcourse hopen hask fun _ _ heq => hfault _ _ heq) h

/-- The book answers at once. -/
theorem request_laboratory (a : Answers) (policy : Policy) (prompt : String) (retries n : Nat)
    (t : Transcript) :
    Conversation.request (a.laboratory.ask slot n) policy prompt retries t
      = (.ok (a.reply slot t prompt),
          .said prompt (a.reply slot t prompt).1 (a.reply slot t prompt).2 :: t) := by
  cases retries <;> rfl

theorem send_follows (hgives : lab.Gives a) (policy : Policy) (prompt : String) (n : Nat) :
    Follows lab slot session (fun t => ¬ EndsBuilt t)
      (Conversation.send (lab.ask slot session) policy prompt)
      (Conversation.send (a.laboratory.ask slot n) policy prompt) Brings := by
  intro t c r c' hcourse hopen h
  rw [Conversation.send] at h
  split at h
  · next reply usage w hrequest =>
    obtain ⟨rfl, rfl⟩ := EStateM.Result.ok.inj h
    obtain ⟨hreply, hcourse'⟩ := request_course hgives hcourse hopen hrequest
    refine ⟨_, hcourse', rfl, ?_⟩
    rw [Conversation.send, request_laboratory, hreply]
  · cases h

/-! ## The cycle and the record follow the book -/

variable {settings : Settings}

/-- A build of the code that the last reply brought. -/
theorem buildStep_follows (hgives : lab.Gives a) {r : Response} {code : String}
    (hcode : r.primaryCode = some code) (n : Nat) :
    Follows lab slot session (Brings r)
      (Repair.buildStep (tools lab settings slot session) code)
      (Repair.buildStep (tools a.laboratory settings slot n) code)
      fun result t => EndsBuilt t ↔ result.success = true := by
  intro t c result c' hcourse hbrings h
  rw [Repair.buildStep] at h
  split at h
  · next result w hbuild =>
    obtain ⟨rfl, rfl⟩ := EStateM.Result.ok.inj h
    have hanswer := hgives.build hcourse hbrings hcode hbuild
    refine ⟨_, .built hcourse hbrings hcode hbuild, Iff.rfl, ?_⟩
    rw [Repair.buildStep, ← hanswer]
    rfl
  · cases h

theorem attempt_follows (hgives : lab.Gives a) (number : Nat) (prompt : String)
    (response : Response) (n : Nat) :
    Follows lab slot session (Brings response)
      (Repair.attempt (tools lab settings slot session) number prompt response)
      (Repair.attempt (tools a.laboratory settings slot n) number prompt response)
      fun x t => EndsBuilt t ↔ x.1.built = true := by
  unfold Repair.attempt
  cases hcode : response.primaryCode with
  | none => exact .pure fun t hbrings => iff_of_false hbrings.not_endsBuilt Bool.false_ne_true
  | some code =>
    refine (buildStep_follows hgives hcode n).bind fun result => ?_
    have hrepair : (tools lab settings slot session).repairPrompt
        = (tools a.laboratory settings slot n).repairPrompt := hgives.repairPrompt
    rw [hrepair]
    exact .pure fun t hbuilt => hbuilt

/-- The cycle ends behind a build that succeeded if it says so. -/
theorem cycle_follows (hgives : lab.Gives a) (left number : Nat) (earlier : Option String)
    (prompt : String) (response : Response) (n : Nat) :
    Follows lab slot session (Brings response)
      (Repair.cycle (tools lab settings slot session) left number earlier prompt response)
      (Repair.cycle (tools a.laboratory settings slot n) left number earlier prompt response)
      fun repaired t => repaired.built = true → EndsBuilt t := by
  induction left generalizing number earlier prompt response with
  | zero => exact .pure fun t _ hbuilt => absurd hbuilt Bool.false_ne_true
  | succ left ih =>
    rw [Repair.cycle, Repair.cycle]
    refine (attempt_follows hgives number prompt response n).bind fun ⟨v, code, next⟩ => ?_
    simp only
    split
    · exact .pure fun t hended => hended.mpr
    · next hgoes =>
      have hfailed : v.built ≠ true := fun hbuilt => hgoes (by rw [hbuilt]; rfl)
      have hsend : Follows lab slot session (fun t => EndsBuilt t ↔ v.built = true)
          (Conversation.send (lab.ask slot session) settings.policy next)
          (Conversation.send (a.laboratory.ask slot n) settings.policy next) Brings :=
        fun t c r c' hcourse hended =>
          send_follows hgives settings.policy next n t c r c' hcourse (mt hended.mp hfailed)
      refine hsend.bind fun reply => ?_
      exact (ih (number + 1) _ next reply).bind fun rest => .pure fun t hended => hended

theorem talk_follows (hgives : lab.Gives a) (prompt : String) (n : Nat) :
    Follows lab slot session (fun t => ¬ EndsBuilt t) (talk lab settings slot session prompt)
      (talk a.laboratory settings slot n prompt)
      fun repaired t => repaired.built = true → EndsBuilt t :=
  (send_follows hgives settings.policy prompt n).bind fun response =>
    cycle_follows hgives settings.buildAttempts 0 none prompt response n

end Follows

section Records

variable {σ : Type} {lab : Laboratory σ} {a : Answers} {slot : Slot} {settings : Settings}
  {parents : Option Parents}

/-- The first prompt is the one in the book. -/
theorem firstPrompt_follows (hgives : lab.Gives a) {prompt : String} {s s' : State σ}
    (h : firstPrompt lab slot parents s = .ok prompt s') (u : State Transcript) :
    firstPrompt a.laboratory slot parents u = .ok prompt u := by
  cases parents with
  | none =>
    have hprompt := hgives.initialPrompt slot s.world
    obtain ⟨rfl, -⟩ := EStateM.Result.ok.inj h
    rw [hprompt]
    rfl
  | some p =>
    have hprompt := hgives.mutationPrompt slot p.codes s.world
    obtain ⟨rfl, -⟩ := EStateM.Result.ok.inj h
    rw [hprompt]
    rfl

theorem measure_follows (hgives : lab.Gives a) {session : Nat} {t : Transcript} {s s' : State σ}
    {repaired : RepairResult} {c : Candidate} (hcourse : Course lab slot session t s.world)
    (hended : repaired.built = true → EndsBuilt t)
    (h : measure lab slot parents repaired s = .ok c s') (l : Ledger) :
    measure a.laboratory slot parents repaired ⟨l, t⟩ = .ok c ⟨l, t⟩ := by
  unfold measure at h ⊢
  split
  · next hbuilt =>
    rw [if_pos hbuilt] at h
    obtain ⟨outcome, _, hmeasure, h⟩ := bind_eq_ok_iff.mp h
    obtain ⟨rfl, -⟩ := EStateM.Result.ok.inj h
    obtain ⟨hfst, -⟩ := outsideExcept_eq_ok_iff.mp hmeasure
    rw [← hgives.experiment hcourse (hended hbuilt) (Prod.ext hfst rfl)]
    rfl
  · next hbuilt =>
    rw [if_neg hbuilt] at h
    obtain ⟨rfl, -⟩ := EStateM.Result.ok.inj h
    rfl

/-- **The record of a slot is the record of the book.** If a laboratory that answers by the book
comes to a record, then the book comes to the same one, from any state. -/
theorem runSlot_follows (hgives : lab.Gives a) {s s' : State σ} {c : Candidate}
    (h : runSlot lab settings slot parents s = .ok c s') (u : State Transcript) :
    ∃ t, runSlot a.laboratory settings slot parents u = .ok c ⟨u.ledger, t⟩ := by
  rw [runSlot_eq] at h
  obtain ⟨prompt, s₁, hprompt, hthen⟩ := bind_eq_ok_iff.mp h
  obtain ⟨session, s₂, hopen, hconversed⟩ := bind_eq_ok_iff.mp hthen
  obtain ⟨repaired, s₃, htalk, hmeasured⟩ := bind_eq_ok_iff.mp hconversed
  obtain ⟨d, hsaid, rfl⟩ := converse_eq_ok_iff.mp htalk
  obtain ⟨rfl, rfl⟩ := EStateM.Result.ok.inj hopen
  obtain ⟨t, hcourse, hended, hbook⟩ :=
    talk_follows hgives prompt 0 [] _ _ _ (.opened s₁.world) id hsaid
  have hmeasure := measure_follows hgives hcourse hended hmeasured u.ledger
  have hconverse : converse (talk a.laboratory settings slot 0 prompt) ⟨u.ledger, []⟩
      = .ok repaired ⟨u.ledger, t⟩ := converse_eq_ok_iff.mpr ⟨_, hbook, rfl⟩
  refine ⟨t, ?_⟩
  rw [runSlot_eq, bind_of_ok (firstPrompt_follows hgives hprompt u)]
  have hsession : outside (a.laboratory.openSession slot) u = .ok 0 ⟨u.ledger, []⟩ := rfl
  rw [bind_of_ok hsession, bind_of_ok hconverse, hmeasure]

end Records

end Evolution

end HeuristicEvolution

import HeuristicEvolution.Proofs.Evolution.Steps
import HeuristicEvolution.Evolution.Scripted
import Mathlib

/-!
# The course of a build-repair cycle

A cycle talks to a model and to a build in turns. What it leaves are the revisions, and they tell
every call that was made: the code of each reply was built once, and each revision but the first
holds a prompt that was sent and the reply to it. This module says which lists of revisions a cycle
can leave, `Repair.Course`, and which calls belong to them, `Repair.callsOf`; together they decide
how a cycle ends (`Repair.run_course`).

## Calls and states

The model and the build are any functions on any states, so a call is known by the state before it
and the state after it. `Repair.Made` strings calls together. A cycle ends with a result exactly if
the calls that belong to this result lead from the first state to the last one; hence there are no
other calls among them, and none after them.

A cycle that starts in the middle has a number, attempts left, and a code that was built before. The
induction is on the attempts left.

## Main definitions

* `Repair.Call`, `Repair.Made`: calls, and what they make of a state.
* `Repair.Course`: what a cycle leaves.
* `Repair.Stops`: the call with which a cycle fails.

## Main results

* `Repair.cycle_eq_ok_iff`, `Repair.cycle_eq_error_iff`: how a cycle ends, from any attempt on.
* `Repair.run_course`
-/

namespace HeuristicEvolution.Repair

open Evolution (bind_eq_ok_iff bind_eq_error_iff)

variable {σ : Type}

/-! ## Calls -/

/-- A call of a cycle that came to its end, with what it brought. -/
inductive Call where
  | built (code : String) (result : BuildResult)
  | sent (prompt : String) (reply : Response)
  deriving DecidableEq, Repr

/-- The calls that an attempt makes by itself: a build if the reply has code. -/
def buildsOf (v : Revision) : List Call :=
  match v.response.primaryCode with
  | some code => [.built code ⟨v.built, v.stdout, v.stderr⟩]
  | none => []

/-- The calls that belong to an attempt after the first one: its prompt is sent, and it is made. -/
def turnOf (v : Revision) : List Call := .sent v.prompt v.response :: buildsOf v

/-- The calls that belong to a list of attempts. The first prompt was sent before. -/
def callsOf : List Revision → List Call
  | [] => []
  | v :: rest => buildsOf v ++ rest.flatMap turnOf

/-- The prompt that follows an attempt: the logs of its build, or a request for code. -/
def followUp (tools : Tools σ) (v : Revision) : String :=
  match v.response.primaryCode with
  | some _ => tools.repairPrompt v.stdout v.stderr
  | none => Prompt.noCodeReprompt

/-- The calls, made one after another, lead from one state to another. -/
inductive Made (tools : Tools σ) : Conversation σ → List Call → Conversation σ → Prop
  | nil (c : Conversation σ) : Made tools c [] c
  | built {c d e : Conversation σ} {code : String} {result : BuildResult} {calls : List Call} :
      buildStep tools code c = .ok result d → Made tools d calls e →
      Made tools c (.built code result :: calls) e
  | sent {c d e : Conversation σ} {prompt : String} {reply : Response} {calls : List Call} :
      Conversation.send tools.ask tools.policy prompt c = .ok reply d → Made tools d calls e →
      Made tools c (.sent prompt reply :: calls) e

variable {tools : Tools σ} {c c' d : Conversation σ} {v w : Revision}

theorem made_append_iff {xs ys : List Call} :
    Made tools c (xs ++ ys) c' ↔ ∃ d, Made tools c xs d ∧ Made tools d ys c' := by
  constructor
  · intro h
    induction xs generalizing c with
    | nil => exact ⟨c, .nil c, h⟩
    | cons x xs ih =>
      cases h with
      | built hx hrest =>
        obtain ⟨e, hxs, hys⟩ := ih hrest
        exact ⟨e, .built hx hxs, hys⟩
      | sent hx hrest =>
        obtain ⟨e, hxs, hys⟩ := ih hrest
        exact ⟨e, .sent hx hxs, hys⟩
  · rintro ⟨e, hxs, hys⟩
    induction hxs with
    | nil => exact hys
    | built hx _ ih => exact .built hx (ih hys)
    | sent hx _ ih => exact .sent hx (ih hys)

theorem made_sent_iff {prompt : String} {reply : Response} {calls : List Call} :
    Made tools c (.sent prompt reply :: calls) c' ↔
      ∃ d, Conversation.send tools.ask tools.policy prompt c = .ok reply d ∧
        Made tools d calls c' := by
  constructor
  · rintro (_ | _ | ⟨hsend, hrest⟩)
    exact ⟨_, hsend, hrest⟩
  · rintro ⟨d, hsend, hrest⟩
    exact .sent hsend hrest

@[simp] theorem made_nil_iff : Made tools c [] c' ↔ c = c' := by
  constructor
  · rintro ⟨⟩
    rfl
  · rintro rfl
    exact .nil c

/-! ## Attempts -/

/-- The attempt is the one with this number, on this prompt and reply. Without code nothing was
built, and the log says so. -/
structure IsAttempt (v : Revision) (number : Nat) (prompt : String) (response : Response) :
    Prop where
  attempt_eq : v.attempt = number
  prompt_eq : v.prompt = prompt
  response_eq : v.response = response
  codeless : v.response.primaryCode = none →
    v.built = false ∧ v.stdout = Prompt.noCodeDiagnostic ∧ v.stderr = ""

/-- **One attempt** builds the code of its reply, if there is any, and does nothing else. -/
theorem attempt_eq_ok_iff {number : Nat} {prompt next : String} {response : Response}
    {code : Option String} :
    attempt tools number prompt response c = .ok (v, code, next) c' ↔
      IsAttempt v number prompt response ∧ code = response.primaryCode ∧
        next = followUp tools v ∧ Made tools c (buildsOf v) c' := by
  unfold attempt
  cases hcode : response.primaryCode with
  | none =>
    constructor
    · rintro ⟨⟩
      exact ⟨⟨rfl, rfl, rfl, fun _ => ⟨rfl, rfl, rfl⟩⟩, rfl, by simp [followUp, hcode],
        by simp [buildsOf, hcode]⟩
    · rintro ⟨⟨hnumber, hprompt, hresponse, hless⟩, rfl, rfl, hmade⟩
      have hnone : v.response.primaryCode = none := hresponse ▸ hcode
      obtain ⟨hbuilt, hstdout, hstderr⟩ := hless hnone
      have hv : v = ⟨number, false, Prompt.noCodeDiagnostic, "", prompt, response⟩ := by
        cases v
        simp_all
      obtain rfl : c = c' := by simpa [buildsOf, hnone] using hmade
      simp only [followUp, hnone]
      rw [hv]
      rfl
  | some code =>
    constructor
    · intro h
      obtain ⟨result, d, hbuild, h⟩ := bind_eq_ok_iff.mp h
      obtain ⟨hv, rfl⟩ := EStateM.Result.ok.inj h
      simp only [Prod.mk.injEq] at hv
      obtain ⟨rfl, rfl, rfl⟩ := hv
      refine ⟨⟨rfl, rfl, rfl, fun hnone => ?_⟩, rfl, by simp [followUp, hcode], ?_⟩
      · exact nomatch hcode.symm.trans hnone
      · simp only [buildsOf, hcode]
        exact .built hbuild (.nil d)
    · rintro ⟨⟨hnumber, hprompt, hresponse, -⟩, rfl, rfl, hmade⟩
      have hsome : v.response.primaryCode = some code := hresponse ▸ hcode
      rw [buildsOf, hsome] at hmade
      obtain _ | ⟨hbuild, hnil⟩ := hmade
      obtain rfl := made_nil_iff.mp hnil
      refine bind_eq_ok_iff.mpr ⟨_, _, hbuild, ?_⟩
      simp only [followUp, hsome]
      subst hnumber hprompt hresponse
      rfl

/-- An attempt fails with the build of its code. -/
theorem attempt_eq_error_iff {number : Nat} {prompt : String} {response : Response} {e : Failure} :
    attempt tools number prompt response c = .error e c' ↔
      ∃ code, response.primaryCode = some code ∧ buildStep tools code c = .error e c' := by
  unfold attempt
  cases response.primaryCode with
  | none => exact ⟨nofun, nofun⟩
  | some code =>
    constructor
    · intro h
      obtain hbuild | ⟨result, d, -, h⟩ := bind_eq_error_iff.mp h
      · exact ⟨code, rfl, hbuild⟩
      · exact nomatch h
    · rintro ⟨_, ⟨⟩, hbuild⟩
      exact bind_eq_error_iff.mpr (.inl hbuild)

/-! ## Lists of attempts -/

/-- The attempts are numbered in order from a number on. The first one is on the given prompt and
reply, and each prompt after that follows the attempt before it. -/
structure Attempts (tools : Tools σ) (number : Nat) (prompt : String) (response : Response)
    (vs : List Revision) : Prop where
  first : ∀ v ∈ vs.head?, v.prompt = prompt ∧ v.response = response
  numbered : vs.map Revision.attempt = List.range' number vs.length
  prompts : vs.IsChain fun v w => w.prompt = followUp tools v
  codeless : ∀ v ∈ vs, v.response.primaryCode = none →
    v.built = false ∧ v.stdout = Prompt.noCodeDiagnostic ∧ v.stderr = ""

section Attempts

variable {number : Nat} {prompt : String} {response : Response} {vs : List Revision}

theorem attempts_singleton_iff :
    Attempts tools number prompt response [v] ↔ IsAttempt v number prompt response := by
  constructor
  · rintro ⟨hfirst, hnumbered, -, hless⟩
    obtain ⟨hprompt, hresponse⟩ := hfirst v rfl
    exact ⟨by simpa using hnumbered, hprompt, hresponse, hless v (by simp)⟩
  · rintro ⟨hnumber, hprompt, hresponse, hless⟩
    exact ⟨by simp [hprompt, hresponse], by simp [hnumber], by simp, by simpa using hless⟩

theorem attempts_cons_cons_iff :
    Attempts tools number prompt response (v :: w :: vs) ↔
      IsAttempt v number prompt response ∧
        Attempts tools (number + 1) (followUp tools v) w.response (w :: vs) := by
  constructor
  · rintro ⟨hfirst, hnumbered, hprompts, hless⟩
    obtain ⟨hprompt, hresponse⟩ := hfirst v rfl
    obtain ⟨hfollows, hrest⟩ := List.isChain_cons_cons.mp hprompts
    rw [List.map_cons, List.length_cons, List.range'_succ, List.cons.injEq] at hnumbered
    exact ⟨⟨hnumbered.1, hprompt, hresponse, hless v (by simp)⟩, by simp [hfollows],
      hnumbered.2, hrest, fun u hu => hless u (List.mem_cons_of_mem _ hu)⟩
  · rintro ⟨⟨hnumber, hprompt, hresponse, hless⟩, hfirst, hnumbered, hprompts, hrest⟩
    refine ⟨by simp [hprompt, hresponse], ?_, ?_, List.forall_mem_cons.mpr ⟨hless, hrest⟩⟩
    · rw [List.map_cons, hnumbered, hnumber]
      rfl
    · exact List.isChain_cons_cons.mpr ⟨(hfirst w rfl).1, hprompts⟩

theorem callsOf_cons_cons :
    callsOf (v :: w :: vs) = buildsOf v ++ .sent w.prompt w.response :: callsOf (w :: vs) := by
  simp [callsOf, turnOf]

/-- Two attempts in a row are an attempt, a prompt that is sent, and all that follows. -/
theorem made_callsOf_cons_cons_iff :
    Made tools c (callsOf (v :: w :: vs)) c' ↔
      ∃ d, Made tools c (buildsOf v) d ∧
        ∃ e, Conversation.send tools.ask tools.policy w.prompt d = .ok w.response e ∧
          Made tools e (callsOf (w :: vs)) c' := by
  rw [callsOf_cons_cons, made_append_iff]
  simp only [made_sent_iff]

end Attempts

/-! ## Results -/

/-- What a cycle leaves that starts with the attempt `number`, makes at most `left` attempts and has
`earlier` as the code that was built before. -/
structure Course (tools : Tools σ) (left number : Nat) (earlier : Option String) (prompt : String)
    (response : Response) (r : RepairResult) : Prop where
  attempts : Attempts tools number prompt response r.revisions
  length_pos : 0 < r.revisions.length
  length_le : r.revisions.length ≤ left
  failed_before_last : ∀ v ∈ r.revisions.dropLast, v.built = false
  built_of_last : ∀ v ∈ r.revisions.getLast?, v.built = r.built
  built_of_short : r.revisions.length < left → r.built = true
  finalCode_eq :
    r.finalCode = (r.revisions.filterMap fun v => v.response.primaryCode).getLast?.or earlier

section Course

variable {left number : Nat} {earlier code : Option String} {prompt : String} {response : Response}
  {vs : List Revision} {built : Bool}

/-- A cycle that stops after one attempt. -/
theorem course_singleton_iff :
    Course tools (left + 1) number earlier prompt response ⟨built, code, [v]⟩ ↔
      IsAttempt v number prompt response ∧ (v.built = true ∨ left = 0) ∧ built = v.built ∧
        code = v.response.primaryCode.or earlier := by
  have hcode : ([v].filterMap fun v => v.response.primaryCode).getLast?.or earlier
      = v.response.primaryCode.or earlier := by
    cases h : v.response.primaryCode <;> simp [h]
  constructor
  · rintro ⟨hattempts, -, -, -, hlast, hshort, hfinal⟩
    obtain rfl : v.built = built := hlast v rfl
    refine ⟨attempts_singleton_iff.mp hattempts, ?_, rfl, hfinal.trans hcode⟩
    rcases Nat.eq_zero_or_pos left with hleft | hleft
    · exact .inr hleft
    · exact .inl (hshort (by simpa using hleft))
  · rintro ⟨hattempt, hstop, rfl, rfl⟩
    refine ⟨attempts_singleton_iff.mpr hattempt, by simp, by simp, by simp, by simp, ?_, hcode.symm⟩
    intro hshort
    exact hstop.resolve_right fun hleft => by simp [hleft] at hshort

/-- A cycle that goes on after a failed attempt. -/
theorem course_cons_cons_iff :
    Course tools (left + 1) number earlier prompt response ⟨built, code, v :: w :: vs⟩ ↔
      IsAttempt v number prompt response ∧ v.built = false ∧
        Course tools left (number + 1) (v.response.primaryCode.or earlier) (followUp tools v)
          w.response ⟨built, code, w :: vs⟩ := by
  have hcode : ((v :: w :: vs).filterMap fun v => v.response.primaryCode).getLast?.or earlier
      = ((w :: vs).filterMap fun v => v.response.primaryCode).getLast?.or
        (v.response.primaryCode.or earlier) := by
    cases h : v.response.primaryCode with
    | none => rw [List.filterMap_cons, h, Option.none_or]
    | some code =>
      rw [List.filterMap_cons, h, List.getLast?_cons, Option.some_or]
      cases ((w :: vs).filterMap fun v => v.response.primaryCode).getLast? <;> rfl
  constructor
  · rintro ⟨hattempts, -, hle, hfailed, hlast, hshort, hfinal⟩
    obtain ⟨hattempt, hrest⟩ := attempts_cons_cons_iff.mp hattempts
    simp only [List.dropLast_cons_cons, List.forall_mem_cons] at hfailed
    exact ⟨hattempt, hfailed.1, hrest, by simp, Nat.le_of_succ_le_succ hle, hfailed.2,
      by simpa using hlast, fun h => hshort (Nat.succ_lt_succ h), hfinal.trans hcode⟩
  · rintro ⟨hattempt, hbuilt, hrest, -, hle, hfailed, hlast, hshort, hfinal⟩
    refine ⟨attempts_cons_cons_iff.mpr ⟨hattempt, hrest⟩, by simp, Nat.succ_le_succ hle, ?_,
      by simpa using hlast, fun h => hshort (Nat.lt_of_succ_lt_succ h), hfinal.trans hcode.symm⟩
    simp only [List.dropLast_cons_cons, List.forall_mem_cons]
    exact ⟨hbuilt, hfailed⟩

end Course

/-! ## How a cycle ends -/

/-- The call with which a cycle fails, after all attempts up to the given one: the build of the
first reply, or the prompt that follows the last attempt, or the build of the reply to it. -/
inductive Stops (tools : Tools σ) (first : Response) (c : Conversation σ) :
    Option Revision → Failure → Conversation σ → Prop
  | firstBuild {code : String} {e : Failure} {c' : Conversation σ} :
      first.primaryCode = some code → buildStep tools code c = .error e c' →
      Stops tools first c none e c'
  | prompt {v : Revision} {e : Failure} {c' : Conversation σ} :
      Conversation.send tools.ask tools.policy (followUp tools v) c = .error e c' →
      Stops tools first c (some v) e c'
  | build {v : Revision} {reply : Response} {code : String} {e : Failure} {d c' : Conversation σ} :
      Conversation.send tools.ask tools.policy (followUp tools v) c = .ok reply d →
      reply.primaryCode = some code → buildStep tools code d = .error e c' →
      Stops tools first c (some v) e c'

/-- Once an attempt was made, the first reply has no part in how the cycle fails. -/
theorem Stops.of_some {first first' : Response} {e : Failure}
    (h : Stops tools first c (some v) e c') : Stops tools first' c (some v) e c' := by
  cases h with
  | prompt hsend => exact .prompt hsend
  | build hsend hcode hbuild => exact .build hsend hcode hbuild

theorem stops_cons_cons_iff {first first' : Response} {vs : List Revision} {e : Failure} :
    Stops tools first c (v :: w :: vs).getLast? e c' ↔
      Stops tools first' c (w :: vs).getLast? e c' := by
  rw [List.getLast?_cons_cons, List.getLast?_cons]
  exact ⟨Stops.of_some, Stops.of_some⟩

section Cycle

variable {left number : Nat} {earlier : Option String} {prompt : String} {response : Response}
  {r : RepairResult} {e : Failure}

/-- A cycle stops after its first attempt, or sends the prompt that follows it and goes on. -/
theorem cycle_succ_eq_ok_iff :
    cycle tools (left + 1) number earlier prompt response c = .ok r c' ↔
      ∃ v d, IsAttempt v number prompt response ∧ Made tools c (buildsOf v) d ∧
        (((v.built = true ∨ left = 0) ∧ d = c' ∧
            r = ⟨v.built, v.response.primaryCode.or earlier, [v]⟩) ∨
          (v.built = false ∧ left ≠ 0 ∧ ∃ reply d₁ rest,
            Conversation.send tools.ask tools.policy (followUp tools v) d = .ok reply d₁ ∧
            cycle tools left (number + 1) (v.response.primaryCode.or earlier) (followUp tools v)
              reply d₁ = .ok rest c' ∧
            r = { rest with revisions := v :: rest.revisions })) := by
  rw [cycle, bind_eq_ok_iff]
  constructor
  · rintro ⟨⟨v, code, next⟩, d, hattempt, h⟩
    obtain ⟨hv, rfl, rfl, hmade⟩ := attempt_eq_ok_iff.mp hattempt
    refine ⟨v, d, hv, hmade, ?_⟩
    rw [hv.response_eq]
    simp only at h
    split at h
    · next hstop =>
      obtain ⟨rfl, rfl⟩ := EStateM.Result.ok.inj h
      exact .inl ⟨by simpa using hstop, rfl, rfl⟩
    · next hgo =>
      obtain ⟨reply, d₁, hsend, h⟩ := bind_eq_ok_iff.mp h
      obtain ⟨rest, d₂, hrest, h⟩ := bind_eq_ok_iff.mp h
      obtain ⟨rfl, rfl⟩ := EStateM.Result.ok.inj h
      simp only [Bool.or_eq_true, decide_eq_true_eq, not_or, Bool.not_eq_true] at hgo
      exact .inr ⟨hgo.1, hgo.2, reply, d₁, rest, hsend, hrest, rfl⟩
  · rintro ⟨v, d, hv, hmade, hend⟩
    refine ⟨_, d, attempt_eq_ok_iff.mpr ⟨hv, rfl, rfl, hmade⟩, ?_⟩
    rw [← hv.response_eq]
    rcases hend with ⟨hstop, rfl, rfl⟩ | ⟨hbuilt, hleft, reply, d₁, rest, hsend, hrest, rfl⟩
    · simp only [Bool.or_eq_true, decide_eq_true_eq, hstop, if_true]
      rfl
    · simp only [hbuilt, Bool.false_or, decide_eq_true_eq, hleft, if_false]
      exact bind_eq_ok_iff.mpr ⟨reply, d₁, hsend, bind_eq_ok_iff.mpr ⟨rest, c', hrest, rfl⟩⟩

/-- **How a cycle ends well.** -/
theorem cycle_eq_ok_iff (hleft : 0 < left) :
    cycle tools left number earlier prompt response c = .ok r c' ↔
      Course tools left number earlier prompt response r ∧
        Made tools c (callsOf r.revisions) c' := by
  induction left generalizing number earlier prompt response c r with
  | zero => exact absurd hleft (Nat.lt_irrefl 0)
  | succ left ih =>
    rw [cycle_succ_eq_ok_iff]
    constructor
    · rintro ⟨v, d, hv, hmade,
        ⟨hstop, rfl, rfl⟩ | ⟨hbuilt, hgo, reply, d₁, rest, hsend, hrest, rfl⟩⟩
      · exact ⟨course_singleton_iff.mpr ⟨hv, hstop, rfl, rfl⟩, by simpa [callsOf] using hmade⟩
      · obtain ⟨hcourse, hcalls⟩ := (ih (Nat.pos_of_ne_zero hgo)).mp hrest
        obtain ⟨built, code, _ | ⟨w, ws⟩⟩ := rest
        · exact absurd hcourse.length_pos (Nat.lt_irrefl 0)
        obtain ⟨hprompt, hreply⟩ := hcourse.attempts.first w rfl
        subst hreply
        refine ⟨course_cons_cons_iff.mpr ⟨hv, hbuilt, hcourse⟩, ?_⟩
        exact made_callsOf_cons_cons_iff.mpr ⟨d, hmade, d₁, hprompt ▸ hsend, hcalls⟩
    · rintro ⟨hcourse, hcalls⟩
      obtain ⟨built, code, _ | ⟨v, _ | ⟨w, ws⟩⟩⟩ := r
      · exact absurd hcourse.length_pos (Nat.lt_irrefl 0)
      · obtain ⟨hv, hstop, rfl, rfl⟩ := course_singleton_iff.mp hcourse
        exact ⟨v, c', hv, by simpa [callsOf] using hcalls, .inl ⟨hstop, rfl, rfl⟩⟩
      · obtain ⟨hv, hbuilt, hrest⟩ := course_cons_cons_iff.mp hcourse
        obtain ⟨d, hmade, d₁, hsend, hcalls⟩ := made_callsOf_cons_cons_iff.mp hcalls
        obtain ⟨hprompt, -⟩ := hrest.attempts.first w rfl
        have hgo : 0 < left := Nat.lt_of_lt_of_le (by simp) hrest.length_le
        exact ⟨v, d, hv, hmade, .inr ⟨hbuilt, Nat.ne_of_gt hgo, w.response, d₁, _,
          hprompt ▸ hsend, (ih hgo).mpr ⟨hrest, hcalls⟩, rfl⟩⟩

/-- A cycle fails with the build of its first attempt, with the prompt that follows it, or later. -/
theorem cycle_succ_eq_error_iff :
    cycle tools (left + 1) number earlier prompt response c = .error e c' ↔
      (∃ code, response.primaryCode = some code ∧ buildStep tools code c = .error e c') ∨
      ∃ v d, IsAttempt v number prompt response ∧ Made tools c (buildsOf v) d ∧ v.built = false ∧
        left ≠ 0 ∧
        (Conversation.send tools.ask tools.policy (followUp tools v) d = .error e c' ∨
          ∃ reply d₁,
            Conversation.send tools.ask tools.policy (followUp tools v) d = .ok reply d₁ ∧
            cycle tools left (number + 1) (v.response.primaryCode.or earlier) (followUp tools v)
              reply d₁ = .error e c') := by
  rw [cycle, bind_eq_error_iff, attempt_eq_error_iff]
  refine or_congr_right ?_
  constructor
  · rintro ⟨⟨v, code, next⟩, d, hattempt, h⟩
    obtain ⟨hv, rfl, rfl, hmade⟩ := attempt_eq_ok_iff.mp hattempt
    simp only at h
    split at h
    · exact nomatch h
    · next hgo =>
      simp only [Bool.or_eq_true, decide_eq_true_eq, not_or, Bool.not_eq_true] at hgo
      refine ⟨v, d, hv, hmade, hgo.1, hgo.2, ?_⟩
      rw [hv.response_eq]
      obtain hsend | ⟨reply, d₁, hsend, h⟩ := bind_eq_error_iff.mp h
      · exact .inl hsend
      · obtain hrest | ⟨rest, d₂, -, h⟩ := bind_eq_error_iff.mp h
        · exact .inr ⟨reply, d₁, hsend, hrest⟩
        · exact nomatch h
  · rintro ⟨v, d, hv, hmade, hbuilt, hgo, hfails⟩
    refine ⟨_, d, attempt_eq_ok_iff.mpr ⟨hv, rfl, rfl, hmade⟩, ?_⟩
    rw [← hv.response_eq]
    simp only [hbuilt, Bool.false_or, decide_eq_true_eq, hgo, if_false]
    rcases hfails with hsend | ⟨reply, d₁, hsend, hrest⟩
    · exact bind_eq_error_iff.mpr (.inl hsend)
    · exact bind_eq_error_iff.mpr (.inr ⟨reply, d₁, hsend, bind_eq_error_iff.mpr (.inl hrest)⟩)

/-- **How a cycle fails.** -/
theorem cycle_eq_error_iff :
    cycle tools left number earlier prompt response c = .error e c' ↔
      ∃ vs d, Attempts tools number prompt response vs ∧ (∀ v ∈ vs, v.built = false) ∧
        vs.length < left ∧ Made tools c (callsOf vs) d ∧
        Stops tools response d vs.getLast? e c' := by
  induction left generalizing number earlier prompt response c with
  | zero => exact ⟨nofun, fun ⟨_, _, _, _, hlt, _⟩ => absurd hlt (Nat.not_lt_zero _)⟩
  | succ left ih =>
    rw [cycle_succ_eq_error_iff]
    constructor
    · rintro (⟨code, hcode, hbuild⟩ | ⟨v, d, hv, hmade, hbuilt, hgo, hfails⟩)
      · exact ⟨[], c, ⟨by simp, by simp, by simp, by simp⟩, by simp, by simp, .nil c,
          .firstBuild hcode hbuild⟩
      have hone : Attempts tools number prompt response [v] := attempts_singleton_iff.mpr hv
      have hlt : [v].length < left + 1 := Nat.succ_lt_succ (Nat.pos_of_ne_zero hgo)
      have hcalls : Made tools c (callsOf [v]) d := by simpa [callsOf] using hmade
      rcases hfails with hsend | ⟨reply, d₁, hsend, hrest⟩
      · exact ⟨[v], d, hone, by simpa using hbuilt, hlt, hcalls, .prompt hsend⟩
      obtain ⟨_ | ⟨w, ws⟩, d₂, hattempts, hfailed, hless, hmore, hstops⟩ := ih.mp hrest
      · obtain rfl := made_nil_iff.mp hmore
        obtain ⟨hcode, hbuild⟩ := hstops
        exact ⟨[v], d, hone, by simpa using hbuilt, hlt, hcalls, .build hsend hcode hbuild⟩
      · obtain ⟨hprompt, hreply⟩ := hattempts.first w rfl
        subst hreply
        exact ⟨v :: w :: ws, d₂, attempts_cons_cons_iff.mpr ⟨hv, hattempts⟩,
          List.forall_mem_cons.mpr ⟨hbuilt, hfailed⟩, Nat.succ_lt_succ hless,
          made_callsOf_cons_cons_iff.mpr ⟨d, hmade, d₁, hprompt ▸ hsend, hmore⟩,
          stops_cons_cons_iff.mpr hstops⟩
    · rintro ⟨_ | ⟨v, _ | ⟨w, ws⟩⟩, d, hattempts, hfailed, hless, hmade, hstops⟩
      · obtain rfl := made_nil_iff.mp hmade
        obtain ⟨hcode, hbuild⟩ := hstops
        exact .inl ⟨_, hcode, hbuild⟩
      · have hgo : left ≠ 0 := Nat.ne_of_gt (Nat.lt_of_succ_lt_succ hless)
        refine .inr ⟨v, d, attempts_singleton_iff.mp hattempts, by simpa [callsOf] using hmade,
          hfailed v (by simp), hgo, ?_⟩
        cases hstops with
        | prompt hsend => exact .inl hsend
        | build hsend hcode hbuild =>
          refine .inr ⟨_, _, hsend, ih.mpr ⟨[], _, ⟨by simp, by simp, by simp, by simp⟩, by simp,
            Nat.pos_of_ne_zero hgo, .nil _, .firstBuild hcode hbuild⟩⟩
      · obtain ⟨hv, hrest⟩ := attempts_cons_cons_iff.mp hattempts
        obtain ⟨hbuilt, hfailed⟩ := List.forall_mem_cons.mp hfailed
        obtain ⟨d₀, hone, d₁, hsend, hmore⟩ := made_callsOf_cons_cons_iff.mp hmade
        obtain ⟨hprompt, -⟩ := hrest.first w rfl
        have hlt : (w :: ws).length < left := Nat.lt_of_succ_lt_succ hless
        exact .inr ⟨v, d₀, hv, hone, hbuilt, by omega, .inr ⟨w.response, d₁, hprompt ▸ hsend,
          ih.mpr ⟨w :: ws, d, hrest, hfailed, hlt, hmore, stops_cons_cons_iff.mp hstops⟩⟩⟩

end Cycle

/-! ## The whole cycle -/

/-- The code that a call builds. -/
def Call.code? : Call → Option String
  | .built code _ => some code
  | .sent _ _ => none

/-- The prompt that a call sends. -/
def Call.prompt? : Call → Option String
  | .built _ _ => none
  | .sent prompt _ => some prompt

theorem filterMap_code?_buildsOf :
    (buildsOf v).filterMap Call.code? = v.response.primaryCode.toList := by
  rw [buildsOf]
  cases v.response.primaryCode <;> rfl

theorem filterMap_prompt?_buildsOf : (buildsOf v).filterMap Call.prompt? = [] := by
  rw [buildsOf]
  cases v.response.primaryCode <;> rfl

/-- Each reply with code is built once, in order, and nothing else is built. -/
theorem filterMap_code?_callsOf (vs : List Revision) :
    (callsOf vs).filterMap Call.code? = vs.filterMap fun v => v.response.primaryCode := by
  have hturns : ∀ vs : List Revision, (vs.flatMap turnOf).filterMap Call.code?
      = vs.filterMap fun v => v.response.primaryCode := by
    intro vs
    induction vs with
    | nil => rfl
    | cons v rest ih =>
      rw [List.flatMap_cons, List.filterMap_append, ih, turnOf, List.filterMap_cons_none rfl,
        filterMap_code?_buildsOf, List.filterMap_cons]
      cases v.response.primaryCode <;> rfl
  cases vs with
  | nil => rfl
  | cons v rest =>
    rw [callsOf, List.filterMap_append, hturns, filterMap_code?_buildsOf, List.filterMap_cons]
    cases v.response.primaryCode <;> rfl

/-- The prompt of each attempt but the first is sent once, in order, and nothing else is sent. -/
theorem filterMap_prompt?_callsOf (vs : List Revision) :
    (callsOf vs).filterMap Call.prompt? = vs.tail.map Revision.prompt := by
  cases vs with
  | nil => rfl
  | cons v rest =>
    rw [callsOf, List.filterMap_append, filterMap_prompt?_buildsOf, List.nil_append, List.tail_cons]
    induction rest with
    | nil => rfl
    | cons w rest ih =>
      have hturn : (turnOf w).filterMap Call.prompt? = [w.prompt] :=
        congrArg (w.prompt :: ·) filterMap_prompt?_buildsOf
      rw [List.flatMap_cons, List.filterMap_append, ih, hturn]
      rfl

/-- **A cycle from beginning to end.** Let at least one attempt be allowed. Whatever the model and
the build answer, the cycle ends with a result exactly if this result is a course of attempts and
the calls that belong to it lead from the first state to the last one. It fails exactly if, after
attempts that all failed and the calls that belong to them, the next prompt or the next build fails,
with this failure, in the state that the failing call leaves. In the calls that belong to some
attempts each code is built once, and each prompt but the first is sent once, in order. -/
theorem run_course (tools : Tools σ) (bound : Nat) (prompt : String) (response : Response)
    (c : Conversation σ) (hbound : 0 < bound) :
    (∀ r c', run tools bound prompt response c = .ok r c' ↔
      Course tools bound 0 none prompt response r ∧ Made tools c (callsOf r.revisions) c') ∧
    (∀ e c', run tools bound prompt response c = .error e c' ↔
      ∃ vs d, Attempts tools 0 prompt response vs ∧ (∀ v ∈ vs, v.built = false) ∧
        vs.length < bound ∧ Made tools c (callsOf vs) d ∧
        Stops tools response d vs.getLast? e c') ∧
    ∀ vs, (callsOf vs).filterMap Call.code? = (vs.filterMap fun v => v.response.primaryCode) ∧
      (callsOf vs).filterMap Call.prompt? = vs.tail.map Revision.prompt :=
  ⟨fun _ _ => cycle_eq_ok_iff hbound, fun _ _ => cycle_eq_error_iff,
    fun vs => ⟨filterMap_code?_callsOf vs, filterMap_prompt?_callsOf vs⟩⟩

/-- A build that fails, a reply without code, and a build that succeeds at the last attempt. -/
theorem run_course_mended :
    let tools : Tools Script := ⟨Script.ask 0, Script.build, Script.repairPrompt, .standard⟩
    let first := Response.ofReply "\x60\x60\x60c\nv1\n\x60\x60\x60" default
    let script : Script :=
      { replies := [.text "no", .text "\x60\x60\x60c\nv3\n\x60\x60\x60"]
        builds := [.ok Script.badBuild] }
    0 < 3 ∧ ∃ r c', run tools 3 "write" first ⟨script, 1⟩ = .ok r c' ∧
      r.revisions.map Revision.built = [false, false, true] ∧
      Course tools 3 0 none "write" first r ∧
      Made tools ⟨script, 1⟩ (callsOf r.revisions) c' := by
  intro tools first script
  have hbuilt : (EStateM.run' (run tools 3 "write" first) ⟨script, 1⟩).map
      (fun r => r.revisions.map Revision.built) = some [false, false, true] := by decide +kernel
  cases h : run tools 3 "write" first ⟨script, 1⟩ with
  | error e c' =>
    rw [EStateM.run', EStateM.run, h] at hbuilt
    cases hbuilt
  | ok r c' =>
    rw [EStateM.run', EStateM.run, h] at hbuilt
    have hends := (run_course tools 3 "write" first ⟨script, 1⟩ (by decide)).1 r c'
    exact ⟨by decide, r, c', rfl, Option.some.inj hbuilt, hends.mp h⟩

end HeuristicEvolution.Repair

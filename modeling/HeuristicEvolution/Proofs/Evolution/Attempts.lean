import HeuristicEvolution.Proofs.Evolution.Slots

/-!
# What a build-repair cycle leaves

A cycle ends in three ways: a build succeeds, the attempts run out on a failed build, or they run
out on a reply without code, which may come after builds that failed. What all three have in
common is stated once, in `RepairResult.Orderly`, and proved by induction on the attempts left.

The code of the last build is handed down the recursion, so the invariant speaks of a code built
earlier; at the start of a cycle there is none.

## Main definitions

* `Response.Parted`: a response that holds the parts of its own text.
* `RepairResult.Orderly`: the invariant of a cycle.

## Main results

* `Repair.orderly_cycle`
* `Evolution.talk_orderly`: the result of a whole conversation.
* `Evolution.runSlot_eq_error`: where a failure can come from.
-/

namespace HeuristicEvolution

open Evolution (bind_eq_ok_iff bind_eq_error_iff bind_of_ok bind_of_error)

/-- The parts of the response are those of its text. -/
def Response.Parted (r : Response) : Prop :=
  Segments.ofReply r.full = ⟨r.text, r.code, r.languages⟩

@[simp] theorem Response.parted_ofReply (reply : String) (usage : Usage) :
    (Response.ofReply reply usage).Parted := rfl

namespace Conversation

variable {σ : Type} {ask : String → σ → Exchange × σ} {policy : Policy} {prompt : String}
  {c c' : Conversation σ}

/-- A response is what a reply was parted into. -/
theorem parted_of_send {r : Response} (h : send ask policy prompt c = .ok r c') : r.Parted := by
  unfold send at h
  split at h
  · obtain ⟨rfl, -⟩ := EStateM.Result.ok.inj h
    exact Response.parted_ofReply _ _
  · exact nomatch h

/-- Whatever goes wrong with a request is reported as a failure of the conversation. -/
theorem generation_of_send {e : Failure} (h : send ask policy prompt c = .error e c') :
    ∃ fault, e = .generation fault := by
  unfold send at h
  split at h
  · exact nomatch h
  · next fault _ _ =>
    obtain ⟨rfl, -⟩ := EStateM.Result.error.inj h
    exact ⟨fault, rfl⟩

end Conversation

/-- The attempts of a cycle that starts with attempt `number`, makes at most `left` attempts and
has `earlier` as the code that was built before. -/
structure RepairResult.Orderly (left number : Nat) (earlier : Option String) (r : RepairResult) :
    Prop where
  length_le : r.revisions.length ≤ left
  length_pos : 0 < left → 0 < r.revisions.length
  attempts : r.revisions.map Revision.attempt = List.range' number r.revisions.length
  failed_before_last : ∀ v ∈ r.revisions.dropLast, v.built = false
  built_of_last : ∀ v ∈ r.revisions.getLast?, v.built = r.built
  built_of_short : r.revisions.length < left → r.built = true
  finalCode_eq :
    r.finalCode = (r.revisions.filterMap fun v => v.response.primaryCode).getLast?.or earlier
  code_of_built : ∀ v ∈ r.revisions, v.built = true → v.response.primaryCode.isSome = true
  parted : ∀ v ∈ r.revisions, v.response.Parted

/-- The code of the last build, when an attempt is put in front. -/
theorem getLast?_filterMap_cons {α β : Type} (f : α → Option β) (a : α) (xs : List α)
    (earlier : Option β) :
    ((a :: xs).filterMap f).getLast?.or earlier
      = (xs.filterMap f).getLast?.or ((f a).or earlier) := by
  cases h : f a with
  | none => simp [h]
  | some b => cases hxs : (xs.filterMap f).getLast? <;> simp [h, List.getLast?_cons, hxs]

namespace RepairResult.Orderly

variable {left number : Nat} {earlier : Option String} {v : Revision}

/-- A cycle that stops after one attempt. -/
theorem single (hnumber : v.attempt = number)
    (hcode : v.built = true → v.response.primaryCode.isSome = true)
    (hparted : v.response.Parted) (hstop : v.built = true ∨ left = 0) :
    Orderly (left + 1) number earlier ⟨v.built, v.response.primaryCode.or earlier, [v]⟩ where
  length_le := by simp
  length_pos _ := by simp
  attempts := by simp [hnumber]
  failed_before_last := by simp
  built_of_last := by simp
  built_of_short hshort := by
    rcases hstop with hbuilt | rfl
    · exact hbuilt
    · simp at hshort
  finalCode_eq := by rw [getLast?_filterMap_cons]; rfl
  code_of_built := by simpa using hcode
  parted := by simpa using hparted

/-- A failed attempt before a cycle that goes on. -/
theorem cons {rest : RepairResult}
    (h : rest.Orderly left (number + 1) (v.response.primaryCode.or earlier)) (hleft : 0 < left)
    (hnumber : v.attempt = number) (hfailed : v.built = false) (hparted : v.response.Parted) :
    Orderly (left + 1) number earlier { rest with revisions := v :: rest.revisions } := by
  have hne : rest.revisions ≠ [] := List.ne_nil_of_length_pos (h.length_pos hleft)
  have hle := h.length_le
  refine ⟨?_, ?_, ?_, ?_, ?_, ?_, ?_, ?_, ?_⟩
  · exact Nat.succ_le_succ hle
  · simp
  · rw [List.map_cons, h.attempts, hnumber, List.length_cons, List.range'_succ]
  · rw [List.dropLast_cons_of_ne_nil hne]
    intro w hw
    rcases List.mem_cons.mp hw with rfl | hw
    · exact hfailed
    · exact h.failed_before_last w hw
  · rw [List.getLast?_cons_of_ne_nil hne]
    exact h.built_of_last
  · intro hshort
    exact h.built_of_short (Nat.lt_of_succ_lt_succ hshort)
  · rw [h.finalCode_eq, getLast?_filterMap_cons]
  · intro w hw hbuilt
    rcases List.mem_cons.mp hw with rfl | hw
    · simp [hfailed] at hbuilt
    · exact h.code_of_built w hw hbuilt
  · intro w hw
    rcases List.mem_cons.mp hw with rfl | hw
    · exact hparted
    · exact h.parted w hw

end RepairResult.Orderly

namespace Repair

variable {σ : Type} {tools : Tools σ} {left number : Nat} {earlier : Option String}
  {prompt : String} {response : Response} {c c' : Conversation σ}

/-- An attempt carries its number and its exchange, and only code is ever built. -/
theorem attempt_eq_ok {v : Revision} {code : Option String} {next : String}
    (h : attempt tools number prompt response c = .ok (v, code, next) c') :
    v.attempt = number ∧ v.response = response ∧ code = response.primaryCode ∧
      (v.built = true → response.primaryCode.isSome = true) := by
  unfold attempt at h
  cases hcode : response.primaryCode with
  | some built =>
    rw [hcode] at h
    obtain ⟨result, _, -, h⟩ := bind_eq_ok_iff.mp h
    obtain ⟨hv, -⟩ := EStateM.Result.ok.inj h
    simp only [Prod.mk.injEq] at hv
    obtain ⟨rfl, rfl, -⟩ := hv
    exact ⟨rfl, rfl, rfl, fun _ => rfl⟩
  | none =>
    rw [hcode] at h
    obtain ⟨hv, -⟩ := EStateM.Result.ok.inj h
    simp only [Prod.mk.injEq] at hv
    obtain ⟨rfl, rfl, -⟩ := hv
    exact ⟨rfl, rfl, rfl, fun hbuilt => nomatch hbuilt⟩

theorem attempt_eq_error {e : Failure}
    (h : attempt tools number prompt response c = .error e c') :
    ∃ code w, (tools.build code w).1 = .error e := by
  unfold attempt at h
  cases hcode : response.primaryCode with
  | none => rw [hcode] at h; exact nomatch h
  | some code =>
    rw [hcode] at h
    rcases bind_eq_error_iff.mp h with hbuild | ⟨result, _, -, h⟩
    · refine ⟨code, c.world, ?_⟩
      unfold buildStep at hbuild
      split at hbuild
      · exact nomatch hbuild
      · next e' _ hfail =>
        obtain ⟨rfl, -⟩ := EStateM.Result.error.inj hbuild
        rw [hfail]
    · exact nomatch h

/-- **Every end of a cycle is orderly.** -/
theorem orderly_cycle (hresponse : response.Parted) {r : RepairResult}
    (h : cycle tools left number earlier prompt response c = .ok r c') :
    r.Orderly left number earlier := by
  induction left generalizing number earlier prompt response c r c' with
  | zero =>
    obtain ⟨rfl, -⟩ := EStateM.Result.ok.inj h
    constructor <;> simp
  | succ left ih =>
    rw [cycle] at h
    obtain ⟨⟨v, code, next⟩, c₁, hattempt, h⟩ := bind_eq_ok_iff.mp h
    obtain ⟨hnumber, rfl, rfl, hcode⟩ := attempt_eq_ok hattempt
    simp only at h
    split at h
    · -- the cycle stops: a build succeeded, or no attempt is left
      next hstop =>
      obtain ⟨rfl, -⟩ := EStateM.Result.ok.inj h
      exact .single hnumber hcode hresponse (by simpa using hstop)
    · -- the cycle goes on with the next reply
      next hgo =>
      obtain ⟨reply, c₂, hsend, h⟩ := bind_eq_ok_iff.mp h
      obtain ⟨rest, c₃, hrest, h⟩ := bind_eq_ok_iff.mp h
      obtain ⟨rfl, -⟩ := EStateM.Result.ok.inj h
      simp only [Bool.or_eq_true, decide_eq_true_eq, not_or, Bool.not_eq_true] at hgo
      have horderly := ih (Conversation.parted_of_send hsend) hrest
      exact horderly.cons (Nat.pos_of_ne_zero hgo.2) hnumber hgo.1 hresponse

/-- A cycle fails because a request got no reply, or because the backend failed. -/
theorem cycle_eq_error {e : Failure}
    (h : cycle tools left number earlier prompt response c = .error e c') :
    (∃ fault, e = .generation fault) ∨ ∃ code w, (tools.build code w).1 = .error e := by
  induction left generalizing number earlier prompt response c c' with
  | zero => exact nomatch h
  | succ left ih =>
    rw [cycle] at h
    rcases bind_eq_error_iff.mp h with hattempt | ⟨⟨v, code, next⟩, c₁, -, h⟩
    · exact .inr (attempt_eq_error hattempt)
    simp only at h
    split at h
    · exact nomatch h
    rcases bind_eq_error_iff.mp h with hsend | ⟨reply, c₂, -, h⟩
    · exact .inl (Conversation.generation_of_send hsend)
    rcases bind_eq_error_iff.mp h with hrest | ⟨rest, c₃, -, h⟩
    · exact ih hrest
    · exact nomatch h

end Repair

namespace Evolution

variable {σ : Type} {lab : Laboratory σ} {settings : Settings} {slot : Slot}

theorem talk_orderly {session : Nat} {prompt : String} {c c' : Conversation σ} {r : RepairResult}
    (h : talk lab settings slot session prompt c = .ok r c') :
    r.Orderly settings.buildAttempts 0 none := by
  obtain ⟨response, _, hsend, hrun⟩ := bind_eq_ok_iff.mp h
  exact Repair.orderly_cycle (Conversation.parted_of_send hsend) hrun

/-- The work on a record fails because a request got no reply, or with a failure of the backend's
own. -/
theorem runSlot_eq_error {parents : Option Parents} {s s' : State σ} {e : Failure}
    (h : runSlot lab settings slot parents s = .error e s') :
    (∃ fault, e = .generation fault) ∨ (∃ code w, (lab.build slot code w).1 = .error e) ∨
      ∃ w, (lab.experiment slot w).1 = .error e := by
  rw [runSlot_eq] at h
  rcases bind_eq_error_iff.mp h with hprompt | ⟨prompt, _, -, h⟩
  · cases parents <;> exact nomatch hprompt
  rcases bind_eq_error_iff.mp h with hopen | ⟨session, t, -, h⟩
  · exact nomatch hopen
  rcases bind_eq_error_iff.mp h with htalk | ⟨repaired, u, -, h⟩
  · obtain ⟨c, htalk, -⟩ := converse_eq_error_iff.mp htalk
    rcases bind_eq_error_iff.mp htalk with hsend | ⟨response, _, -, hrun⟩
    · exact .inl (Conversation.generation_of_send hsend)
    · rcases Repair.cycle_eq_error hrun with hfault | hbuild
      · exact .inl hfault
      · exact .inr (.inl hbuild)
  · unfold measure at h
    split at h
    · rcases bind_eq_error_iff.mp h with hmeasure | ⟨outcome, _, -, h⟩
      · exact .inr (.inr ⟨u.world, (outsideExcept_eq_error_iff.mp hmeasure).1⟩)
      · exact nomatch h
    · exact nomatch h

end Evolution

end HeuristicEvolution

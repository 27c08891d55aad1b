import HeuristicEvolution.Proofs.Evolution.Attempts
import HeuristicEvolution.Proofs.Evolution.Lineage
import HeuristicEvolution.Proofs.Ledger.Overview

/-!
# The answers of every ledger agree

Queries of a ledger agree with each other if its rows are faithful (`Ledger.Intact.agree`). Here
this is shown of every ledger that calls can leave, whichever way they end.

Two things about a record have to be followed from where they come from. The numbers of its
revisions and its results were handed out by the model and the backend, so they are what these can
hand out (`Laboratory.Fits`); and the ids of its parents are those of rows that were there when it
was written. All else is what the check of the record says.

## Main definitions

* `Laboratory.Fits`, `Call.Fits`: numbers fit the widths in which they are passed on.
* `Ledger.WellKept`: an intact ledger whose rows are those of records that can be kept.

## Main results

* `Evolution.keepable_of_taken`: the record that a call writes.
* `Evolution.wellKept_ledgerAfter`
* `Evolution.queries_agree`
-/

namespace HeuristicEvolution

open Evolution (bind_eq_ok_iff)
open Json (bound32)

/-! ## Where the parts of a record come from -/

section Provenance

variable {σ : Type}

/-- What holds of every usage that is reported holds of that of a response. -/
theorem Conversation.usage_of_send {P : Usage → Prop} {ask : String → σ → Exchange × σ}
    (hask : ∀ prompt w text usage, (ask prompt w).1 = .reply text usage → P usage)
    {policy : Policy} {prompt : String} {c c' : Conversation σ} {r : Response}
    (h : send ask policy prompt c = .ok r c') : P r.usage := by
  have hrequest : ∀ retries w text usage,
      (request ask policy prompt retries w).1 = .ok (text, usage) → P usage := by
    intro retries
    induction retries with
    | zero =>
      intro w text usage h
      rw [request] at h
      rcases hanswer : ask prompt w with ⟨_ | _ | _, w'⟩
      all_goals rw [hanswer] at h
      · obtain ⟨rfl, rfl⟩ := Prod.mk.inj (Except.ok.inj h)
        exact hask prompt w _ _ (congrArg Prod.fst hanswer)
      · cases h
      · cases h
    | succ retries ih =>
      intro w text usage h
      rw [request] at h
      rcases hanswer : ask prompt w with ⟨_ | _ | _, w'⟩
      all_goals rw [hanswer] at h
      · obtain ⟨rfl, rfl⟩ := Prod.mk.inj (Except.ok.inj h)
        exact hask prompt w _ _ (congrArg Prod.fst hanswer)
      · exact ih w' text usage h
      · exact ih w' text usage h
  rw [send] at h
  split at h
  · next text usage w hreply =>
    obtain ⟨rfl, -⟩ := EStateM.Result.ok.inj h
    exact hrequest policy.retries c.world text usage (congrArg Prod.fst hreply)
  · cases h

/-- What holds of every reply holds of the responses of all attempts of a cycle. -/
theorem Repair.response_of_cycle {P : Response → Prop} {tools : Tools σ}
    (hsend : ∀ {prompt c r c'},
      Conversation.send tools.ask tools.policy prompt c = .ok r c' → P r)
    {left number : Nat} {earlier : Option String} {prompt : String} {response : Response}
    {c c' : Conversation σ} {r : RepairResult} (hresponse : P response)
    (h : cycle tools left number earlier prompt response c = .ok r c') :
    ∀ v ∈ r.revisions, P v.response := by
  induction left generalizing number earlier prompt response c r c' with
  | zero =>
    obtain ⟨rfl, -⟩ := EStateM.Result.ok.inj h
    exact fun v hv => nomatch hv
  | succ left ih =>
    rw [cycle] at h
    obtain ⟨⟨v, code, next⟩, c₁, hattempt, h⟩ := bind_eq_ok_iff.mp h
    obtain ⟨-, hfirst, -⟩ := attempt_eq_ok hattempt
    have hfirst : P v.response := hfirst ▸ hresponse
    simp only at h
    split at h
    · obtain ⟨rfl, -⟩ := EStateM.Result.ok.inj h
      simpa using hfirst
    · obtain ⟨reply, c₂, hreply, h⟩ := bind_eq_ok_iff.mp h
      obtain ⟨rest, c₃, hrest, h⟩ := bind_eq_ok_iff.mp h
      obtain ⟨rfl, -⟩ := EStateM.Result.ok.inj h
      exact List.forall_mem_cons.mpr ⟨hfirst, ih (hsend hreply) hrest⟩

end Provenance

/-- Token counts fit 64 bits, and what an experiment reports is a proper value. -/
structure Laboratory.Fits {σ : Type} (lab : Laboratory σ) : Prop where
  usage : ∀ slot session prompt w text usage,
    (lab.ask slot session prompt w).1 = .reply text usage → usage.Fits
  results : ∀ slot w outcome, (lab.experiment slot w).1 = .ok outcome → outcome.results.Proper

/-! ## Ledgers that are kept well -/

namespace Ledger

/-- An intact ledger whose rows are those of records that can be kept. -/
structure WellKept (l : Ledger) : Prop where
  intact : l.Intact
  next_pos : 1 ≤ l.nextId
  ids_pos : ∀ r ∈ l.rows, 1 ≤ r.id
  rows_kept : ∀ r ∈ l.rows, ∃ id runId now c,
    r = Row.ofCandidate id runId now c ∧ c.Keepable l.nextId

namespace WellKept

variable {l l' : Ledger}

theorem empty : Ledger.empty.WellKept :=
  ⟨.empty, Int.le_refl 1, (fun _ hr => nomatch hr), fun _ hr => nomatch hr⟩

theorem addRun (h : l.WellKept) {run : RunInfo} (hr : l.addRun run = .ok l') : l'.WellKept := by
  have hintact := h.intact.addRun hr
  obtain ⟨-, rfl⟩ := addRun_eq_ok_iff.mp hr
  exact ⟨hintact, h.next_pos, h.ids_pos, h.rows_kept⟩

theorem recordInvocation (h : l.WellKept) {call : Invocation}
    (hc : l.recordInvocation call = .ok l') : l'.WellKept := by
  have hintact := h.intact.recordInvocation hc
  obtain ⟨-, rfl⟩ := recordInvocation_eq_ok_iff.mp hc
  exact ⟨hintact, h.next_pos, h.ids_pos, h.rows_kept⟩

theorem append (h : l.WellKept) {runId now : String} {c : Candidate}
    (hfree : ¬ l.HasCandidate runId c.iter c.sample) (hrun : l.HasRun runId)
    (hc : c.Keepable l.nextId) : (l.append runId now c).WellKept := by
  have hnext : l.nextId ≤ (l.append runId now c).nextId := Int.le_of_lt (Int.lt_succ l.nextId)
  refine ⟨h.intact.append hfree hrun, Int.le_trans h.next_pos hnext, fun r hr => ?_,
    fun r hr => ?_⟩
  · rcases List.mem_append.mp hr with hold | hnew
    · exact h.ids_pos r hold
    · obtain rfl := List.mem_singleton.mp hnew
      exact h.next_pos
  · rcases List.mem_append.mp hr with hold | hnew
    · obtain ⟨id, runId', now', d, rfl, hd⟩ := h.rows_kept r hold
      exact ⟨id, runId', now', d, rfl, hd.mono hnext⟩
    · obtain rfl := List.mem_singleton.mp hnew
      exact ⟨l.nextId, runId, now, c, rfl, hc.mono hnext⟩

/-- The answers to all questions about a run of such a ledger agree. -/
theorem agree (h : l.WellKept) (hids : l.nextId ≤ idBound) {runId : String}
    (hrun : l.HasRun runId) : ∃ entry records, l.Agree runId entry records := by
  refine h.intact.agree hrun fun r hr => ?_
  obtain ⟨id, runId', now, c, rfl, hc⟩ := h.rows_kept r (List.mem_filter.mp hr).1
  exact Row.faithful_ofCandidate hc hids id runId' now

end WellKept

end Ledger

namespace Evolution

variable {σ : Type} {lab : Laboratory σ} {settings : Settings} {slot : Slot}

/-- The results of a record are those of an experiment. -/
theorem results_of_runSlot {parents : Option Parents} {s s' : State σ} {c : Candidate} {j : Json}
    (h : runSlot lab settings slot parents s = .ok c s') (hj : c.results = some j) :
    ∃ w outcome, (lab.experiment slot w).1 = .ok outcome ∧ outcome.results = j := by
  rw [runSlot_eq] at h
  obtain ⟨prompt, _, -, h⟩ := bind_eq_ok_iff.mp h
  obtain ⟨session, _, -, h⟩ := bind_eq_ok_iff.mp h
  obtain ⟨repaired, u, -, h⟩ := bind_eq_ok_iff.mp h
  unfold measure at h
  split at h
  · obtain ⟨outcome, _, hmeasure, h⟩ := bind_eq_ok_iff.mp h
    obtain ⟨rfl, -⟩ := EStateM.Result.ok.inj h
    exact ⟨u.world, outcome, (outsideExcept_eq_ok_iff.mp hmeasure).1, Option.some.inj hj⟩
  · obtain ⟨rfl, -⟩ := EStateM.Result.ok.inj h
    exact nomatch hj

/-! ## Numbers that fit -/

/-- A record that is taken can be kept: its numbers fit if those of the call and the laboratory do,
and its parents are rows of the ledger. -/
theorem keepable_of_taken {runId : String} {l : Ledger} {c : Candidate} (hlab : lab.Fits)
    (hattempts : settings.buildAttempts ≤ bound32) (hiter : slot.iter < bound32)
    (hids : ∀ r ∈ l.rows, 1 ≤ r.id ∧ r.id < l.nextId) (h : Taken lab runId settings slot l c) :
    c.Keepable l.nextId := by
  obtain ⟨parents, s, s', -, hparents, hrun⟩ := h.made
  refine ⟨⟨_, h.flawless⟩, h.slot_eq.1 ▸ hiter, ?_, ?_, ?_⟩
  · obtain ⟨session, prompt, w, repaired, w', htalk, hc⟩ := runSlot_eq_ok hrun
    have hrevisions : c.revisions = repaired.revisions := by
      rcases hc with ⟨-, rfl⟩ | ⟨-, outcome, rfl⟩ <;> rfl
    have horderly := talk_orderly htalk
    have hsend : ∀ {prompt' d r d'},
        Conversation.send (lab.ask slot session) settings.policy prompt' d = .ok r d' →
          r.usage.Fits := Conversation.usage_of_send (hlab.usage slot session)
    obtain ⟨response, _, hfirst, hcycle⟩ := bind_eq_ok_iff.mp htalk
    have husage := Repair.response_of_cycle (P := fun r => r.usage.Fits) hsend (hsend hfirst) hcycle
    intro v hv
    rw [hrevisions] at hv
    have hattempt : v.attempt ∈ List.range' 0 repaired.revisions.length :=
      horderly.attempts ▸ List.mem_map_of_mem hv
    have hlt := (List.mem_range'_1.mp hattempt).2
    have hle := horderly.length_le
    exact ⟨by omega, husage v hv⟩
  · intro j hj
    obtain ⟨w, outcome, hmeasured, rfl⟩ := results_of_runSlot hrun hj
    exact hlab.results slot w outcome hmeasured
  · obtain ⟨-, -, hparentIds, -⟩ := slot_of_runSlot hrun
    intro ids hids' id hid
    obtain ⟨p, rfl, rfl⟩ := Option.map_eq_some_iff.mp (hparentIds.symm.trans hids')
    obtain ⟨-, hselect⟩ := parentsAt_eq_some_iff.mp hparents
    obtain ⟨-, rfl⟩ := Ledger.selectParents_eq_ok_iff.mp hselect
    obtain ⟨r, hr, rfl⟩ := List.mem_map.mp hid
    exact hids r (Ledger.mem_eligible_iff.mp (List.mem_of_mem_take hr)).1

/-- What a call passes on fits: its iterations and attempts 32 bits, and what its laboratory
answers. -/
def Call.Fits : Call → Prop
  | openRun .. => True
  | evolve lab _ _ _ settings _ stop _ =>
    lab.Fits ∧ settings.buildAttempts < bound32 ∧ stop < bound32

/-! ## Ledgers that calls leave -/

/-- **What calls keep.** -/
theorem wellKept_perform {l : Ledger} (h : l.WellKept) {call : Call} (hfits : call.Fits) :
    (call.perform l).WellKept := by
  cases call with
  | openRun task model now requested backend checkout =>
    rw [Call.perform]
    split
    · next name l' hopen =>
      rcases openRun_eq_ok hopen with rfl | ⟨run, hadd⟩
      · exact h
      · exact h.addRun hadd
    · exact h
  | evolve lab world runId now settings start stop checkout =>
    obtain ⟨hlab, hattempts, hstop⟩ := hfits
    refine evolve_preserves (fun l₁ l₂ note hnote h => h.recordInvocation hnote)
      (fun slot hslot l₁ c htaken h => ?_) ⟨l, world⟩ h
    have hiter : slot.iter < bound32 := by
      obtain ⟨iter, hiter, hmem⟩ := List.mem_flatMap.mp hslot
      obtain ⟨sample, -, rfl⟩ := List.mem_map.mp hmem
      obtain ⟨hle, hlt⟩ := List.mem_range'_1.mp hiter
      change iter < bound32
      omega
    have hids : ∀ r ∈ l₁.rows, 1 ≤ r.id ∧ r.id < l₁.nextId :=
      fun r hr => ⟨h.ids_pos r hr, h.intact.ids_lt r hr⟩
    exact h.append htaken.free_of_record htaken.hasRun
      (keepable_of_taken hlab (Nat.le_of_lt hattempts) hiter hids htaken)

theorem wellKept_ledgerAfter {calls : List Call} (hfits : ∀ call ∈ calls, call.Fits) :
    (ledgerAfter calls).WellKept := by
  induction calls using List.reverseRecOn with
  | nil => exact .empty
  | append_singleton earlier call ih =>
    rw [ledgerAfter_concat]
    exact wellKept_perform (ih fun call' hmem => hfits call' (List.mem_append_left _ hmem))
      (hfits call (by simp))

/-- **The answers to all questions about a run agree.** Let runs be opened and worked on in any
order, and let any of the calls fail at any point; numbers fit the widths in which they are passed
on, and there are as many ids as 64 bits have room for. Then for every run of the ledger, what the
listing says of it, the counts of its iterations, its records, the ranking of the rows that can be
parents and the best records agree (`Ledger.Agree`). Records are handed out if the values in them
are not too deep, and that is the only case in which they are not. -/
theorem queries_agree (calls : List Call) (hfits : ∀ call ∈ calls, call.Fits)
    (hids : (ledgerAfter calls).nextId ≤ idBound) (runId : String)
    (hrun : (ledgerAfter calls).HasRun runId) :
    ∃ entry records, (ledgerAfter calls).Agree runId entry records := by
  exact (wellKept_ledgerAfter hfits).agree hids hrun

/-! ### Two laboratories -/

/-- A model whose code is built, and reports the same results every time. -/
def diligent (results : Json) : Laboratory Unit where
  model := "diligent"
  openSession _ w := (0, w)
  ask _ _ _ w := (.reply "```\nreturn 1;\n```" ⟨none, 1, 1⟩, w)
  initialPrompt _ w := ("write a heuristic", w)
  mutationPrompt _ _ w := ("improve on it", w)
  repairPrompt _ _ := "fix it"
  build _ _ w := (.ok ⟨true, "", ""⟩, w)
  experiment _ w := (.ok ⟨true, results, .empty⟩, w)

theorem fits_diligent {results : Json} (h : results.Proper) : (diligent results).Fits := by
  refine ⟨fun _ _ _ _ _ usage husage => ?_, fun _ _ outcome houtcome => ?_⟩
  · obtain ⟨-, rfl⟩ := Exchange.reply.inj husage
    exact ⟨by decide, by decide⟩
  · obtain rfl := Except.ok.inj houtcome
    exact h

/-- A run, and one call that records a number of samples. -/
def diligentCalls (results : Json) (samples : Nat) : List Call :=
  [.openRun "sort" "diligent" "" none .empty none,
    .evolve (diligent results) () "sort_0" "" ⟨samples, 1, 2, .standard⟩ 0 1 none]

theorem fits_diligentCalls {results : Json} (h : results.Proper) (samples : Nat) :
    ∀ call ∈ diligentCalls results samples, call.Fits := by
  simp only [diligentCalls, List.forall_mem_cons, Call.Fits]
  exact ⟨trivial, ⟨fits_diligent h, by decide, by decide⟩, by simp⟩

/-- Two records that can be parents, and are read. -/
theorem queries_agree_diligent :
    let l := ledgerAfter (diligentCalls (.obj [("score", .int 3)]) 2)
    l.rows.map Row.succeeded = [true, true] ∧
      ∃ entry records, l.Agree "sort_0" entry records ∧ l.candidates "sort_0" = .ok records := by
  intro l
  have hproper : (Json.obj [("score", .int 3)]).Proper := ⟨by decide, trivial, trivial⟩
  have hshallow : ∀ r ∈ l.rowsOf "sort_0", r.Shallow := by decide +kernel
  obtain ⟨entry, records, hagree⟩ :=
    queries_agree (diligentCalls (.obj [("score", .int 3)]) 2) (fits_diligentCalls hproper 2)
      (by decide +kernel) "sort_0" (Ledger.isSome_run?_iff.mp (by decide +kernel))
  exact ⟨by decide +kernel, entry, records, hagree, hagree.read.trans (if_pos hshallow)⟩

/-- A value of the given depth. -/
def nested : Nat → Json
  | 0 => .null
  | depth + 1 => .arr [nested depth]

theorem proper_nested (depth : Nat) : (nested depth).Proper := by
  induction depth with
  | zero => trivial
  | succ depth ih => exact ⟨ih, trivial⟩

/-- **A record that is counted and cannot be read.** A value is read from a text if it is 127 levels
deep; as one row of the results it is two levels deeper. The run is listed with one candidate, whose
row can be a parent, and there is neither a list of the run's records nor of its best ones. -/
theorem counted_and_not_read :
    let results : Json := .obj [("results", .arr [nested 127]), ("score", .int 3)]
    let calls := diligentCalls results 1
    let l := ledgerAfter calls
    (∀ call ∈ calls, call.Fits) ∧ l.nextId ≤ idBound ∧ l.HasRun "sort_0" ∧
      (l.listing.filter (·.runId == "sort_0")).map RunListing.candidates = [1] ∧
      (l.eligible "sort_0" Ledger.lastIter).map Row.id = [1] ∧
      l.candidates "sort_0" = .error .badColumn ∧ l.top "sort_0" 1 = .error .badColumn := by
  intro results calls l
  have hnames : ([("results", .arr [nested 127]), ("score", .int 3)].map
      (Prod.fst : String × Json → String)).Nodup := by decide
  have hproper : results.Proper := ⟨hnames, ⟨proper_nested 127, trivial⟩, trivial, trivial⟩
  have hfits : ∀ call ∈ calls, call.Fits := fits_diligentCalls hproper 1
  have hids : l.nextId ≤ idBound := by decide +kernel
  have hrun : l.HasRun "sort_0" := Ledger.isSome_run?_iff.mp (by decide +kernel)
  obtain ⟨entry, records, hagree⟩ := (wellKept_ledgerAfter hfits).agree hids hrun
  have hrows : (l.rowsOf "sort_0").length = 1 := by decide +kernel
  have hdeep : ∀ r ∈ l.rowsOf "sort_0", ¬ r.Shallow := by decide +kernel
  -- The only row is ranked.
  obtain ⟨r, hranked, hid⟩ : ∃ r, (l.rowsOf "sort_0").filter (fun r =>
      r.iter ≤ Ledger.lastIter && r.ranked && r.finalCode.isSome) = [r] ∧ r.id = 1 :=
    List.map_eq_singleton_iff.mp (by decide +kernel)
  have heligible : l.eligible "sort_0" Ledger.lastIter = [r] := by
    rw [Ledger.eligible, hranked, List.mergeSort_singleton]
  have hr : r ∈ l.rowsOf "sort_0" := List.mem_of_mem_filter (hranked ▸ List.mem_singleton_self r)
  refine ⟨hfits, hids, hrun, ?_, by rw [heligible, List.map_singleton, hid], ?_, ?_⟩
  · have hlength : entry.candidates = 1 := by
      rw [hagree.candidates_eq_length, hagree.records_perm.length_eq, List.length_map, hrows]
    rw [hagree.listed, List.map_singleton, hlength]
  · exact hagree.read.trans (if_neg fun hall => hdeep r hr (hall r hr))
  · obtain ⟨best, htop, -⟩ := hagree.top_eq 1
    rw [htop, heligible]
    exact if_neg fun hall => hdeep r hr (hall r (by simp))

end Evolution

end HeuristicEvolution

import HeuristicEvolution.Proofs.Evolution.Journal

/-!
# What is measured is what is recorded

A score is credited to the code that is recorded with it. Nothing in the ledger would show it if
it were the score of other code: the backend measures whatever was built last. This module
follows the calls that are made and shows that they leave no room for a mix-up. An experiment
comes directly after a build that succeeded, and such a build comes directly after the reply that
its code is from; reply, build and experiment are for one slot, and what they came to is in the
record of that slot.

The order of calls is a matter of neighbours. `Orderly` says of each call in a list what stands
directly before and after it; since a list does not end between neighbours, orderly lists can be
put together (`Orderly.append`), and it is enough to look at single turns.

## Main definitions

* `InPlace`, `Orderly`: what stands around a call.
* `Accounted`: a list of calls accounts for the records that were made.

## Main results

* `Evolution.measured_is_recorded`
-/

namespace HeuristicEvolution

open Evolution

/-! ## Neighbours -/

/-- The call stands where it may, between the calls before it and the calls after it. -/
structure InPlace (before : List Noted) (x : Noted) (after : List Noted) : Prop where
  /-- What is built is the code of the last reply. -/
  built_after_reply : ∀ {code answer}, x.2 = .built code answer → ∃ session prompt text usage,
    before.getLast? = some (x.1, .asked session prompt (.reply text usage)) ∧
      (Response.ofReply text usage).primaryCode = some code
  /-- What is measured was built last, with success. -/
  measured_after_build : ∀ {outcome}, x.2 = .measured outcome → ∃ code answer,
    before.getLast? = some (x.1, .built code answer) ∧ Succeeds answer
  /-- What is built with success is measured next. -/
  build_before_measured : ∀ {code answer}, x.2 = .built code answer → Succeeds answer →
    ∃ outcome, after.head? = some (x.1, .measured outcome)

/-- A call other than a build or an experiment may stand anywhere. -/
theorem inPlace_of_neutral {x : Noted} (hbuilt : ∀ code answer, x.2 ≠ .built code answer)
    (hmeasured : ∀ outcome, x.2 ≠ .measured outcome) (before after : List Noted) :
    InPlace before x after where
  built_after_reply hx := absurd hx (hbuilt _ _)
  measured_after_build hx := absurd hx (hmeasured _)
  build_before_measured hx := absurd hx (hbuilt _ _)

/-- All calls stand where they may. -/
def Orderly (calls : List Noted) : Prop :=
  ∀ before x after, calls = before ++ x :: after → InPlace before x after

/-- What a call has around it, it has in longer lists. -/
theorem InPlace.mono {before after : List Noted} {x : Noted} (h : InPlace before x after)
    (xs ys : List Noted) : InPlace (xs ++ before) x (after ++ ys) where
  built_after_reply hx := by
    obtain ⟨session, prompt, text, usage, hlast, hcode⟩ := h.built_after_reply hx
    exact ⟨session, prompt, text, usage, by rw [List.getLast?_append, hlast]; rfl, hcode⟩
  measured_after_build hx := by
    obtain ⟨code, answer, hlast, hsucceeds⟩ := h.measured_after_build hx
    exact ⟨code, answer, by rw [List.getLast?_append, hlast]; rfl, hsucceeds⟩
  build_before_measured hx hsucceeds := by
    obtain ⟨outcome, hhead⟩ := h.build_before_measured hx hsucceeds
    exact ⟨outcome, by rw [List.head?_append, hhead]; rfl⟩

namespace Orderly

theorem nil : Orderly [] := fun before _ _ h => by simp at h

theorem append {xs ys : List Noted} (hxs : Orderly xs) (hys : Orderly ys) : Orderly (xs ++ ys) := by
  intro before x after h
  rcases List.append_eq_append_iff.mp h with ⟨zs, rfl, hright⟩ | ⟨zs, hleft, hright⟩
  · simpa using (hys zs x after hright).mono xs []
  · cases zs with
    | nil =>
      rw [List.append_nil] at hleft
      rw [List.nil_append] at hright
      simpa [hleft] using (hys [] x after hright.symm).mono before []
    | cons z zs =>
      rw [List.cons_append, List.cons.injEq] at hright
      obtain ⟨rfl, rfl⟩ := hright
      simpa using (hxs before x zs hleft).mono [] ys

theorem flatMap {α : Type} {xs : List α} {f : α → List Noted} (h : ∀ a ∈ xs, Orderly (f a)) :
    Orderly (xs.flatMap f) := by
  induction xs with
  | nil => exact .nil
  | cons a rest ih =>
    rw [List.flatMap_cons]
    exact (h a List.mem_cons_self).append (ih fun b hb => h b (List.mem_cons_of_mem _ hb))

theorem single {slot : Slot} {call : LabCall} (hbuilt : ∀ code answer, call ≠ .built code answer)
    (hmeasured : ∀ outcome, call ≠ .measured outcome) : Orderly [(slot, call)] := by
  intro before x after h
  obtain ⟨rfl, rfl, rfl⟩ : before = [] ∧ x = (slot, call) ∧ after = [] := by
    rcases before with _ | ⟨y, before⟩ <;> simp_all
  exact inPlace_of_neutral hbuilt hmeasured [] []

end Orderly

section Turns

variable {slot : Slot} {session : Nat} {prompt text code : String} {usage : Usage}
  {answer : Except Failure BuildResult}

/-- A turn whose code is built, in vain or to be measured. -/
theorem orderly_turn {tail : List LabCall}
    (hcode : (Response.ofReply text usage).primaryCode = some code)
    (htail : Succeeds answer ∧ (∃ outcome, tail = [.measured outcome]) ∨
      ¬ Succeeds answer ∧ tail = []) :
    Orderly (marked slot (.asked session prompt (.reply text usage) :: .built code answer :: tail))
    := by
  intro before x after h
  simp only [marked, List.map_cons] at h
  rcases before with _ | ⟨first, _ | ⟨second, before⟩⟩
  · -- the request
    obtain ⟨rfl, -⟩ := List.cons.inj h
    exact inPlace_of_neutral (by simp) (by simp) [] after
  · -- the build
    simp only [List.cons_append, List.nil_append, List.cons.injEq] at h
    obtain ⟨rfl, rfl, rfl⟩ := h
    refine ⟨fun hx => ?_, by simp, fun hx hsucceeds => ?_⟩
    · obtain ⟨rfl, -⟩ := LabCall.built.inj hx
      exact ⟨session, prompt, text, usage, rfl, hcode⟩
    · obtain ⟨-, rfl⟩ := LabCall.built.inj hx
      rcases htail with ⟨-, outcome, rfl⟩ | ⟨hvain, -⟩
      · exact ⟨outcome, rfl⟩
      · exact absurd hsucceeds hvain
  · -- the experiment
    simp only [List.cons_append, List.cons.injEq] at h
    obtain ⟨rfl, rfl, h⟩ := h
    rcases htail with ⟨hsucceeds, outcome, rfl⟩ | ⟨-, rfl⟩
    · obtain ⟨rfl, rfl, rfl⟩ : before = [] ∧ x = (slot, .measured outcome) ∧ after = [] := by
        rcases before with _ | ⟨y, before⟩ <;> simp_all
      exact ⟨by simp, fun _ => ⟨code, answer, rfl, hsucceeds⟩, by simp⟩
    · simp at h

end Turns

theorem Fruitless.orderly {slot : Slot} {session : Nat} {xs : List LabCall}
    (h : Fruitless session xs) : Orderly (marked slot xs) := by
  induction h with
  | nil => exact .nil
  | asked prompt answer _ ih => exact (Orderly.single (by simp) (by simp)).append ih
  | built prompt text usage hcode hvain _ ih =>
    exact (orderly_turn hcode (.inr ⟨hvain, rfl⟩)).append ih

theorem Talked.orderly {slot : Slot} {session : Nat} {c? : Option Candidate} {xs : List LabCall}
    (h : Talked session c? xs) : Orderly (marked slot xs) := by
  cases h with
  | unbuilt hxs _ => exact hxs.orderly
  | measured hxs hturn _ =>
    cases hturn with
    | built prompt text usage hcode hsucceeds =>
      rw [List.append_assoc, marked_append]
      exact hxs.orderly.append (orderly_turn hcode (.inl ⟨hsucceeds, _, rfl⟩))

theorem SlotCalls.orderly {slot : Slot} {codes? : Option (List String)} {session : Nat}
    {c? : Option Candidate} {calls : List LabCall} (h : SlotCalls codes? session c? calls) :
    Orderly (marked slot calls) := by
  obtain ⟨prompt, answer, xs, rfl, htalked⟩ := h
  have hprompt : Orderly [(slot, LabCall.firstPrompt codes? prompt)] := by
    cases codes? <;> exact .single (by simp [LabCall.firstPrompt]) (by simp [LabCall.firstPrompt])
  have hopened : Orderly [(slot, LabCall.opened session)] := .single (by simp) (by simp)
  exact hprompt.append (hopened.append htalked.orderly)

/-! ## What the record repeats -/

section Records

variable {codes? : Option (List String)} {session : Nat} {c? : Option Candidate}
  {calls xs : List LabCall}

/-- Fruitless turns consist of requests and of builds in vain. -/
theorem Fruitless.not_built_and_not_measured (h : Fruitless session xs) :
    (∀ code answer, .built code answer ∈ xs → ¬ Succeeds answer) ∧
      ∀ outcome, .measured outcome ∉ xs := by
  induction h with
  | nil => simp
  | asked prompt answer _ ih => simpa using ih
  | built prompt text usage _ hvain _ ih =>
    obtain ⟨hbuilt, hmeasured⟩ := ih
    refine ⟨fun code answer hmem => ?_, by simpa using hmeasured⟩
    simp only [List.mem_cons, reduceCtorEq, LabCall.built.injEq, false_or] at hmem
    rcases hmem with ⟨-, rfl⟩ | hmem
    · exact hvain
    · exact hbuilt code answer hmem

/-- **A conversation has at most one experiment**, on the only build that succeeded, and the record
repeats both. Without them the record is one of failed builds. -/
theorem Talked.cases (h : Talked session c? xs) :
    ((∀ code answer, .built code answer ∈ xs → ¬ Succeeds answer) ∧
        (∀ outcome, .measured outcome ∉ xs) ∧ ∀ c ∈ c?, c.buildStatus = some false) ∨
      ∃ code outcome, (∀ code' answer, .built code' answer ∈ xs → Succeeds answer → code' = code) ∧
        (∀ outcome', .measured outcome' ∈ xs ↔ outcome' = outcome) ∧
        ∀ c ∈ c?, c.Reports code outcome := by
  cases h with
  | unbuilt hxs hc =>
    obtain ⟨hbuilt, hmeasured⟩ := hxs.not_built_and_not_measured
    exact .inl ⟨hbuilt, hmeasured, hc⟩
  | measured hxs hturn hc =>
    rename_i xs _ code outcome
    obtain ⟨hbuilt, hmeasured⟩ := hxs.not_built_and_not_measured
    cases hturn with
    | built prompt text usage hcode hsucceeds =>
      refine .inr ⟨code, outcome, fun code' answer hmem hsucceeds' => ?_, fun outcome' => ?_, hc⟩
      · simp only [List.append_assoc, List.mem_append, List.mem_cons, reduceCtorEq,
          LabCall.built.injEq, false_or, or_false, List.not_mem_nil] at hmem
        rcases hmem with hmem | ⟨rfl, -⟩
        · exact absurd hsucceeds' (hbuilt code' answer hmem)
        · rfl
      · simp [hmeasured outcome']

theorem SlotCalls.cases (h : SlotCalls codes? session c? calls) :
    ((∀ code answer, .built code answer ∈ calls → ¬ Succeeds answer) ∧
        (∀ outcome, .measured outcome ∉ calls) ∧ ∀ c ∈ c?, c.buildStatus = some false) ∨
      ∃ code outcome,
        (∀ code' answer, .built code' answer ∈ calls → Succeeds answer → code' = code) ∧
        (∀ outcome', .measured outcome' ∈ calls ↔ outcome' = outcome) ∧
        ∀ c ∈ c?, c.Reports code outcome := by
  obtain ⟨prompt, answer, xs, rfl, htalked⟩ := h
  have hbuilt : ∀ code built, LabCall.built code built ≠ .firstPrompt codes? prompt := by
    cases codes? <;> exact nofun
  have hmeasured : ∀ outcome, LabCall.measured outcome ≠ .firstPrompt codes? prompt := by
    cases codes? <;> exact nofun
  simpa [hbuilt, hmeasured] using htalked.cases

theorem SlotCalls.reports (h : SlotCalls codes? session c? calls) {code : String}
    {answer : Except Failure BuildResult} {outcome : Except Failure Outcome}
    (hbuilt : .built code answer ∈ calls) (hsucceeds : Succeeds answer)
    (hmeasured : .measured outcome ∈ calls) : ∀ c ∈ c?, c.Reports code outcome := by
  rcases h.cases with ⟨hvain, -, -⟩ | ⟨code', outcome', hcode, houtcome, hc⟩
  · exact absurd hsucceeds (hvain code answer hbuilt)
  · rw [hcode code answer hbuilt hsucceeds, (houtcome outcome).mp hmeasured]
    exact hc

theorem SlotCalls.built_iff_measured (h : SlotCalls codes? session c? calls) :
    ∀ c ∈ c?, c.buildStatus = some true ↔ ∃ outcome, .measured outcome ∈ calls := by
  intro c hc
  rcases h.cases with ⟨-, hnone, hfailed⟩ | ⟨code, outcome, -, houtcome, hreports⟩
  · simp [hfailed c hc, hnone]
  · exact iff_of_true (hreports c hc).buildStatus_eq ⟨outcome, (houtcome outcome).mpr rfl⟩

end Records

/-! ## Whole calls -/

/-- The calls account for the records: what was measured is what was recorded. -/
structure Accounted (l : Ledger) (runId : String) (start stop samples : Nat)
    (recorded : List Candidate) (calls : List Noted) : Prop where
  /-- An experiment comes directly after a build that succeeded, a build that succeeds directly
  before an experiment, and a build directly after the reply that its code is from. -/
  orderly : Orderly calls
  /-- The record of a slot repeats its build and its experiment. -/
  reports : ∀ {slot code answer outcome}, (slot, .built code answer) ∈ calls → Succeeds answer →
    (slot, .measured outcome) ∈ calls → ∀ c ∈ recorded, c.slot = slot → c.Reports code outcome
  /-- A record that is not one of a build has no experiment. -/
  built_iff_measured : ∀ c ∈ recorded,
    c.buildStatus = some true ↔ ∃ outcome, (c.slot, .measured outcome) ∈ calls
  /-- Calls are made only for open slots of the range. -/
  slot_open : ∀ {slot call}, (slot, call) ∈ calls →
    slot.Within start stop samples ∧ ¬ l.HasCandidate runId slot.iter slot.sample
  /-- All calls for a slot are made around one session. -/
  one_session : ∀ slot, callsFor calls slot = [] ∨
    ∃ codes? session, OneSession codes? session (callsFor calls slot)
  /-- No session is opened for two slots. -/
  sessions_differ : ∀ {slot slot' session}, (slot, .opened session) ∈ calls →
    (slot', .opened session) ∈ calls → slot = slot'

theorem accounted_nil (l : Ledger) (runId : String) (start stop samples : Nat) :
    Accounted l runId start stop samples [] [] where
  orderly := .nil
  reports _ _ _ := by simp
  built_iff_measured := by simp
  slot_open h := nomatch h
  one_session _ := .inl rfl
  sessions_differ h := nomatch h

namespace Evolution

variable {runId now : String} {settings : Settings}

/-- **A journal accounts for its records.** -/
theorem accounted_of_journal {n start stop samples : Nat} {l l' : Ledger} {works : List Work}
    (h : Journal runId now settings n (slots start stop samples) l works l') :
    Accounted l runId start stop samples (works.filterMap Work.record?)
      (works.flatMap Work.noted) := by
  have hnodup := nodup_slots start stop samples
  have hmade : ∀ w ∈ works, ∃ parents, w.Made parents := fun w hw => (h.open_and_made w hw).2
  constructor
  case orderly =>
    refine .flatMap fun w hw => ?_
    obtain ⟨parents, hparents⟩ := hmade w hw
    exact hparents.slotCalls.orderly
  case reports =>
    intro slot code answer outcome hbuilt hsucceeds hmeasured c hc hslot
    obtain ⟨w, hw, hcw, hcslot⟩ := h.exists_of_record hc
    obtain ⟨w₁, hw₁, rfl, hcode⟩ := mem_noted_iff.mp hbuilt
    obtain ⟨w₂, hw₂, hslot₂, houtcome⟩ := mem_noted_iff.mp hmeasured
    obtain rfl := h.eq_of_slot_eq hnodup hw₂ hw₁ hslot₂
    obtain rfl := h.eq_of_slot_eq hnodup hw hw₂ (hcslot.symm.trans hslot)
    obtain ⟨parents, hparents⟩ := hmade w hw
    exact hparents.slotCalls.reports hcode hsucceeds houtcome c hcw
  case built_iff_measured =>
    intro c hc
    obtain ⟨w, hw, hcw, hcslot⟩ := h.exists_of_record hc
    obtain ⟨parents, hparents⟩ := hmade w hw
    rw [hparents.slotCalls.built_iff_measured c hcw, hcslot]
    constructor
    · rintro ⟨outcome, hmem⟩
      exact ⟨outcome, mem_noted_iff.mpr ⟨w, hw, rfl, hmem⟩⟩
    · rintro ⟨outcome, hmem⟩
      obtain ⟨w', hw', hslot', houtcome⟩ := mem_noted_iff.mp hmem
      obtain rfl := h.eq_of_slot_eq hnodup hw' hw hslot'
      exact ⟨outcome, houtcome⟩
  case slot_open =>
    intro slot call hcall
    obtain ⟨w, hw, rfl, -⟩ := mem_noted_iff.mp hcall
    have hmem : w.slot ∈ slots start stop samples :=
      h.slots_sublist.subset (List.mem_map_of_mem hw)
    exact ⟨mem_slots_iff.mp hmem, (h.open_and_made w hw).1⟩
  case one_session =>
    intro slot
    rcases callsFor_cases (h.slots_sublist.nodup hnodup) slot with hnone | ⟨w, hw, -, hcalls⟩
    · exact .inl hnone
    · obtain ⟨parents, hparents⟩ := hmade w hw
      exact .inr ⟨_, w.session, hcalls ▸ hparents.slotCalls.oneSession⟩
  case sessions_differ =>
    intro slot slot' session hopened hopened'
    obtain ⟨w, hw, rfl, hmem⟩ := mem_noted_iff.mp hopened
    obtain ⟨w', hw', rfl, hmem'⟩ := mem_noted_iff.mp hopened'
    obtain ⟨parents, hparents⟩ := hmade w hw
    obtain ⟨parents', hparents'⟩ := hmade w' hw'
    have hsession := hparents.slotCalls.oneSession.eq_of_opened hmem
    have hsession' := hparents'.slotCalls.oneSession.eq_of_opened hmem'
    rw [h.eq_of_session_eq hw hw' (hsession.symm.trans hsession')]

/-- **What is measured is what is recorded.** Whatever the laboratory answers, whatever the ledger
holds, and however a call ends, the call adds some records to the ledger, and the calls that it
makes of its laboratory account for them:

* every experiment comes directly after a build that succeeded, every such build directly before
  an experiment, and every build directly after the reply that its code is from, all for one slot;
* if the slot is recorded, its record holds the code of this build and the outcome of this
  experiment; a record that is not one of a build belongs to a slot without an experiment;
* no call is made for a slot that was filled before;
* each slot that is worked on has one session, which is opened for it and is no other slot's, and
  all its requests are made in this session. -/
theorem measured_is_recorded {σ : Type} (lab : Laboratory σ) (runId now : String)
    (settings : Settings) (start stop : Nat) (checkout : Option Checkout) (s : State σ) :
    ∃ recorded,
      (finalState (evolve lab runId now settings start stop checkout) s).ledger.rows =
        s.ledger.rows ++ Ledger.rowsFrom s.ledger.nextId runId now recorded ∧
      Accounted s.ledger runId start stop settings.samples recorded
        (callsOf lab runId now settings start stop checkout s) := by
  cases hnoted : s.ledger.recordInvocation (noteOf lab runId settings start stop checkout) with
  | error e =>
    obtain ⟨hsame, hnone⟩ := evolve_of_error now hnoted
    refine ⟨[], by simp [hsame, Ledger.rowsFrom], ?_⟩
    rw [hnone]
    exact accounted_nil _ _ _ _ _
  | ok l =>
    obtain ⟨works, hjournal, hcalls⟩ := evolve_journal now hnoted
    obtain ⟨-, rfl⟩ := Ledger.recordInvocation_eq_ok_iff.mp hnoted
    refine ⟨works.filterMap Work.record?, ?_, ?_⟩
    · rw [hjournal.ledger_eq]
      rfl
    · have haccounted := accounted_of_journal hjournal
      rw [hcalls]
      exact { haccounted with slot_open := haccounted.slot_open }

end Evolution

end HeuristicEvolution

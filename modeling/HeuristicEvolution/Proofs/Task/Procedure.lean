import HeuristicEvolution.Proofs.Task.Commands

/-!
# Procedures

A call of a task works with commands and with file operations of its own. It comes to its end unless
one of these is refused or the call is given up; how a command was answered plays no part in that,
for neither an exit code nor a limit that passes is a failure.

To tell a refusal from any other failure, the steps of a call are written down as a *procedure*: a
program whose only results are whether a command has succeeded and whether a part was refused. An
action follows a procedure if it fails exactly when the procedure is refused, and in the same world.

## Main definitions

* `Procedure`: the steps of a call.
* `Procedure.reached`, `Procedure.isRefused`: the world in which it ends, and whether that is
  because a step was refused.
* `Action.Follows`: an action that does what a procedure says.

## Main results

* `Action.Follows.bind` and one lemma of this kind for each step.
* `Action.Follows.exists_ok_iff`: an action that is not given up has a result unless it is refused.
-/

namespace HeuristicEvolution

open Evolution (bind_of_ok bind_of_error)

/-- The host lets every call wait for its commands. -/
def Host.Waits (h : Host) : Prop := ∀ earlier c fs, (h earlier c fs).ending ≠ .abandons

/-- No call is given up in a world, neither in the wait for a command nor in one for the files. -/
structure World.Waits (w : World) : Prop where
  host : w.host.Waits
  files : w.patience = none

/-- A world that has come out of another one: the host is the same, and so is whether the call can
be given up in a wait for the files. -/
structure World.Later (w v : World) : Prop where
  host_eq : v.host = w.host
  files_iff : v.patience = none ↔ w.patience = none

namespace World

variable {u v w : World}

theorem Later.refl (w : World) : w.Later w := ⟨rfl, Iff.rfl⟩

theorem Later.trans (h : w.Later v) (h' : v.Later u) : w.Later u :=
  ⟨h'.host_eq.trans h.host_eq, h'.files_iff.trans h.files_iff⟩

theorem Later.waits_iff (h : w.Later v) : v.Waits ↔ w.Waits :=
  ⟨fun hv => ⟨h.host_eq ▸ hv.host, h.files_iff.1 hv.files⟩,
    fun hw => ⟨h.host_eq ▸ hw.host, h.files_iff.2 hw.files⟩⟩

theorem later_having (w : World) (c : Command) : w.Later (w.having c) := ⟨rfl, Iff.rfl⟩

theorem later_paused (w : World) : w.Later w.paused :=
  ⟨rfl, by rw [paused, Option.map_eq_none_iff]⟩

theorem later_edited_paused (w : World) (op : Files → Except FileFault Files) :
    w.Later (w.edited op).paused := ⟨rfl, (later_paused (w.edited op)).files_iff⟩

/-- Whoever is given up in a wait for the files is not always waited for. -/
theorem not_waits_of_patience_eq_zero (h : w.patience = some 0) : ¬ w.Waits := by
  intro hwaits
  rw [hwaits.files] at h
  cases h

end World

/-- The steps of a call. -/
inductive Procedure where
  | nothing
  | refusedIf (refused : Bool)
  | command (c : Command)
  /-- A command, and how it goes on by whether the command has succeeded. -/
  | asking (c : Command) (rest : (succeeded : Bool) → Procedure)
  /-- A file operation without which the call does not go on. -/
  | edit (op : Files → Except FileFault Files)
  /-- A file operation that may fail. -/
  | tried (op : Files → Except FileFault Files)
  | looking (test : Files → Bool) (rest : (found : Bool) → Procedure)
  | reading (path : String) (rest : (text : String) → Procedure)
  | next (first rest : Procedure)
  /-- A part that may be refused half way: the call goes on where the part has stopped. -/
  | keeping (part : Procedure) (rest : (refused : Bool) → Procedure)

namespace Procedure

/-- The world in which a procedure ends, and whether a step was refused in it. -/
def go : Procedure → World → World × Bool
  | nothing, w => (w, false)
  | refusedIf refused, w => (w, refused)
  | command c, w => if w.canStart c then (w.having c, false) else (w, true)
  | asking c rest, w =>
    if w.canStart c then (rest ((w.answer c).ending = .exits 0)).go (w.having c) else (w, true)
  | edit op, w => ((w.edited op).paused, !(op w.files).isOk)
  | tried op, w => ((w.edited op).paused, false)
  | looking test rest, w => (rest (test w.files)).go w
  | reading path rest, w =>
    match w.files.readText path with
    | .ok text => (rest text).go w.paused
    | .error _ => (w.paused, true)
  | next first rest, w => if (first.go w).2 then first.go w else rest.go (first.go w).1
  | keeping part rest, w => (rest (part.go w).2).go (part.go w).1

/-- The world in which a procedure ends. -/
def reached (p : Procedure) (w : World) : World := (p.go w).1

/-- A procedure ends because a step was refused. -/
def isRefused (p : Procedure) (w : World) : Bool := (p.go w).2

/-- Several procedures, one after the other. -/
def all : List Procedure → Procedure := List.foldr next nothing

variable {p : Procedure} {w : World}

theorem later_reached : w.Later (p.reached w) := by
  simp only [reached]
  induction p generalizing w with
  | nothing => exact .refl _
  | refusedIf refused => exact .refl _
  | command c =>
    rw [go]
    split
    · exact w.later_having c
    · exact .refl _
  | asking c rest ih =>
    rw [go]
    split
    · exact (w.later_having c).trans (ih _)
    · exact .refl _
  | edit op => exact w.later_edited_paused op
  | tried op => exact w.later_edited_paused op
  | looking test rest ih => exact ih _
  | reading path rest ih =>
    rw [go]
    split
    · exact w.later_paused.trans (ih _)
    · exact w.later_paused
  | next first rest ihfirst ihrest =>
    rw [go]
    split
    · exact ihfirst
    · exact ihfirst.trans ihrest
  | keeping part rest ihpart ihrest => exact ihpart.trans (ihrest _)

end Procedure

namespace Action

/-- The ends of an action that does what a procedure says: a result of which `P` is known, a
refusal, or the call is given up. -/
inductive Ends {α : Type} (p : Procedure) (w : World) (P : α → Prop) :
    EStateM.Result Halt World α → Prop
  | done {a : α} {v : World} : p.go w = (v, false) → P a → Ends p w P (.ok a v)
  | refused {context : Option String} {v : World} : p.go w = (v, true) →
      Ends p w P (.error (.failed (.system context)) v)
  | dropped {v : World} : ¬ w.Waits → Ends p w P (.error .abandoned v)

/-- What is left to do after a part of a procedure ends as the procedure does. -/
theorem Ends.of_go {α : Type} {p q : Procedure} {w v : World} {P : α → Prop}
    {r : EStateM.Result Halt World α} (h : Ends q v P r) (hgo : p.go w = q.go v)
    (hlater : w.Later v) : Ends p w P r := by
  cases h with
  | done hu ha => exact .done (hgo.trans hu) ha
  | refused hu => exact .refused (hgo.trans hu)
  | dropped hgiven => exact .dropped (hgiven ∘ hlater.waits_iff.2)

/-- From a world on, the action does what a procedure says. -/
def Follows {α : Type} (p : Procedure) (w : World) (x : Action α) (P : α → Prop) : Prop :=
  Ends p w P (x w)

/-- What is known of an outcome that is kept as a value. -/
inductive Kept {α : Type} (P : α → Prop) : (refused : Bool) → Except Failure α → Prop
  | done {a : α} : P a → Kept P false (.ok a)
  | refused {context : Option String} : Kept P true (.error (.system context))

namespace Follows

variable {α β : Type} {p q : Procedure} {w : World} {P : α → Prop} {Q : β → Prop} {x : Action α}
  {f : α → Action β}

/-- An action that is not given up has a result if no step is refused. -/
theorem eq_ok (hx : Follows p w x P) (hwaits : w.Waits) (hfree : p.isRefused w = false) :
    ∃ a, x w = .ok a (p.reached w) ∧ P a := by
  rw [Follows] at hx
  rw [Procedure.isRefused] at hfree
  cases h : x w with
  | ok a v =>
    rw [h] at hx
    obtain ⟨hv, ha⟩ := hx
    exact ⟨a, by rw [Procedure.reached, hv], ha⟩
  | error e v =>
    rw [h] at hx
    cases hx with
    | refused hv => simp [hv] at hfree
    | dropped hgiven => exact absurd hwaits hgiven

/-- **An action that is not given up has a result unless a step is refused.** -/
theorem exists_ok_iff (hx : Follows p w x P) (hwaits : w.Waits) :
    (∃ a v, x w = .ok a v) ↔ p.isRefused w = false := by
  refine ⟨fun ⟨a, v, h⟩ => ?_, fun hfree => ?_⟩
  · rw [Follows, h] at hx
    obtain ⟨hv, -⟩ := hx
    rw [Procedure.isRefused, hv]
  · obtain ⟨a, ha, -⟩ := hx.eq_ok hwaits hfree
    exact ⟨a, _, ha⟩

/-- Such an action fails in no words of its own. -/
theorem eq_system {e : Failure} {v : World} (hx : Follows p w x P)
    (h : x w = .error (.failed e) v) : ∃ context, e = .system context := by
  rw [Follows, h] at hx
  cases hx with
  | refused _ => exact ⟨_, rfl⟩

/-- What is known of a result follows from more than is known, and from that no step was refused. -/
theorem mono {P' : α → Prop} (hx : Follows p w x P)
    (hP : p.isRefused w = false → ∀ a, P a → P' a) : Follows p w x P' := by
  rw [Follows] at hx ⊢
  generalize x w = r at hx
  cases hx with
  | done hv ha => exact .done hv (hP (by rw [Procedure.isRefused, hv]) _ ha)
  | refused hv => exact .refused hv
  | dropped hgiven => exact .dropped hgiven

theorem pure {a : α} (ha : P a) : Follows .nothing w (Pure.pure a) P := .done rfl ha

/-- Nothing has to be done first. -/
theorem skip (hx : Follows p w x P) : Follows (.next .nothing p) w x P := hx.of_go rfl (.refl w)

/-- Steps one after the other. The second part is known to begin in the world in which the first one
ends. -/
theorem bind_reached (hx : Follows p w x P)
    (hf : p.isRefused w = false → ∀ a, P a → Follows q (p.reached w) (f a) Q) :
    Follows (p.next q) w (x >>= f) Q := by
  rw [Follows] at hx ⊢
  cases h : x w with
  | error e v =>
    rw [bind_of_error h]
    rw [h] at hx
    cases hx with
    | refused hv => exact .refused (by simp [Procedure.go, hv])
    | dropped hgiven => exact .dropped hgiven
  | ok a v =>
    rw [bind_of_ok h]
    rw [h] at hx
    obtain ⟨hv, ha⟩ := hx
    have hrest := hf (by rw [Procedure.isRefused, hv]) a ha
    have hlater : w.Later (p.reached w) := p.later_reached
    rw [Procedure.reached, hv] at hrest hlater
    exact hrest.of_go (by simp [Procedure.go, hv]) hlater

theorem bind (hx : Follows p w x P)
    (hf : ∀ a v, P a → Follows q v (f a) Q) : Follows (p.next q) w (x >>= f) Q :=
  hx.bind_reached fun _ a ha => hf a _ ha

/-- A result that is only put into another form. -/
theorem map {g : α → β} (hx : Follows p w x P) (hg : ∀ a, P a → Q (g a)) :
    Follows p w (x >>= fun a => Pure.pure (g a)) Q := by
  rw [Follows] at hx ⊢
  cases h : x w with
  | error e v =>
    rw [bind_of_error h]
    rw [h] at hx
    cases hx with
    | refused hv => exact .refused hv
    | dropped hgiven => exact .dropped hgiven
  | ok a v =>
    rw [bind_of_ok h]
    rw [h] at hx
    obtain ⟨hv, ha⟩ := hx
    exact .done hv (hg a ha)

/-- Steps that are done one after the other whatever they come to. -/
theorem forM {ι : Type} {l : List ι} {step : ι → Action PUnit} {part : ι → Procedure}
    (hstep : ∀ i v, Follows (part i) v (step i) fun _ => True) :
    Follows (.all (l.map part)) w (l.forM step) fun _ => True := by
  induction l generalizing w with
  | nil => exact pure trivial
  | cons i l ih => exact bind (hstep i w) fun _ _ _ => ih

/-! ### Failures as values -/

/-- An attempted part, and what is done behind it in any case. -/
theorem keep {rest : Bool → Procedure} {g : Except Failure α → Action β} (hx : Follows p w x P)
    (hg : ∀ r, Kept P (p.isRefused w) r →
      Follows (rest (p.isRefused w)) (p.reached w) (g r) Q) :
    Follows (.keeping p rest) w (Action.attempt x >>= g) Q := by
  rw [Follows] at hx ⊢
  cases hgiven : x.isGivenUp w with
  | true =>
    rw [bind_of_isGivenUp (by rwa [isGivenUp_attempt])]
    rw [isGivenUp_iff.1 hgiven] at hx
    cases hx with
    | dropped hwaits => exact .dropped hwaits
  | false =>
    -- both a result and a refusal leave the world in which the procedure ends
    have hkept : ∃ r, Action.attempt x w = .ok r (p.reached w) ∧ Kept P (p.isRefused w) r := by
      rw [Action.attempt, Procedure.reached, Procedure.isRefused]
      rw [Action.isGivenUp] at hgiven
      generalize x w = e at hx hgiven
      cases hx with
      | done hv ha => rw [hv]; exact ⟨_, rfl, .done ha⟩
      | refused hv => rw [hv]; exact ⟨_, rfl, .refused⟩
      | dropped _ => cases hgiven
    obtain ⟨r, hr, hkept⟩ := hkept
    rw [bind_of_ok hr]
    exact (hg r hkept).of_go rfl p.later_reached

theorem ofExcept {refused : Bool} {r : Except Failure α} (hr : Kept P refused r) :
    Follows (.refusedIf refused) w (Action.ofExcept r) P := by
  cases hr with
  | done ha => exact .done rfl ha
  | refused => exact .refused rfl

/-- A release that is done only when the call is given up. -/
theorem ifAbandoned {y : Action α} {release : Action Unit} (hx : Follows p w (y >>= f) Q) :
    Follows p w (Action.ifAbandoned y release >>= f) Q := by
  rw [Follows] at hx ⊢
  cases hgiven : y.isGivenUp w with
  | false =>
    have hy : Action.ifAbandoned y release w = y w := ifAbandoned_of_not_isGivenUp hgiven
    cases h : y w with
    | ok a v =>
      rw [bind_of_ok h] at hx
      rwa [bind_of_ok (hy.trans h)]
    | error e v =>
      rw [bind_of_error h] at hx
      rwa [bind_of_error (hy.trans h)]
  | true =>
    rw [bind_of_isGivenUp hgiven] at hx
    rw [bind_of_error (ifAbandoned_of_isGivenUp hgiven)]
    cases hx with
    | dropped hwaits => exact .dropped hwaits

/-! ### Helpers -/

/-- A helper that is stopped has a result, unless the call is given up in the wait for its end. -/
theorem stop {u : World} {c : Command} {helper : Helper} {g : CommandResult → Action β}
    (hhelper : helper.reaction = u.answer c) (hlater : u.Later w)
    (hg : ∀ r, Follows p w (g r) Q) : Follows p w (helper.stop >>= g) Q := by
  rw [Follows, Helper.stop, hhelper]
  cases hending : (u.answer c).ending with
  | abandons => exact .dropped fun hwaits => (hlater.waits_iff.1 hwaits).host _ _ _ hending
  | exits _ | dies | hangs | serves _ | deaf => exact hg _

/-! ### Files -/

/-- How it goes on by what a look at the files shows. -/
theorem files_seen {test : Files → Bool} {rest : Bool → Procedure} {g : Bool → Action β}
    (hg : Follows (rest (test w.files)) w (g (test w.files)) Q) :
    Follows (.looking test rest) w (Action.files test >>= g) Q := Ends.of_go hg rfl (.refl w)

theorem files {test : Files → Bool} {rest : Bool → Procedure} {g : Bool → Action β}
    (hg : ∀ found, Follows (rest found) w (g found) Q) :
    Follows (.looking test rest) w (Action.files test >>= g) Q := files_seen (hg _)

/-- A file operation goes on, in the world that it leaves, with whether it could be done. -/
theorem edit {op : Files → Except FileFault Files} {g : Except FileFault Unit → Action β}
    (hg : Ends p w Q (g ((op w.files).map fun _ => ()) (w.edited op).paused)) :
    Follows p w (Action.edit op >>= g) Q := by
  rw [Follows]
  obtain ⟨hgiven, h⟩ | ⟨-, h⟩ := edit_cases w op
  · rw [bind_of_error h]
    exact .dropped (World.not_waits_of_patience_eq_zero hgiven)
  · rwa [bind_of_ok h]

theorem change {context : Option String} {op : Files → Except FileFault Files} :
    Follows (.edit op) w (Action.change context op) fun _ => True := by
  refine edit ?_
  cases h : op w.files with
  | ok fs => exact .done (by rw [Procedure.go, h]; rfl) trivial
  | error fault => exact .refused (by rw [Procedure.go, h]; rfl)

theorem tryChange {op : Files → Except FileFault Files} :
    Follows (.tried op) w (Action.tryChange op) fun _ => True := edit (.done rfl trivial)

/-- How it goes on with the text of a file. -/
theorem readText {context path : String} {rest : String → Procedure} {g : String → Action β}
    (hg : ∀ text v, Follows (rest text) v (g text) Q) :
    Follows (.reading path rest) w (Action.readText context path >>= g) Q := by
  have hread : Action.readText context path w =
      (Action.pause >>= fun _ => match w.files.readText path with
        | .ok text => Pure.pure text
        | .error _ => Action.fail (.system (some context))) w := rfl
  rw [Follows]
  obtain ⟨hgiven, hpause⟩ | ⟨-, hpause⟩ := pause_cases w
  · rw [bind_of_error (hread.trans (bind_of_error hpause))]
    exact .dropped (World.not_waits_of_patience_eq_zero hgiven)
  · replace hread := hread.trans (bind_of_ok hpause)
    cases h : w.files.readText path with
    | ok text =>
      rw [h] at hread
      rw [bind_of_ok hread]
      exact (hg text w.paused).of_go (by rw [Procedure.go, h]) w.later_paused
    | error fault =>
      rw [h] at hread
      rw [bind_of_error hread]
      exact .refused (by rw [Procedure.go, h])

/-! ### Commands -/

/-- A call is given up in the world if it is given up in the wait for one command. -/
theorem not_waits {c : Command} (h : (w.answer c).ending = .abandons) : ¬ w.Waits :=
  fun hwaits => hwaits.host _ _ _ h

section Run

variable {script directory : String}

/-- A command that is waited for has a result, succeeds by its exit code alone, and has printed what
the host says. -/
theorem run_eq_ok (hstart : w.canStart ⟨.script, script, directory⟩ = true)
    (hwaits : (w.answer ⟨.script, script, directory⟩).ending ≠ .abandons) :
    ∃ r, Action.run script directory w = .ok r (w.having ⟨.script, script, directory⟩) ∧
      r.success = decide ((w.answer ⟨.script, script, directory⟩).ending = .exits 0) ∧
      r.stderr = Text.trim (w.answer ⟨.script, script, directory⟩).stderr := by
  rw [Action.run, Action.startScript, bind_of_ok (start_of_canStart hstart), Action.wait]
  cases h : (w.answer ⟨.script, script, directory⟩).ending with
  | abandons => exact absurd h hwaits
  | exits code =>
    exact ⟨_, rfl, by simp [CommandResult.success, CommandResult.ofReaction, Bool.beq_eq_decide_eq],
      rfl⟩
  | dies | hangs | serves _ | deaf =>
    exact ⟨_, rfl, by simp [CommandResult.success, CommandResult.ofReaction], rfl⟩

/-- How it goes on by whether a command has succeeded. A limit that passes is no success. -/
theorem runThen_having {rest : Bool → Procedure} {g : CommandResult → Action β}
    (hg : w.canStart ⟨.script, script, directory⟩ = true → ∀ r,
      r.success = decide ((w.answer ⟨.script, script, directory⟩).ending = .exits 0) →
      Follows (rest r.success) (w.having ⟨.script, script, directory⟩) (g r) Q) :
    Follows (.asking ⟨.script, script, directory⟩ rest) w
      (Action.run script directory >>= g) Q := by
  rw [Follows]
  cases hstart : w.canStart ⟨.script, script, directory⟩ with
  | false =>
    rw [Action.run, Action.startScript, bind_assoc, bind_of_error (start_of_not_canStart hstart)]
    exact .refused (by rw [Procedure.go, hstart]; rfl)
  | true =>
    by_cases hgiven : (w.answer ⟨.script, script, directory⟩).ending = .abandons
    · have hdropped : (Action.run script directory).isGivenUp w = true := by
        simp [isGivenUp_run_of_canStart hstart, hgiven]
      rw [bind_of_isGivenUp hdropped]
      exact .dropped (not_waits hgiven)
    · obtain ⟨r, hr, hsuccess, -⟩ := run_eq_ok hstart hgiven
      rw [bind_of_ok hr]
      refine (hg hstart r hsuccess).of_go ?_ (w.later_having _)
      rw [Procedure.go, if_pos hstart, hsuccess]

theorem runThen {rest : Bool → Procedure} {g : CommandResult → Action β}
    (hg : ∀ r v, Follows (rest r.success) v (g r) Q) :
    Follows (.asking ⟨.script, script, directory⟩ rest) w
      (Action.run script directory >>= g) Q :=
  runThen_having fun _ r _ => hg r _

/-- **A command that is waited for has a result**, whatever its exit code is and also if its limit
passes, with what it has printed. -/
theorem run : Follows (.command ⟨.script, script, directory⟩) w (Action.run script directory)
    fun r => r.stderr = Text.trim (w.answer ⟨.script, script, directory⟩).stderr := by
  rw [Follows]
  cases hstart : w.canStart ⟨.script, script, directory⟩ with
  | false =>
    rw [Action.run, Action.startScript, bind_of_error (start_of_not_canStart hstart)]
    exact .refused (by rw [Procedure.go, hstart]; rfl)
  | true =>
    by_cases hgiven : (w.answer ⟨.script, script, directory⟩).ending = .abandons
    · have hdropped : (Action.run script directory).isGivenUp w = true := by
        simp [isGivenUp_run_of_canStart hstart, hgiven]
      rw [isGivenUp_iff.1 hdropped]
      exact .dropped (not_waits hgiven)
    · obtain ⟨r, hr, -, hprinted⟩ := run_eq_ok hstart hgiven
      rw [hr]
      exact .done (by rw [Procedure.go, if_pos hstart]) hprinted

end Run

/-- A helper that was started is the one to which the host gave its answer. -/
theorem startHelper {label script directory : String} :
    Follows (.command ⟨.helper, script, directory⟩) w
      (Action.startHelper label script directory)
      fun helper => helper.reaction = w.answer ⟨.helper, script, directory⟩ := by
  rw [Follows]
  cases hstart : w.canStart ⟨.helper, script, directory⟩ with
  | false =>
    rw [Action.startHelper, bind_of_error (start_of_not_canStart hstart)]
    exact .refused (by rw [Procedure.go, hstart]; rfl)
  | true =>
    rw [startHelper_of_canStart hstart]
    exact .done (by rw [Procedure.go, if_pos hstart]) rfl

end Follows

end Action

end HeuristicEvolution

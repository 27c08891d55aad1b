import HeuristicEvolution.Proofs.Evolution.Steps
import HeuristicEvolution.World.Action

/-!
# What actions start

An action is followed here by the commands that it starts and by whether the call is given up on the
way. Both are read off for each way of building an action, so that a task's own steps are never
unfolded down to the world.

An action is a function of the world, so the command with which a call is given up is not part of
what it leaves: a release that runs on its own may have started more since. Statements about it
therefore speak of the part of an action that is given up and not of the place in the record.

## Main definitions

* `World.canStart`, `World.answer`, `World.having`: starting one command.
* `World.edited`, `World.paused`: working with the files and waiting for them.
* `Action.after`: the world that an action leaves, however it ends.
* `Action.isGivenUp`: the call is given up during the action.
* `Action.Starts`: the commands that an action starts, whatever the host answers.

## Main results

* `Action.run_cases`: the three ways in which running a script can go.
* `Action.edit_cases`: the two ways in which working with the files can go.
* `Action.attempt_of_isGivenUp`, `Action.ifAbandoned_of_isGivenUp`, and the same for actions that
  are not given up.
* `Action.Starts.bind` and one lemma of this kind for each step.
-/

namespace HeuristicEvolution

namespace World

/-- A command can be started: its directory is there, and its script can be handed over. -/
def canStart (w : World) (c : Command) : Bool :=
  w.files.isDirectory c.directory && !c.script.toUTF8.data.toList.contains 0

/-- How the host answers a command that is started now. -/
def answer (w : World) (c : Command) : Reaction := w.host w.started c w.files

/-- The world once a command was started. -/
def having (w : World) (c : Command) : World :=
  { w with files := (w.answer c).edits.foldl Edit.apply w.files, started := w.started ++ [c] }

@[simp] theorem started_having (w : World) (c : Command) :
    (w.having c).started = w.started ++ [c] := rfl

/-- The world once something was done to the files, if that could be done. -/
def edited (w : World) (op : Files → Except FileFault Files) : World :=
  { w with files := (op w.files).toOption.getD w.files }

/-- The world after a wait for the files. -/
def paused (w : World) : World := { w with patience := w.patience.map Nat.pred }

@[simp] theorem started_edited (w : World) (op : Files → Except FileFault Files) :
    (w.edited op).started = w.started := rfl

theorem edited_of_ok {w : World} {op : Files → Except FileFault Files} {fs : Files}
    (h : op w.files = .ok fs) : w.edited op = { w with files := fs } := by
  rw [edited, h]
  rfl

theorem edited_of_error {w : World} {op : Files → Except FileFault Files} {fault : FileFault}
    (h : op w.files = .error fault) : w.edited op = w := by
  rw [edited, h]
  rfl

@[simp] theorem files_paused (w : World) : w.paused.files = w.files := rfl

@[simp] theorem started_paused (w : World) : w.paused.started = w.started := rfl

end World

namespace Action

open Evolution (bind_of_ok bind_of_error)

variable {α β : Type} {x : Action α} {f : α → Action β} {w w' : World}

/-- Steps that come to the same in two worlds go on to the same. -/
theorem bind_congr_world (h : x w = x w') : (x >>= f) w = (x >>= f) w' := by
  simp only [bind, EStateM.bind, h]

/-! ## The world that an action leaves -/

/-- The world that an action leaves, however it ends. -/
def after (x : Action α) (w : World) : World :=
  match x w with
  | .ok _ w' | .error _ w' => w'

/-- The call is given up while the action waits. -/
def isGivenUp (x : Action α) (w : World) : Bool :=
  match x w with
  | .error .abandoned _ => true
  | .ok _ _ | .error (.failed _) _ => false

theorem after_of_ok {a : α} (h : x w = .ok a w') : x.after w = w' := by rw [after, h]

theorem after_of_error {e : Halt} (h : x w = .error e w') : x.after w = w' := by rw [after, h]

theorem isGivenUp_of_ok {a : α} (h : x w = .ok a w') : x.isGivenUp w = false := by
  rw [isGivenUp, h]

theorem after_bind_of_ok {a : α} (h : x w = .ok a w') : (x >>= f).after w = (f a).after w' := by
  rw [after, bind_of_ok h, after]

theorem after_bind_of_error {e : Halt} (h : x w = .error e w') :
    (x >>= f).after w = x.after w := by
  rw [after_of_error (bind_of_error h), after_of_error h]

theorem isGivenUp_bind_of_ok {a : α} (h : x w = .ok a w') :
    (x >>= f).isGivenUp w = (f a).isGivenUp w' := by
  rw [isGivenUp, bind_of_ok h, isGivenUp]

theorem isGivenUp_bind_of_error {e : Halt} (h : x w = .error e w') :
    (x >>= f).isGivenUp w = x.isGivenUp w := by
  rw [isGivenUp, bind_of_error h, isGivenUp, h]
  cases e <;> rfl

/-- What follows an action can leave the world as it is. -/
theorem after_bind_of_after_eq (hf : ∀ a w', (f a).after w' = w') :
    (x >>= f).after w = x.after w := by
  cases h : x w with
  | error e w' => rw [after_bind_of_error h]
  | ok a w' => rw [after_bind_of_ok h, hf, after_of_ok h]

/-- What follows an action can be none that is given up. -/
theorem isGivenUp_bind_of_isGivenUp_eq (hf : ∀ a w', (f a).isGivenUp w' = false) :
    (x >>= f).isGivenUp w = x.isGivenUp w := by
  cases h : x w with
  | error e w' => rw [isGivenUp_bind_of_error h]
  | ok a w' => rw [isGivenUp_bind_of_ok h, hf, isGivenUp_of_ok h]

theorem isGivenUp_iff : x.isGivenUp w = true ↔ x w = .error .abandoned (x.after w) := by
  rw [isGivenUp, after]
  rcases x w with _ | (_ | _) <;> simp

/-- An action that is given up takes what would have followed with it. -/
theorem bind_of_isGivenUp (h : x.isGivenUp w = true) :
    (x >>= f) w = .error .abandoned (x.after w) := bind_of_error (isGivenUp_iff.1 h)

/-! ## Failures as values -/

theorem attempt_of_isGivenUp (h : x.isGivenUp w = true) :
    attempt x w = .error .abandoned (x.after w) := by
  rw [attempt, isGivenUp_iff.1 h]

theorem attempt_of_not_isGivenUp (h : x.isGivenUp w = false) :
    ∃ r, attempt x w = .ok r (x.after w) := by
  rw [isGivenUp] at h
  rw [attempt, after]
  rcases hx : x w with ⟨a, w'⟩ | ⟨_ | _, w'⟩
  · exact ⟨.ok a, rfl⟩
  · exact ⟨.error _, rfl⟩
  · simp [hx] at h

/-- A failure is a value from here on. -/
theorem attempt_ne_failed {e : Failure} : attempt x w ≠ .error (.failed e) w' := by
  rw [attempt]
  rcases x w with _ | (_ | _) <;> simp

@[simp] theorem after_attempt : (attempt x).after w = x.after w := by
  cases h : x.isGivenUp w with
  | true => rw [after_of_error (attempt_of_isGivenUp h)]
  | false =>
    obtain ⟨r, hr⟩ := attempt_of_not_isGivenUp h
    rw [after_of_ok hr]

@[simp] theorem isGivenUp_attempt : (attempt x).isGivenUp w = x.isGivenUp w := by
  cases h : x.isGivenUp w with
  | true => rw [isGivenUp, attempt_of_isGivenUp h]
  | false =>
    obtain ⟨r, hr⟩ := attempt_of_not_isGivenUp h
    rw [isGivenUp_of_ok hr]

/-- A result that was kept and goes on is the result of the part that was attempted. -/
theorem eq_ok_of_attempt {a : α} (h : attempt x w = .ok (.ok a) w') : x w = .ok a w' := by
  rw [attempt] at h
  generalize hx : x w = r at h
  obtain ⟨b, v⟩ | ⟨_ | _, v⟩ := r
  · obtain ⟨hab, rfl⟩ := EStateM.Result.ok.inj h
    rw [Except.ok.inj hab]
  · cases (EStateM.Result.ok.inj h).1
  · cases h

theorem ofExcept_eq_ok {r : Except Failure α} {a : α} (h : ofExcept r w = .ok a w') :
    r = .ok a := by
  cases r with
  | ok b => rw [(EStateM.Result.ok.inj h).1]
  | error e => cases h

@[simp] theorem after_ofExcept (r : Except Failure α) : (ofExcept r).after w = w := by
  cases r <;> rfl

@[simp] theorem isGivenUp_ofExcept (r : Except Failure α) : (ofExcept r).isGivenUp w = false := by
  cases r <;> rfl

/-- An action that is not given up needs no release of this kind. -/
theorem ifAbandoned_of_not_isGivenUp {release : Action Unit} (h : x.isGivenUp w = false) :
    ifAbandoned x release w = x w := by
  rw [isGivenUp] at h
  rw [ifAbandoned]
  rcases hx : x w with ⟨a, w'⟩ | ⟨_ | _, w'⟩
  · rfl
  · rfl
  · simp [hx] at h

/-- The release of an action that is given up runs on its own: how it goes changes nothing about
the call. -/
theorem ifAbandoned_of_isGivenUp {release : Action Unit} (h : x.isGivenUp w = true) :
    ifAbandoned x release w = .error .abandoned (release.after (x.after w)) := by
  rw [ifAbandoned, isGivenUp_iff.1 h]
  simp only [after]
  cases release _ <;> rfl

theorem eq_ok_of_ifAbandoned {release : Action Unit} {a : α}
    (h : ifAbandoned x release w = .ok a w') : x w = .ok a w' := by
  cases hgiven : x.isGivenUp w with
  | true =>
    rw [ifAbandoned_of_isGivenUp hgiven] at h
    cases h
  | false => rwa [ifAbandoned_of_not_isGivenUp hgiven] at h

/-! ## Working with the files -/

/-- In a wait for the files the call is given up, or goes on. -/
theorem pause_cases (w : World) :
    (w.patience = some 0 ∧ pause w = .error .abandoned w) ∨
    (w.patience ≠ some 0 ∧ pause w = .ok () w.paused) := by
  obtain ⟨files, host, started, patience⟩ := w
  rcases patience with _ | _ | left
  · exact .inr ⟨by simp, rfl⟩
  · exact .inl ⟨rfl, rfl⟩
  · exact .inr ⟨by simp, rfl⟩

/-- What is asked of the files is done before anyone waits for it. -/
theorem edit_eq (w : World) (op : Files → Except FileFault Files) :
    edit op w = (pause >>= fun _ => pure ((op w.files).map fun _ => ())) (w.edited op) := rfl

theorem tryChange_eq (w : World) (op : Files → Except FileFault Files) :
    tryChange op w = pause (w.edited op) := by
  obtain ⟨-, h⟩ | ⟨-, h⟩ := pause_cases (w.edited op)
  · rw [h]
    exact bind_of_error ((edit_eq w op).trans (bind_of_error h))
  · rw [h]
    exact bind_of_ok ((edit_eq w op).trans (bind_of_ok h))

/-- What is asked of the files is done, and then the call is given up or goes on. -/
theorem edit_cases (w : World) (op : Files → Except FileFault Files) :
    (w.patience = some 0 ∧ edit op w = .error .abandoned (w.edited op)) ∨
    (w.patience ≠ some 0 ∧
      edit op w = .ok ((op w.files).map fun _ => ()) (w.edited op).paused) := by
  rw [edit_eq]
  obtain ⟨hgiven, h⟩ | ⟨hwaits, h⟩ := pause_cases (w.edited op)
  · exact .inl ⟨hgiven, bind_of_error h⟩
  · exact .inr ⟨hwaits, bind_of_ok h⟩

/-- A change is given up, or it fails as the files tell, or it is done. -/
theorem change_cases (w : World) (context : Option String) (op : Files → Except FileFault Files) :
    (w.patience = some 0 ∧ change context op w = .error .abandoned (w.edited op)) ∨
    (w.patience ≠ some 0 ∧ change context op w = match op w.files with
      | .ok _ => .ok () (w.edited op).paused
      | .error _ => .error (.failed (.system context)) (w.edited op).paused) := by
  obtain ⟨hgiven, h⟩ | ⟨hwaits, h⟩ := edit_cases w op
  · exact .inl ⟨hgiven, bind_of_error h⟩
  · refine .inr ⟨hwaits, (bind_of_ok h).trans ?_⟩
    cases op w.files <;> rfl

/-- Working with the files starts nothing. -/
theorem started_edit (w : World) (op : Files → Except FileFault Files) :
    ((edit op).after w).started = w.started := by
  obtain ⟨-, h⟩ | ⟨-, h⟩ := edit_cases w op
  · rw [after_of_error h, World.started_edited]
  · rw [after_of_ok h, World.started_paused, World.started_edited]

/-! ## Starting commands -/

theorem start_of_canStart {context : String} {c : Command} (h : w.canStart c = true) :
    start context c w = .ok (w.answer c) (w.having c) := by
  rw [World.canStart] at h
  rw [start, if_pos h]
  rfl

theorem start_of_not_canStart {context : String} {c : Command} (h : w.canStart c = false) :
    start context c w = .error (.failed (.system (some context))) w := by
  rw [World.canStart] at h
  rw [start, if_neg (by simp only [h, Bool.false_eq_true, not_false_eq_true])]

section Run

variable {script directory : String}

/-- Running a script fails to start it, or is given up with it, or has its result. -/
theorem run_cases (w : World) (script directory : String) :
    let c : Command := ⟨.script, script, directory⟩
    (w.canStart c = false ∧ ∃ e, run script directory w = .error (.failed e) w) ∨
    (w.canStart c = true ∧ (w.answer c).ending = .abandons ∧
      run script directory w = .error .abandoned (w.having c)) ∨
    (w.canStart c = true ∧ (w.answer c).ending ≠ .abandons ∧
      ∃ r, run script directory w = .ok r (w.having c)) := by
  intro c
  cases h : w.canStart c with
  | false =>
    exact .inl ⟨rfl, _, bind_of_error (start_of_not_canStart h)⟩
  | true =>
    have hrun : run script directory w = wait (w.answer c) (w.having c) :=
      bind_of_ok (start_of_canStart h)
    rw [hrun, wait]
    cases (w.answer c).ending with
    | abandons => exact .inr (.inl ⟨rfl, rfl, rfl⟩)
    | exits _ | dies | hangs | serves _ | deaf => exact .inr (.inr ⟨rfl, nofun, _, rfl⟩)

theorem after_run_of_canStart (h : w.canStart ⟨.script, script, directory⟩ = true) :
    (run script directory).after w = w.having ⟨.script, script, directory⟩ := by
  obtain ⟨hc, -⟩ | ⟨-, -, hr⟩ | ⟨-, -, r, hr⟩ := run_cases w script directory
  · exact absurd h (by simp [hc])
  · exact after_of_error hr
  · exact after_of_ok hr

theorem isGivenUp_run_of_canStart (h : w.canStart ⟨.script, script, directory⟩ = true) :
    (run script directory).isGivenUp w =
      decide ((w.answer ⟨.script, script, directory⟩).ending = .abandons) := by
  obtain ⟨hc, -⟩ | ⟨-, ha, hr⟩ | ⟨-, ha, r, hr⟩ := run_cases w script directory
  · exact absurd h (by simp [hc])
  · simp [isGivenUp, hr, ha]
  · simp [isGivenUp, hr, ha]

/-- A script has a result only if it was started. -/
theorem eq_having_of_run_eq_ok {r : CommandResult} (h : run script directory w = .ok r w') :
    w' = w.having ⟨.script, script, directory⟩ := by
  obtain ⟨-, e, hr⟩ | ⟨-, -, hr⟩ | ⟨-, -, r', hr⟩ := run_cases w script directory
  · cases hr.symm.trans h
  · cases hr.symm.trans h
  · exact (EStateM.Result.ok.inj (hr.symm.trans h)).2.symm

/-- Running a script starts this script at most. -/
theorem started_run (w : World) (script directory : String) :
    ∃ cs, cs <+: [⟨.script, script, directory⟩] ∧
      ((run script directory).after w).started = w.started ++ cs := by
  obtain ⟨-, e, hr⟩ | ⟨-, -, hr⟩ | ⟨-, -, r, hr⟩ := run_cases w script directory
  · exact ⟨[], List.nil_prefix, by rw [after_of_error hr, List.append_nil]⟩
  · exact ⟨_, List.prefix_rfl, by rw [after_of_error hr, World.started_having]⟩
  · exact ⟨_, List.prefix_rfl, by rw [after_of_ok hr, World.started_having]⟩

end Run

/-- A helper that is started stays with whoever started it. -/
theorem startHelper_of_canStart {label script directory : String}
    (h : w.canStart ⟨.helper, script, directory⟩ = true) :
    startHelper label script directory w =
      .ok ⟨w.answer ⟨.helper, script, directory⟩⟩ (w.having ⟨.helper, script, directory⟩) :=
  bind_of_ok (start_of_canStart h)

/-- Stopping a helper changes nothing in the world; the call can be given up meanwhile. -/
@[simp] theorem after_stop (helper : Helper) : helper.stop.after w = w := by
  rw [Helper.stop]
  cases helper.reaction.ending <;> rfl

/-! ## The commands that an action starts -/

/-- Whatever the world is, the commands that the action starts are of one kind, and they come
behind those that were started before. -/
def Starts (P : Command → Prop) (x : Action α) : Prop :=
  ∀ w, ∃ cs, (x.after w).started = w.started ++ cs ∧ ∀ c ∈ cs, P c

namespace Starts

variable {P : Command → Prop}

theorem mono {Q : Command → Prop} (hx : Starts P x) (h : ∀ c, P c → Q c) : Starts Q x := fun w =>
  (hx w).imp fun _ hcs => ⟨hcs.1, fun c hc => h c (hcs.2 c hc)⟩

/-- An action that leaves the record of commands alone. -/
theorem of_started_eq (h : ∀ w, (x.after w).started = w.started) : Starts P x := fun w =>
  ⟨[], by rw [h, List.append_nil], by simp⟩

/-- An action that starts one command, if that. -/
theorem of_having {c : Command} (hc : P c) (h : ∀ w, x.after w = w ∨ x.after w = w.having c) :
    Starts P x := by
  intro w
  rcases h w with h | h
  · exact ⟨[], by rw [h, List.append_nil], by simp⟩
  · exact ⟨[c], by rw [h, World.started_having], by simpa using hc⟩

theorem pure (a : α) : Starts P (Pure.pure a : Action α) := of_started_eq fun _ => rfl

theorem bind (hx : Starts P x) (hf : ∀ a, Starts P (f a)) : Starts P (x >>= f) := by
  intro w
  obtain ⟨cs, hcs, hP⟩ := hx w
  cases h : x w with
  | error e w' => exact ⟨cs, by rw [after_bind_of_error h, hcs], hP⟩
  | ok a w' =>
    obtain ⟨ds, hds, hQ⟩ := hf a w'
    refine ⟨cs ++ ds, ?_, List.forall_mem_append.2 ⟨hP, hQ⟩⟩
    rw [after_bind_of_ok h, hds, ← after_of_ok h, hcs, List.append_assoc]

theorem attempt (hx : Starts P x) : Starts P (Action.attempt x) := by
  intro w
  rw [after_attempt]
  exact hx w

theorem files (look : Files → α) : Starts P (Action.files look) := of_started_eq fun _ => rfl

theorem edit (op : Files → Except FileFault Files) : Starts P (Action.edit op) :=
  of_started_eq fun w => started_edit w op

theorem fail (e : Failure) : Starts P (Action.fail e : Action α) := of_started_eq fun _ => rfl

theorem change (context : Option String) (op : Files → Except FileFault Files) :
    Starts P (Action.change context op) := by
  refine .bind (.edit op) fun done => ?_
  cases done with
  | ok _ => exact .pure _
  | error fault => exact .fail _

theorem tryChange (op : Files → Except FileFault Files) : Starts P (Action.tryChange op) :=
  .bind (.edit op) fun _ => .pure _

theorem stop (helper : Helper) : Starts P helper.stop :=
  of_started_eq fun w => by rw [after_stop]

theorem run {script directory : String} (hc : P ⟨.script, script, directory⟩) :
    Starts P (Action.run script directory) := by
  refine of_having hc fun w => ?_
  obtain ⟨-, e, hr⟩ | ⟨-, -, hr⟩ | ⟨-, -, r, hr⟩ := run_cases w script directory
  · exact .inl (after_of_error hr)
  · exact .inr (after_of_error hr)
  · exact .inr (after_of_ok hr)

theorem startHelper {label script directory : String} (hc : P ⟨.helper, script, directory⟩) :
    Starts P (Action.startHelper label script directory) := by
  refine of_having hc fun w => ?_
  cases h : w.canStart ⟨.helper, script, directory⟩ with
  | false => exact .inl (after_of_error (bind_of_error (start_of_not_canStart h)))
  | true => exact .inr (after_of_ok (startHelper_of_canStart h))

end Starts

end Action

end HeuristicEvolution

import HeuristicEvolution.Proofs.Task.Scores
import HeuristicEvolution.Proofs.Task.Timeouts
import HeuristicEvolution.Proofs.World.FilePlace

/-!
# The log by which a flow is measured

All candidates of a task share one tree, and a flow counts as run if the log of the uplink is there
when it is over. A log that an earlier candidate has left would be credited to a later one, so it is
removed before the flow. The removal is tried and not checked, and that decides between two cases
for all answers of the host.

A log that can be removed is gone before the first command is started. Two trees that differ in it
only are one tree from then on, so what is started, what is answered and what is read is the same.
If no command of an experiment puts anything where the log belongs, then nothing is there when the
flow is over, and the candidate is not measured.

A log that sticks is another matter. It is found behind the flow even if no command has touched it,
and the figures are those of whoever left it.

## Main definitions

* `Procedure.calls`: the commands that a procedure starts, each with its world.
* `World.Spares`, `World.Keeps`: nothing is put at a place, or taken away from where a path leads.
* `Action.outcome`: what an action comes to, without the world that it leaves.
* `Action.Alike`: an action comes to the same in two worlds.

## Main results

* `Emulation.runFlow_without`: a flow does not depend on an old log that can be removed.
* `Setting.follows_unlogged`: an experiment whose commands write no log has no score, unless an old
  log sticks.
* `Emulation.exists?_sending`: an old log that sticks is the log of a flow that does not touch it.
-/

namespace HeuristicEvolution

open HeuristicEvolution.Action
open Evolution (bind_of_ok bind_of_error)

/-! ## The commands of a procedure -/

namespace World

variable {w : World} {c : Command} {path : String} {place : Place}

/-- A command that is started now puts nothing at a place: what stands there behind it stood there
before. -/
def Spares (place : Place) (w : World) (c : Command) : Prop :=
  ∀ e, (w.having c).files.at? place = some e → w.files.at? place = some e

/-- A command that is started now leaves something where a path leads. -/
def Keeps (path : String) (w : World) (c : Command) : Prop :=
  w.files.exists? path = true → (w.having c).files.exists? path = true

theorem files_having_of_edits (h : (w.answer c).edits = []) : (w.having c).files = w.files := by
  rw [having, h]
  rfl

theorem sameGround_having (w : World) (c : Command) :
    w.files.SameGround (w.having c).files := by
  rw [having]
  generalize (w.answer c).edits = edits
  induction edits generalizing w with
  | nil => exact .refl _
  | cons edit rest ih =>
    exact (Files.sameGround_apply _ _).trans (ih { w with files := edit.apply w.files })

end World

namespace Procedure

/-- The commands that a procedure starts, each with the world in which it is started. -/
def calls : Procedure → World → List (World × Command)
  | nothing, _ | refusedIf _, _ | edit _, _ | tried _, _ => []
  | command c, w => if w.canStart c then [(w, c)] else []
  | asking c rest, w =>
    if w.canStart c then
      (w, c) :: (rest ((w.answer c).ending = .exits 0)).calls (w.having c)
    else []
  | looking test rest, w => (rest (test w.files)).calls w
  | reading path rest, w =>
    match w.files.readText path with
    | .ok text => (rest text).calls w.paused
    | .error _ => []
  | next first rest, w =>
    first.calls w ++ if first.isRefused w then [] else rest.calls (first.reached w)
  | keeping part rest, w => part.calls w ++ (rest (part.isRefused w)).calls (part.reached w)

/-- All commands that a procedure starts are of one kind. -/
def AllCalls (P : World → Command → Prop) (p : Procedure) (w : World) : Prop :=
  ∀ call ∈ p.calls w, P call.1 call.2

variable {p q : Procedure} {w : World} {c : Command} {rest : Bool → Procedure}
  {P : World → Command → Prop}

/-- The commands are started on the host that is there at the beginning. -/
theorem host_of_mem_calls {call : World × Command} (h : call ∈ p.calls w) :
    call.1.host = w.host := by
  induction p generalizing w with
  | nothing | refusedIf refused | edit op | tried op => cases h
  | command c =>
    rw [calls] at h
    split at h
    · rw [List.mem_singleton.mp h]
    · cases h
  | asking c rest ih =>
    rw [calls] at h
    split at h
    · rcases List.mem_cons.mp h with rfl | hrest
      · rfl
      · exact (ih _ hrest : call.1.host = (w.having c).host)
    · cases h
  | looking test rest ih => exact ih _ h
  | reading path rest ih =>
    rw [calls] at h
    split at h
    · exact (ih _ h : call.1.host = w.paused.host)
    · cases h
  | next first rest ihfirst ihrest =>
    rcases List.mem_append.mp h with hfirst | hrest
    · exact ihfirst hfirst
    · split at hrest
      · cases hrest
      · exact (ihrest hrest).trans later_reached.host_eq
  | keeping part rest ihpart ihrest =>
    rcases List.mem_append.mp h with hpart | hrest
    · exact ihpart hpart
    · exact (ihrest _ hrest).trans later_reached.host_eq

/-- Where commands change no file, each of them leaves the files as they are. -/
theorem allCalls_of_quiet (hquiet : ∀ earlier c fs, (w.host earlier c fs).edits = [])
    (hP : ∀ v c, (v.having c).files = v.files → P v c) (p : Procedure) : p.AllCalls P w := by
  intro call hcall
  refine hP _ _ (World.files_having_of_edits ?_)
  rw [World.answer, host_of_mem_calls hcall]
  exact hquiet _ _ _

theorem AllCalls.next (h : (p.next q).AllCalls P w) :
    p.AllCalls P w ∧ (p.isRefused w = false → q.AllCalls P (p.reached w)) := by
  refine ⟨fun call hcall => h call (List.mem_append_left _ hcall), fun hfree call hcall =>
    h call (List.mem_append_right _ ?_)⟩
  rwa [hfree]

theorem AllCalls.keeping (h : (p.keeping rest).AllCalls P w) :
    p.AllCalls P w ∧ (rest (p.isRefused w)).AllCalls P (p.reached w) :=
  List.forall_mem_append.mp h

theorem AllCalls.asking (hstart : w.canStart c = true) (h : (asking c rest).AllCalls P w) :
    P w c ∧ (rest ((w.answer c).ending = .exits 0)).AllCalls P (w.having c) := by
  rw [AllCalls, calls, if_pos hstart] at h
  exact List.forall_mem_cons.mp h

theorem AllCalls.command (hstart : w.canStart c = true) (h : (command c).AllCalls P w) : P w c :=
  h (w, c) (by rw [calls, if_pos hstart]; exact List.mem_singleton_self _)

/-- What a command preserves that was started is preserved if it can also be left out. -/
theorem reached_command_of {R : World → Prop} (hw : R w)
    (h : w.canStart c = true → R (w.having c)) : R ((Procedure.command c).reached w) := by
  rw [reached, go]
  split
  · next hstart => exact h hstart
  · exact hw

theorem reached_command_of_not_canStart (h : w.canStart c = false) :
    (Procedure.command c).reached w = w := by
  rw [reached, go, h]
  rfl

theorem reached_next (h : p.isRefused w = false) :
    (p.next q).reached w = q.reached (p.reached w) := by
  rw [isRefused] at h
  rw [reached, go, h]
  rfl

theorem isRefused_next_eq_false_iff : (p.next q).isRefused w = false ↔
    p.isRefused w = false ∧ q.isRefused (p.reached w) = false := by
  rw [isRefused, go, isRefused, isRefused, reached]
  cases h : (p.go w).2 <;> simp [h]

theorem reached_keeping :
    (p.keeping rest).reached w = (rest (p.isRefused w)).reached (p.reached w) := rfl

theorem isRefused_keeping :
    (p.keeping rest).isRefused w = (rest (p.isRefused w)).isRefused (p.reached w) := rfl

/-- A command that was not refused was started. -/
theorem canStart_of_not_isRefused (h : (Procedure.command c).isRefused w = false) :
    w.canStart c = true := by
  rw [isRefused, go] at h
  cases hstart : w.canStart c with
  | true => rfl
  | false => simp [hstart] at h

theorem files_reached_tried (op : Files → Except FileFault Files) :
    ((tried op).reached w).files = (op w.files).toOption.getD w.files := rfl

theorem edited_of_not_isRefused {op : Files → Except FileFault Files}
    (h : (edit op).isRefused w = false) :
    ∃ fs, op w.files = .ok fs ∧ ((edit op).reached w).files = fs := by
  rw [isRefused, go] at h
  rw [reached, go, World.files_paused, World.edited]
  cases hop : op w.files with
  | ok fs => exact ⟨fs, rfl, rfl⟩
  | error fault => simp [hop, Except.isOk, Except.toBool] at h

end Procedure

/-! ## Flows -/

/-- What an action comes to, without the world that it leaves. -/
def Action.outcome {α : Type} (x : Action α) (w : World) : Except Halt α :=
  match x w with
  | .ok a _ => .ok a
  | .error e _ => .error e

/-- An action comes to the same in two worlds, and the same commands have been started by then. -/
def Action.Alike {α : Type} (x : Action α) (w v : World) : Prop :=
  x.outcome w = x.outcome v ∧ (x.after w).started = (x.after v).started

namespace Action.Alike

variable {α : Type} {x : Action α} {w v w' v' : World}

theorem of_eq (h : x w = x v) : x.Alike w v := by
  rw [Alike, outcome, outcome, after, after, h]
  exact ⟨rfl, rfl⟩

theorem of_error {halt : Halt} (hw : x w = .error halt w') (hv : x v = .error halt v')
    (h : w'.started = v'.started) : x.Alike w v := by
  rw [Alike, outcome, outcome, after, after, hw, hv]
  exact ⟨rfl, h⟩

/-- Two runs that begin with one change come to the same if the change fails in both, or if they are
one from there on. -/
theorem change_bind {context : Option String} {op : Files → Except FileFault Files}
    {g : Unit → Action α} (hpatience : w.patience = v.patience) (hstarted : w.started = v.started)
    (h : (∃ fault, op w.files = .error fault ∧ op v.files = .error fault) ∨
      ∃ fs gs, op w.files = .ok fs ∧ op v.files = .ok gs ∧
        g () ({ w with files := fs } : World).paused =
          g () ({ v with files := gs } : World).paused) :
    (change context op >>= g).Alike w v := by
  obtain ⟨hgiven, hw⟩ | ⟨hwaits, hw⟩ := change_cases w context op <;>
    obtain ⟨hgiven', hv⟩ | ⟨hwaits', hv⟩ := change_cases v context op
  · exact of_error (bind_of_error hw) (bind_of_error hv) hstarted
  · exact absurd (hpatience.symm.trans hgiven) hwaits'
  · exact absurd (hpatience.trans hgiven') hwaits
  obtain ⟨fault, hfault, hfault'⟩ | ⟨fs, gs, hfs, hgs, heq⟩ := h
  · rw [hfault] at hw
    rw [hfault'] at hv
    exact of_error (bind_of_error hw) (bind_of_error hv) hstarted
  · rw [hfs, World.edited_of_ok hfs] at hw
    rw [hgs, World.edited_of_ok hgs] at hv
    exact of_eq ((bind_of_ok hw).trans (heq.trans (bind_of_ok hv).symm))

end Action.Alike

/-- The world without what stands at one place. -/
def World.without (w : World) (place : Place) : World := { w with files := w.files.without place }

namespace Emulation

variable {e : Emulation} {fs made : Files} {w : World} {place : Place}

theorem goal_uplinkLog (e : Emulation) (fs : Files) :
    fs.goal e.uplinkLog = fs.goal e.logs ++ ["down"] :=
  Files.goal_append e.logs ⟨rfl, by decide⟩

/-- The directory of the logs does not lie below the log of the uplink. -/
theorem uplinkLog_beside (e : Emulation) (fs : Files) :
    ¬ fs.goal e.uplinkLog <+: fs.goal e.logs := by
  intro hbelow
  have hlength := hbelow.length_le
  rw [goal_uplinkLog, List.length_append, List.length_singleton] at hlength
  omega

/-- **A flow does not depend on an old log that can be removed.** The two runs are one from the
removal of the log on, which is before the first command. -/
theorem runFlow_without (h : w.files.HasFileAt e.uplinkLog place)
    (hallowed : w.files.refusal .remove place = none) :
    e.runFlow.Alike w (w.without place) := by
  have hbeside : ¬ place <+: w.files.goal e.logs :=
    Files.place_eq_goal h.leads ▸ e.uplinkLog_beside w.files
  have hclean : (w.without place).files.makeDirectories e.logs =
      (w.files.makeDirectories e.logs).map (·.without place) :=
    Files.makeDirectories_without hbeside
  refine .change_bind rfl rfl ?_
  cases hmade : w.files.makeDirectories e.logs with
  | error fault => exact .inl ⟨fault, rfl, by rw [hclean, hmade]; rfl⟩
  | ok made =>
    refine .inr ⟨made, made.without place, rfl, by rw [hclean, hmade]; rfl, ?_⟩
    have hfile := h.makeDirectories hbeside hmade
    have hallowed' : made.refusal .remove place = none := by
      rw [(Files.sameGround_makeDirectories hmade).refusal_eq, hallowed]
    refine bind_congr_world ?_
    rw [tryChange_eq, tryChange_eq, World.edited_of_ok (hfile.removeFile_eq hallowed'),
      World.edited_of_error hfile.removeFile_without]
    rfl

end Emulation

/-! ## Where the log belongs -/

namespace World

variable {w : World} {c : Command} {path : String} {place : Place}

/-- A path whose goal is a place at which nothing stands that sticks. -/
structure Loose (w : World) (path : String) (place : Place) : Prop where
  goal : w.files.goal path = place
  loose : w.files.sticksAt place = false

/-- A path whose goal is a place at which nothing stands. -/
structure Lacks (w : World) (path : String) (place : Place) : Prop where
  goal : w.files.goal path = place
  nothing : w.files.at? place = none

theorem Loose.having (h : w.Loose path place) (hspares : w.Spares place c) :
    (w.having c).Loose path place := by
  have hground := w.sameGround_having c
  obtain ⟨hplain, hallowed⟩ := Files.sticksAt_eq_false_iff.mp h.loose
  refine ⟨(hground.goal_eq path).trans h.goal, Files.sticksAt_eq_false_iff.mpr ⟨?_, ?_⟩⟩
  · rw [Bool.eq_false_iff, Ne, Files.isDirectoryAt_iff] at hplain ⊢
    exact fun hdirectory => hplain (hspares _ hdirectory)
  · rw [hground.refusal_eq, hallowed]

theorem Lacks.having (h : w.Lacks path place) (hspares : w.Spares place c) :
    (w.having c).Lacks path place := by
  refine ⟨((w.sameGround_having c).goal_eq path).trans h.goal, ?_⟩
  cases he : (w.having c).files.at? place with
  | none => rfl
  | some e => exact absurd (hspares e he) (by simp [h.nothing])

theorem Loose.reached (h : w.Loose path place)
    (hspares : (Procedure.command c).AllCalls (Spares place) w) :
    ((Procedure.command c).reached w).Loose path place :=
  Procedure.reached_command_of (R := (Loose · path place)) h fun hstart =>
    h.having (hspares.command hstart)

theorem Lacks.reached (h : w.Lacks path place)
    (hspares : (Procedure.command c).AllCalls (Spares place) w) :
    ((Procedure.command c).reached w).Lacks path place :=
  Procedure.reached_command_of (R := (Lacks · path place)) h fun hstart =>
    h.having (hspares.command hstart)

theorem Lacks.exists?_eq (h : w.Lacks path place) : w.files.exists? path = false := by
  unfold Files.exists? Files.entry?
  split
  · next found hfound => rw [Files.place_eq_goal hfound, h.goal, h.nothing, Option.isSome_none]
  · rfl

theorem exists?_reached (h : w.files.exists? path = true)
    (hkeeps : (Procedure.command c).AllCalls (Keeps path) w) :
    ((Procedure.command c).reached w).files.exists? path = true :=
  Procedure.reached_command_of (R := fun v => v.files.exists? path = true) h
    fun hstart => hkeeps.command hstart h

end World

namespace Emulation

variable {e : Emulation} {fs made : Files} {w : World} {place : Place}

/-- Directories are made beside the log of the uplink, so what sticks there sticks as before. -/
theorem sticksAt_made (hmade : fs.makeDirectories e.logs = .ok made) :
    made.sticksAt (fs.goal e.uplinkLog) = fs.sticksAt (fs.goal e.uplinkLog) := by
  rw [Files.sticksAt, Files.sticksAt, Files.isDirectoryAt, Files.isDirectoryAt,
    (Files.madeBeside_makeDirectories (e.uplinkLog_beside fs) hmade).at?_eq,
    (Files.sameGround_makeDirectories hmade).refusal_eq]

theorem logs_ne (e : Emulation) : e.logs ≠ "" := by
  unfold logs Path.append
  split
  · decide
  · split <;> simp

/-! ### A log that nobody writes -/

/-- What is done before the first command of a flow leaves nothing in the place of a log that does
not stick, or no command can be started in the directory of the logs. -/
theorem lacks_of_cleared (h : w.Loose e.uplinkLog place) :
    let cleared := (Procedure.tried fun fs => fs.removeFile e.uplinkLog).reached w
    cleared.Lacks e.uplinkLog place ∨ cleared.files.isDirectory e.logs = false := by
  intro cleared
  have hground : w.files.SameGround cleared.files :=
    Files.sameGround_getD fun _ => Files.sameGround_removeFile
  obtain hnothing | hlost := Files.at?_tried_removeFile e.logs_ne ⟨rfl, by decide⟩
    (h.goal.symm ▸ h.loose : w.files.sticksAt (w.files.goal e.uplinkLog) = false)
  · exact .inl ⟨(hground.goal_eq _).trans h.goal, h.goal ▸ hnothing⟩
  · exact .inr hlost

/-- **Where no log sticks and no command writes one, none is found behind the flow.** -/
theorem lacks_sending (h : w.Loose e.uplinkLog place)
    (hspares : e.sending.AllCalls (World.Spares place) w)
    (hfree : e.sending.isRefused w = false) :
    (e.sending.reached w).Lacks e.uplinkLog place := by
  obtain ⟨hmaking, hfree⟩ := Procedure.isRefused_next_eq_false_iff.mp hfree
  obtain ⟨made, hmade, hfiles⟩ := Procedure.edited_of_not_isRefused hmaking
  obtain ⟨hremoving, hfree⟩ := Procedure.isRefused_next_eq_false_iff.mp hfree
  replace hspares := (hspares.next.2 hmaking).next.2 hremoving
  rw [sending, Procedure.reached_next hmaking, Procedure.reached_next hremoving]
  have hloose : ((Procedure.edit fun fs => fs.makeDirectories e.logs).reached w).Loose
      e.uplinkLog place := by
    refine ⟨?_, ?_⟩
    · rw [hfiles, (Files.sameGround_makeDirectories hmade).goal_eq, h.goal]
    · rw [hfiles, ← h.goal, sticksAt_made hmade, h.goal, h.loose]
  have hcleared := lacks_of_cleared hloose
  generalize (Procedure.tried fun fs => fs.removeFile e.uplinkLog).reached _ = cleared
    at hcleared hfree hspares ⊢
  obtain ⟨hpkill, hspares⟩ := hspares.keeping
  rw [Procedure.isRefused_keeping] at hfree
  obtain ⟨hserving, hfree⟩ := Procedure.isRefused_next_eq_false_iff.mp hfree
  obtain ⟨hsending, -⟩ := Procedure.isRefused_next_eq_false_iff.mp hfree
  obtain hlacks | hlost := hcleared
  · rw [Procedure.reached_keeping, Procedure.reached_next hserving,
      Procedure.reached_next hsending]
    exact ((hlacks.reached hpkill).reached hspares.next.1).reached
      (hspares.next.2 hserving).next.1
  · -- the server cannot be started either where the first command could not
    have hnot : ∀ role script, cleared.canStart ⟨role, script, e.logs⟩ = false := fun _ _ => by
      rw [World.canStart, hlost, Bool.false_and]
    have hstarted := Procedure.canStart_of_not_isRefused hserving
    rw [Procedure.reached_command_of_not_canStart (hnot _ _), hnot] at hstarted
    cases hstarted

/-! ### A log that sticks -/

/-- An old log that sticks is still there when the first command of a flow is started. -/
theorem exists?_of_cleared (hmade : w.files.makeDirectories e.logs = .ok made)
    (h : w.files.exists? e.uplinkLog = true)
    (hsticks : w.files.sticksAt (w.files.goal e.uplinkLog) = true) :
    ((made.removeFile e.uplinkLog).toOption.getD made).exists? e.uplinkLog = true := by
  obtain ⟨place, entry, hplace, hentry⟩ := Files.exists?_iff.mp h
  obtain rfl := Files.place_eq_goal hplace
  have hplace' := Files.place_makeDirectories hplace hmade
  rw [← sticksAt_made hmade] at hsticks
  obtain ⟨fault, hfault⟩ := Files.removeFile_of_sticks hplace' hsticks
  rw [hfault]
  refine Files.exists?_iff.mpr ⟨_, entry, hplace', ?_⟩
  exact (Files.madeBeside_makeDirectories (e.uplinkLog_beside _) hmade).at?_eq.trans hentry

/-- **An old log that sticks is found behind the flow** if no command takes it away. -/
theorem exists?_sending (h : w.files.exists? e.uplinkLog = true)
    (hsticks : w.files.sticksAt (w.files.goal e.uplinkLog) = true)
    (hkeeps : e.sending.AllCalls (World.Keeps e.uplinkLog) w)
    (hfree : e.sending.isRefused w = false) :
    (e.sending.reached w).files.exists? e.uplinkLog = true := by
  obtain ⟨hmaking, hfree⟩ := Procedure.isRefused_next_eq_false_iff.mp hfree
  obtain ⟨made, hmade, hfiles⟩ := Procedure.edited_of_not_isRefused hmaking
  obtain ⟨hremoving, hfree⟩ := Procedure.isRefused_next_eq_false_iff.mp hfree
  replace hkeeps := (hkeeps.next.2 hmaking).next.2 hremoving
  rw [sending, Procedure.reached_next hmaking, Procedure.reached_next hremoving]
  have hcleared : ((Procedure.tried fun fs => fs.removeFile e.uplinkLog).reached
      ((Procedure.edit fun fs => fs.makeDirectories e.logs).reached w)).files.exists?
        e.uplinkLog = true := by
    rw [Procedure.files_reached_tried, hfiles]
    exact exists?_of_cleared hmade h hsticks
  generalize (Procedure.tried fun fs => fs.removeFile e.uplinkLog).reached _ = cleared
    at hcleared hfree hkeeps ⊢
  obtain ⟨hpkill, hkeeps⟩ := hkeeps.keeping
  rw [Procedure.isRefused_keeping] at hfree
  obtain ⟨hserving, hfree⟩ := Procedure.isRefused_next_eq_false_iff.mp hfree
  obtain ⟨hsending, -⟩ := Procedure.isRefused_next_eq_false_iff.mp hfree
  rw [Procedure.reached_keeping, Procedure.reached_next hserving, Procedure.reached_next hsending]
  exact World.exists?_reached (World.exists?_reached (World.exists?_reached hcleared hpkill)
    hkeeps.next.1) (hkeeps.next.2 hserving).next.1

end Emulation

/-! ## Flows and experiments -/

namespace Emulation

variable {e : Emulation} {w w' : World} {place : Place} {r : FlowReport}

/-- **A flow whose commands write no log has no figures**, unless an old log sticks. -/
theorem follows_unlogged (h : w.Loose e.uplinkLog place)
    (hspares : e.flowing.AllCalls (World.Spares place) w) :
    Follows e.flowing w e.runFlow fun r => r.summary = none := by
  refine (e.follows_runFlow w).mono fun hfree r hsums => ?_
  have hlacks := lacks_sending h hspares.next.1 (Procedure.isRefused_next_eq_false_iff.mp hfree).1
  rwa [Sums, hlacks.exists?_eq, if_neg Bool.false_ne_true] at hsums

/-- A flow that comes to an end while an old log sticks is measured by that log. -/
theorem sums_of_sticks (h : w.files.exists? e.uplinkLog = true)
    (hsticks : w.files.sticksAt (w.files.goal e.uplinkLog) = true)
    (hkeeps : e.sending.AllCalls (World.Keeps e.uplinkLog) w) (hr : e.runFlow w = .ok r w') :
    let text := Text.trim
      ((e.sending.reached w).answer ⟨.script, summaryScript, e.logs⟩).stderr
    r.logs.get? "throughput_summary" = some (.str text) ∧
      r.summary = LinkSummary.ofReport? text := by
  have hsums : Follows e.flowing w e.runFlow _ :=
    (e.follows_runFlow w).mono fun hfree r (hr : e.Sums _ r) =>
      (⟨(Procedure.isRefused_next_eq_false_iff.mp hfree).1, hr⟩ :
        e.sending.isRefused w = false ∧ e.Sums (e.sending.reached w) r)
  rw [Follows, hr] at hsums
  obtain ⟨-, hfree, hsums⟩ := hsums
  rwa [Sums, if_pos (exists?_sending h hsticks hkeeps hfree)] at hsums

end Emulation

/-- The experiment counts as failed and has no score. -/
def Outcome.Unmeasured (o : Outcome) : Prop := o.executed = false ∧ o.score = none

theorem FlowReport.unmeasured {r : FlowReport} (h : r.summary = none) (logs : Json) :
    (r.outcome logs).Unmeasured := by
  rw [outcome, h]
  exact ⟨rfl, rfl⟩

theorem KernelModule.follows_unlogged {e : Emulation} {w : World} {place : Place}
    (h : w.Loose e.uplinkLog place)
    (hspares : (experimenting e).AllCalls (World.Spares place) w) :
    Follows (experimenting e) w (experiment e) Outcome.Unmeasured := by
  obtain ⟨hunloading, hspares⟩ := hspares.next
  refine .bind_reached .run fun hfree _ _ => .runThen_having fun hstart load hsuccess => ?_
  obtain ⟨hloading, hspares⟩ := (hspares hfree).asking hstart
  have hloose := (h.reached hunloading).having hloading
  rw [← hsuccess] at hspares
  cases hloaded : load.success with
  | true =>
    rw [hloaded] at hspares
    exact .ifAbandoned (.keep (e.follows_unlogged hloose hspares.keeping.1) fun report hreport =>
      .bind (.map (Q := fun _ => True) .run fun _ _ => trivial) fun _ w₃ _ =>
      .map (.ofExcept hreport) fun _ hr => FlowReport.unmeasured hr _)
  | false => exact .pure ⟨rfl, rfl⟩

theorem Probe.follows_unlogged {e : Emulation} {w : World} {place : Place}
    (h : w.Loose e.uplinkLog place)
    (hspares : (experimenting e).AllCalls (World.Spares place) w) :
    Follows (experimenting e) w (experiment e) Outcome.Unmeasured := by
  obtain ⟨hloader, hspares⟩ := hspares.next
  refine .bind_reached .startHelper fun hfree _ hhelper => ?_
  have hflowing := (hspares hfree).keeping.1
  exact .keep (e.follows_unlogged (h.reached hloader) hflowing) fun _ hreport =>
    .keep .run fun _ hlisting => .bind_reached .run fun _ _ _ =>
    .stop hhelper (.trans Procedure.later_reached (.trans Procedure.later_reached
      (.trans Procedure.later_reached Procedure.later_reached))) fun _ =>
    .bind_reached (.ofExcept hreport) fun _ _ hr => .map (.ofExcept hlisting) fun _ _ =>
      FlowReport.unmeasured hr _

/-- The link that a setting emulates. -/
def Setting.link? : Setting → Option Link
  | .cache _ => none
  | .kernelModule link | .probe link => some link

theorem Setting.follows_unlogged {s : Setting} {link : Link} {root : String} {w : World}
    {place : Place} (hlink : s.link? = some link)
    (h : w.Loose (Emulation.uplinkLog ⟨link, root⟩) place)
    (hspares : (s.experimenting root).AllCalls (World.Spares place) w) :
    Follows (s.experimenting root) w (s.experiment root) Outcome.Unmeasured := by
  cases s with
  | cache a => cases hlink
  | kernelModule l =>
    obtain rfl := Option.some.inj hlink
    exact KernelModule.follows_unlogged h hspares
  | probe l =>
    obtain rfl := Option.some.inj hlink
    exact Probe.follows_unlogged h hspares

/-- **A flow is measured by its own log, or by one that sticks.** Let a file stand in the place of
the log of the uplink, with any contents, and let it be possible to remove it. Whatever the host
answers and wherever the call is given up, a flow comes to the same result, with the same figures
and logs, as in the tree without that file, and starts the same commands. In an experiment with a
link, let nothing stick in that place and let no command that the experiment starts put anything
there. Then it counts as failed and has no score; and it has an outcome unless a step of it is
refused or the call is given up. But let something stick there, be it a directory or a file whose
removal is refused, and let no command take it away before the flow is over. Then a flow that comes
to an end is measured by it: the figures are read from what is printed about it, and the candidate
need not have run for them. -/
theorem old_log_is_removed_or_measured (e : Emulation) (w : World) :
    let place := w.files.goal e.uplinkLog
    (w.files.HasFileAt e.uplinkLog place → w.files.refusal .remove place = none →
      (w.without place).files.exists? e.uplinkLog = false ∧
      e.runFlow.outcome w = e.runFlow.outcome (w.without place) ∧
      (e.runFlow.after w).started = (e.runFlow.after (w.without place)).started) ∧
    (w.files.sticksAt place = false → ∀ s : Setting, s.link? = some e.link →
      (s.experimenting e.root).AllCalls (World.Spares place) w →
        (∀ o w', s.experiment e.root w = .ok o w' → o.executed = false ∧ o.score = none) ∧
        (w.Waits → (s.experimenting e.root).isRefused w = false →
          ∃ o w', s.experiment e.root w = .ok o w')) ∧
    (w.files.exists? e.uplinkLog = true → w.files.sticksAt place = true →
      e.sending.AllCalls (World.Keeps e.uplinkLog) w →
        ∀ r w', e.runFlow w = .ok r w' →
          let text := Text.trim
            ((e.sending.reached w).answer ⟨.script, Emulation.summaryScript, e.logs⟩).stderr
          r.logs.get? "throughput_summary" = some (.str text) ∧
            r.summary = LinkSummary.ofReport? text) := by
  intro place
  refine ⟨fun h hallowed => ⟨h.exists?_without, Emulation.runFlow_without h hallowed⟩, ?_,
    fun h hsticks hkeeps r w' hr => Emulation.sums_of_sticks h hsticks hkeeps hr⟩
  intro hloose s hlink hspares
  have hfollows : Follows (s.experimenting e.root) w (s.experiment e.root) Outcome.Unmeasured :=
    Setting.follows_unlogged hlink ⟨rfl, hloose⟩ hspares
  refine ⟨fun o w' ho => ?_, fun hwaits hfree => ?_⟩
  · rw [Follows, ho] at hfollows
    obtain ⟨-, hunmeasured⟩ := hfollows
    exact hunmeasured
  · obtain ⟨o, ho, -⟩ := hfollows.eq_ok hwaits hfree
    exact ⟨o, _, ho⟩

/-- The place of the log of the uplink in the trees of the examples. -/
def logPlace : Place := ["w", "tcp_cc", "evaluate", "logs", "down"]

/-- A tree with what the tasks need, in which a candidate has left something in the place of its
log. -/
def Files.used (left : Entry) : Files :=
  { Files.furnished with entries :=
      (["w", "tcp_cc", "evaluate", "logs"], .directory) :: (logPlace, left) ::
        Files.furnished.entries }

/-- The host on which commands change no file, and print the figures of a flow. -/
def Host.figuring : Host := fun _ _ _ =>
  ⟨.exits 0, "", "Average throughput: 11.52 Mbits/s (96.0% utilization)", []⟩

/-- A world in which an old log is a file that may be removed. -/
def World.used : World := { files := .used (.text "12 # 1504"), host := .figuring }

/-- A world in which an old log is a file that may not be removed. -/
def World.sealed : World :=
  { World.used with files.refusal := fun access place =>
      if access = .remove ∧ place = logPlace then some .notPermitted else none }

/-- A world in which an old log is a directory. -/
def World.littered : World := { files := .used .directory, host := .figuring }

/-- The three cases on a host that prints figures and changes no file: an old log is removed, so
that the flow is that of a tree without it and the candidate is not measured, or it sticks and the
flow has figures. -/
theorem old_log_is_removed_or_measured_dead_candidate :
    let e : Emulation := ⟨.standard, "/w"⟩
    World.used.files.exists? e.uplinkLog = true ∧
      e.runFlow.outcome .used = e.runFlow.outcome (World.used.without logPlace) ∧
      (∃ o w', Setting.experiment "/w" (.probe .standard) .used = .ok o w' ∧
        o.executed = false ∧ o.score = none) ∧
      ∃ r w', e.runFlow .sealed = .ok r w' ∧ r.summary.isSome = true := by
  intro e
  obtain ⟨hflow, hexperiment, -⟩ := old_log_is_removed_or_measured e .used
  obtain ⟨-, -, hsticking⟩ := old_log_is_removed_or_measured e .sealed
  have hquiet : ∀ earlier c fs, (Host.figuring earlier c fs).edits = [] := fun _ _ _ => rfl
  have hwaits : Host.figuring.Waits := by
    intro earlier c fs hending
    cases hending
  have hplace : World.used.files.goal e.uplinkLog = logPlace := by decide +kernel
  have hfile : World.used.files.HasFileAt e.uplinkLog logPlace := by
    refine ⟨by decide +kernel, ⟨.text "12 # 1504", by rfl, by simp⟩, by decide +kernel⟩
  have hspares : (Setting.experimenting "/w" (.probe .standard)).AllCalls
      (World.Spares (World.used.files.goal e.uplinkLog)) .used :=
    Procedure.allCalls_of_quiet hquiet (fun v c h entry hentry => by rwa [h] at hentry) _
  have hkeeps : e.sending.AllCalls (World.Keeps e.uplinkLog) .sealed :=
    Procedure.allCalls_of_quiet hquiet (fun v c h hthere => by rwa [h]) _
  obtain ⟨hunmeasured, houtcome⟩ :=
    hexperiment (by decide +kernel) (.probe .standard) rfl hspares
  obtain ⟨o, w', ho⟩ := houtcome ⟨hwaits, rfl⟩ (by decide +kernel)
  obtain ⟨r, hr, -⟩ := (e.follows_runFlow .sealed).eq_ok ⟨hwaits, rfl⟩ (by decide +kernel)
  obtain ⟨-, hsummary⟩ := hsticking (by decide +kernel) (by decide +kernel) hkeeps r _ hr
  have hhost : (e.sending.reached .sealed).host = Host.figuring :=
    Procedure.later_reached.host_eq
  have hprinted : (LinkSummary.ofReport? (Text.trim
      "Average throughput: 11.52 Mbits/s (96.0% utilization)")).isSome = true := by
    decide +kernel
  rw [World.answer, hhost] at hsummary
  rw [hplace] at hflow
  obtain ⟨-, hsame, -⟩ := hflow hfile rfl
  refine ⟨by decide +kernel, hsame, ⟨o, w', ho, hunmeasured o w' ho⟩, r, _, hr, ?_⟩
  rw [hsummary]
  exact hprinted

/-- Whether an experiment behind a probe counts as run, and whether it has a score. -/
def Probe.verdict (e : Emulation) (w : World) : Option (Bool × Bool) :=
  ((experiment e).result? w).map fun o => (o.executed, o.score.isSome)

/-- No command of an experiment writes a log. In the tree without an old log the experiment counts
as failed; with one that may not be removed, or with a directory in its place, it counts as run and
has a score. -/
theorem dead_candidate_is_measured :
    let e : Emulation := ⟨.standard, "/w"⟩
    (Probe.experimenting e).AllCalls (World.Spares logPlace) .sealed ∧
      Probe.verdict e (World.sealed.without logPlace) = some (false, false) ∧
      Probe.verdict e .sealed = some (true, true) ∧
      Probe.verdict e .littered = some (true, true) := by
  intro e
  have hspares : (Probe.experimenting e).AllCalls (World.Spares logPlace) .sealed :=
    Procedure.allCalls_of_quiet (fun _ _ _ => rfl)
      (fun v c h entry hentry => by rwa [h] at hentry) _
  exact ⟨hspares, by decide +kernel, by decide +kernel, by decide +kernel⟩

end HeuristicEvolution

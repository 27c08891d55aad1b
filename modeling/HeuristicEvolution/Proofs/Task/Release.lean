import HeuristicEvolution.Proofs.Task.Commands
import HeuristicEvolution.Task.KernelModule
import HeuristicEvolution.Task.Probe

/-!
# What an experiment leaves attached

The code under test lives outside the process during an experiment: as a loaded module, or behind a
loader with the rights of the system. Both outlive the process unless a command takes them down.
This module follows the two experiments over all answers of the host and all points at which the
call can be given up, and says when that command is started.

## Two ways of letting go

A module stands in a slot that is freed in any case: behind the flow by a command that the call
waits for, and by one that runs on its own when the flow is given up. The slot counts as free as
soon as the first of these is started, so that nobody frees it again when the call is given up with
that very command. A loader has no slot. It is ended by a command that stands behind everything
that is measured, and a call that is given up before does not get there.

## Main definitions

* `Emulation.commands`: the commands of a flow.
* `KernelModule.loads`: the module was seen to be loaded.
* `Probe.session`: an experiment up to the end of the loaders.

## Main results

* `KernelModule.module_is_unloaded`: a loaded module is unloaded once, after the flow, however the
  experiment ends; only a call that is given up during this very unloading leaves it half done.
* `Probe.loaders_are_ended`: the loaders are ended after the flow unless the call was given up
  before; then nothing ends them.
-/

namespace HeuristicEvolution

open HeuristicEvolution.Action
open Evolution (bind_of_ok bind_of_error)

/-! ## The commands of a flow -/

namespace Emulation

/-- The commands of a flow. -/
def commands (e : Emulation) : List Command :=
  [⟨.script, "pkill iperf3", e.logs⟩, ⟨.helper, serverScript, e.logs⟩,
    ⟨.script, e.flowScript, e.logs⟩, ⟨.script, summaryScript, e.logs⟩]

/-- A flow starts commands of a flow only. -/
theorem starts_runFlow (e : Emulation) : Starts (· ∈ e.commands) e.runFlow := by
  refine .bind (.change _ _) fun _ => .bind (.tryChange _) fun _ => .bind (.attempt (.run ?_))
    fun _ => .bind (.startHelper ?_) fun server => .bind (.run ?_) fun flow =>
    .bind (.stop server) fun served => .bind (.files _) fun logged => ?_
  · simp [commands]
  · simp [commands]
  · simp [commands]
  · split
    · exact .bind (.run (by simp [commands])) fun _ => .pure _
    · exact .pure _

theorem flowScript_eq (e : Emulation) : ∃ rest, e.flowScript = "mm-delay " ++ rest := by
  delta flowScript
  simp only [String.append_assoc]
  exact ⟨_, rfl⟩

/-- The script of a flow opens with the tool that delays packets. -/
theorem head?_flowScript (e : Emulation) : e.flowScript.toList.head? = some 'm' := by
  obtain ⟨rest, h⟩ := e.flowScript_eq
  rw [h, String.toList_append]
  rfl

theorem head?_summaryScript : summaryScript.toList.head? = some 'm' := by decide

/-- A command is told from those of a flow by its script. -/
theorem notMem_commands {e : Emulation} {role : CommandRole} {script directory : String}
    (hhead : script.toList.head? ≠ some 'm') (hkill : script ≠ "pkill iperf3")
    (hserver : script ≠ serverScript) : ⟨role, script, directory⟩ ∉ e.commands := by
  simp only [commands, List.mem_cons, Command.mk.injEq, List.not_mem_nil, or_false]
  rintro (⟨-, h, -⟩ | ⟨-, h, -⟩ | ⟨-, rfl, -⟩ | ⟨-, rfl, -⟩)
  · exact hkill h
  · exact hserver h
  · exact hhead e.head?_flowScript
  · exact hhead head?_summaryScript

end Emulation

/-! ## Small worlds

The worlds of the examples. Scripts succeed at once and helpers stay up, but for the command in the
wait for which the call is given up. A file in place of the directory of the logs makes a flow fail
at its start. -/

/-- A tree with an entry in the place of the directory of the logs. -/
def Files.withLogs (logs : Entry) : Files where
  entries := [(["w"], .directory), (["w", "tcp_cc"], .directory),
    (["w", "tcp_cc", "kern_mod"], .directory), (["w", "tcp_cc", "bpf_scaffolding"], .directory),
    (["w", "tcp_cc", "evaluate"], .directory), (["w", "tcp_cc", "evaluate", "logs"], logs)]
  here := []

/-- The host gives up the call in the wait for the command behind the first `k`. -/
def Host.droppingAt (k : Nat) : Host := fun earlier c _ =>
  let ending : Ending := if c.role = .helper then .serves 0 else .exits 0
  ⟨if earlier.length = k then .abandons else ending, "", "", []⟩

/-- A world in which the call is given up in the wait for the command behind the first `k`. -/
def World.droppingAt (k : Nat) (logs : Entry) : World where
  files := .withLogs logs
  host := .droppingAt k

/-! ## The kernel module -/

namespace KernelModule

/-- The command that loads the module. -/
def loadCommand (root : String) : Command := ⟨.script, loadScript, directory root⟩

/-- The command that unloads the module. -/
def unloadCommand (root : String) : Command := ⟨.script, unloadScript, directory root⟩

/-- Takes the slot of the module: what stands in it is unloaded first. -/
def loading (root : String) : Action CommandResult := do
  let _ ← Action.run unloadScript (directory root)
  Action.run loadScript (directory root)

/-- Frees the slot of the module. -/
def unloading (root : String) : Action Unit := do
  let _ ← Action.run unloadScript (directory root)

/-- The module was seen to be loaded. -/
def loads (root : String) (w : World) : Bool :=
  match loading root w with
  | .ok load _ => load.success
  | .error _ _ => false

/-- A flow while the slot is held. -/
def holding (e : Emulation) : Action Outcome := do
  let report ← Action.ifAbandoned (Action.attempt e.runFlow) (unloading e.root)
  unloading e.root
  return (← Action.ofExcept report).outcome .empty

theorem experiment_eq (e : Emulation) :
    experiment e = (do
      let load ← loading e.root
      if load.success then holding e
      else return ⟨false, .empty, .ofMembers [("insmod_logs", load.toJson)]⟩) := by
  simp only [experiment, loading, holding, unloading, bind_assoc]

theorem unloadCommand_notMem_commands (e : Emulation) : unloadCommand e.root ∉ e.commands :=
  Emulation.notMem_commands (by decide) (by decide) (by decide)

theorem loadCommand_notMem_commands (e : Emulation) : loadCommand e.root ∉ e.commands :=
  Emulation.notMem_commands (by decide) (by decide) (by decide)

/-- Whoever takes the slot unloads first and loads then, and starts nothing else. -/
theorem started_loading (root : String) (w : World) :
    ∃ cs, cs <+: [unloadCommand root, loadCommand root] ∧
      ((loading root).after w).started = w.started ++ cs := by
  cases h : Action.run unloadScript (directory root) w with
  | error e w₁ =>
    obtain ⟨cs, hcs, hstarted⟩ := started_run w unloadScript (directory root)
    exact ⟨cs, hcs.trans (List.prefix_append _ _), by rw [loading, after_bind_of_error h, hstarted]⟩
  | ok r w₁ =>
    obtain rfl := eq_having_of_run_eq_ok h
    obtain ⟨cs, hcs, hstarted⟩ :=
      started_run (w.having (unloadCommand root)) loadScript (directory root)
    refine ⟨unloadCommand root :: cs, (List.prefix_cons_inj _).2 hcs, ?_⟩
    rw [loading, after_bind_of_ok h]
    exact hstarted.trans (by simp)

theorem loading_of_loads {root : String} {w : World} (h : loads root w = true) :
    ∃ load, load.success = true ∧ loading root w = .ok load ((loading root).after w) := by
  rw [loads] at h
  cases hload : loading root w with
  | error e w₁ => simp [hload] at h
  | ok load w₁ => exact ⟨load, by simpa [hload] using h, by rw [after_of_ok hload]⟩

/-- The module is seen to be loaded only when both commands were started. -/
theorem started_of_loads {root : String} {w : World} (h : loads root w = true) :
    ((loading root).after w).started = w.started ++ [unloadCommand root, loadCommand root] := by
  obtain ⟨load, -, hload⟩ := loading_of_loads h
  rw [loading] at hload
  obtain ⟨r, w₁, hr, hrun⟩ := Evolution.bind_eq_ok_iff.1 hload
  rw [loading, after_bind_of_ok hr, after_of_ok hrun]
  obtain rfl := eq_having_of_run_eq_ok hr
  rw [eq_having_of_run_eq_ok hrun]
  simp [unloadCommand, loadCommand]

/-! ### Freeing the slot -/

theorem after_unloading {root : String} {w : World} (h : w.canStart (unloadCommand root) = true) :
    (unloading root).after w = w.having (unloadCommand root) :=
  (after_bind_of_after_eq fun _ _ => rfl).trans (after_run_of_canStart h)

theorem isGivenUp_unloading {root : String} {w : World}
    (h : w.canStart (unloadCommand root) = true) :
    (unloading root).isGivenUp w = decide ((w.answer (unloadCommand root)).ending = .abandons) :=
  (isGivenUp_bind_of_isGivenUp_eq fun _ _ => rfl).trans (isGivenUp_run_of_canStart h)

section Holding

variable {e : Emulation} {w : World}

/-- When the flow is given up, the slot is freed by a command that runs on its own. -/
theorem holding_of_isGivenUp (hflow : e.runFlow.isGivenUp w = true) :
    holding e w = .error .abandoned ((unloading e.root).after (e.runFlow.after w)) := by
  rw [holding]
  refine bind_of_error ((ifAbandoned_of_isGivenUp ?_).trans ?_)
  · rwa [isGivenUp_attempt]
  · rw [after_attempt]

/-- A flow that is not given up is over when the slot is freed. -/
theorem release_of_not_isGivenUp (hflow : e.runFlow.isGivenUp w = false) :
    ∃ report, Action.ifAbandoned (Action.attempt e.runFlow) (unloading e.root) w =
      .ok report (e.runFlow.after w) := by
  obtain ⟨report, hreport⟩ := attempt_of_not_isGivenUp hflow
  refine ⟨report, (ifAbandoned_of_not_isGivenUp ?_).trans hreport⟩
  rwa [isGivenUp_attempt]

/-- The last thing that is done while the slot is held is freeing it. -/
theorem after_holding (hstart : (e.runFlow.after w).canStart (unloadCommand e.root) = true) :
    (holding e).after w = (e.runFlow.after w).having (unloadCommand e.root) := by
  cases hflow : e.runFlow.isGivenUp w with
  | true => rw [after_of_error (holding_of_isGivenUp hflow), after_unloading hstart]
  | false =>
    obtain ⟨report, hreport⟩ := release_of_not_isGivenUp hflow
    rw [holding, after_bind_of_ok hreport, after_bind_of_after_eq, after_unloading hstart]
    intro _ w'
    rw [after_bind_of_after_eq fun _ _ => rfl, after_ofExcept]

/-- The call is given up during the flow or during the freeing of the slot. -/
theorem isGivenUp_holding (hstart : (e.runFlow.after w).canStart (unloadCommand e.root) = true) :
    (holding e).isGivenUp w = (e.runFlow.isGivenUp w ||
      decide (((e.runFlow.after w).answer (unloadCommand e.root)).ending = .abandons)) := by
  cases hflow : e.runFlow.isGivenUp w with
  | true => rw [isGivenUp, holding_of_isGivenUp hflow, Bool.true_or]
  | false =>
    obtain ⟨report, hreport⟩ := release_of_not_isGivenUp hflow
    rw [holding, isGivenUp_bind_of_ok hreport, isGivenUp_bind_of_isGivenUp_eq,
      isGivenUp_unloading hstart, Bool.false_or]
    intro _ w'
    rw [isGivenUp_bind_of_isGivenUp_eq fun _ _ => rfl, isGivenUp_ofExcept]

end Holding

theorem experiment_of_loads {e : Emulation} {w : World} (h : loads e.root w = true) :
    experiment e w = holding e ((loading e.root).after w) := by
  obtain ⟨load, hs, hload⟩ := loading_of_loads h
  rw [experiment_eq, bind_of_ok hload, if_pos hs]

theorem after_experiment_of_not_loads {e : Emulation} {w : World} (h : loads e.root w = false) :
    (experiment e).after w = (loading e.root).after w := by
  rw [loads] at h
  rw [experiment_eq]
  cases hload : loading e.root w with
  | error halt w₁ => rw [after_bind_of_error hload]
  | ok load w₁ =>
    have hs : load.success = false := by simpa [hload] using h
    rw [after_bind_of_ok hload, hs, after_of_ok hload]
    rfl

/-- **A loaded module is unloaded.** Let the module be seen to be loaded and let its unloading be
startable when the flow is over. Then, however the host answers and wherever the call is given up,
the experiment unloads before it loads, starts commands of the flow, none of which unloads, and
unloads once more at its end. The call can be given up in two places, during the flow and during
that last unloading; in the first case the last unloading runs on its own, and in the second it
goes down with the call and no other takes its place. A module that was not seen to be loaded has no
flow. -/
theorem module_is_unloaded (e : Emulation) (w : World) :
    (loads e.root w = true →
      ∃ w₁ w₂ flow,
        w₁ = (loading e.root).after w ∧ w₂ = e.runFlow.after w₁ ∧
        w₂.started = w.started ++ [unloadCommand e.root, loadCommand e.root] ++ flow ∧
        (∀ c ∈ flow, c ∈ e.commands) ∧ unloadCommand e.root ∉ flow ∧
        (w₂.canStart (unloadCommand e.root) = true →
          ((experiment e).after w).started = w₂.started ++ [unloadCommand e.root] ∧
          (experiment e).isGivenUp w = (e.runFlow.isGivenUp w₁ ||
            decide ((w₂.answer (unloadCommand e.root)).ending = .abandons)))) ∧
    (loads e.root w = false →
      ∃ cs, cs <+: [unloadCommand e.root, loadCommand e.root] ∧ (∀ c ∈ cs, c ∉ e.commands) ∧
        ((experiment e).after w).started = w.started ++ cs) := by
  refine ⟨fun h => ?_, fun h => ?_⟩
  · obtain ⟨flow, hflow, hmem⟩ := e.starts_runFlow ((loading e.root).after w)
    refine ⟨_, _, flow, rfl, rfl, by rw [hflow, started_of_loads h], hmem,
      fun hu => unloadCommand_notMem_commands e (hmem _ hu), fun hstart => ⟨?_, ?_⟩⟩
    · rw [Action.after, experiment_of_loads h, ← Action.after, after_holding hstart,
        World.started_having]
    · rw [isGivenUp, experiment_of_loads h, ← isGivenUp, isGivenUp_holding hstart]
  · obtain ⟨cs, hcs, hstarted⟩ := started_loading e.root w
    refine ⟨cs, hcs, fun c hc => ?_, by rw [after_experiment_of_not_loads h, hstarted]⟩
    have hslot : c = unloadCommand e.root ∨ c = loadCommand e.root := by simpa using hcs.subset hc
    obtain rfl | rfl := hslot
    · exact unloadCommand_notMem_commands e
    · exact loadCommand_notMem_commands e

/-- A call that is given up in a flow leaves no module behind, be it in the wait for the first
command, for the end of the server or for the files. One that is given up while it loads has no
flow. -/
theorem module_is_unloaded_dropped :
    let e : Emulation := ⟨.standard, "/w"⟩
    let first : World := .droppingAt 2 .directory
    let server : World := .droppingAt 3 .directory
    let file : World := { World.droppingAt 9 .directory with patience := some 1 }
    let broken : World := .droppingAt 1 .directory
    (e.runFlow.isGivenUp ((loading e.root).after first) = true ∧
      ((experiment e).after first).started.getLast? = some (unloadCommand e.root)) ∧
    (e.runFlow.isGivenUp ((loading e.root).after server) = true ∧
      ((experiment e).after server).started.getLast? = some (unloadCommand e.root)) ∧
    (e.runFlow.isGivenUp ((loading e.root).after file) = true ∧
      ((experiment e).after file).started.getLast? = some (unloadCommand e.root)) ∧
    (loads e.root broken = false ∧
      ∀ c ∈ ((experiment e).after broken).started, c ∉ e.commands) := by
  intro e first server file broken
  have hend : ∀ w : World, loads e.root w = true →
      (e.runFlow.after ((loading e.root).after w)).canStart (unloadCommand e.root) = true →
      ((experiment e).after w).started.getLast? = some (unloadCommand e.root) := by
    intro w hload hstart
    obtain ⟨w₁, w₂, flow, rfl, rfl, -, -, -, hend⟩ := (module_is_unloaded e w).1 hload
    rw [(hend hstart).1, List.getLast?_concat]
  have hbroken : loads e.root broken = false := by decide +kernel
  obtain ⟨cs, -, hslot, hstarted⟩ := (module_is_unloaded e broken).2 hbroken
  exact ⟨⟨by decide +kernel, hend first (by decide +kernel) (by decide +kernel)⟩,
    ⟨by decide +kernel, hend server (by decide +kernel) (by decide +kernel)⟩,
    ⟨by decide +kernel, hend file (by decide +kernel) (by decide +kernel)⟩,
    hbroken, by rwa [hstarted]⟩

/-- The call is given up while the module is unloaded behind a flow that is over: the one unloading
that was started goes down with the call, and no other follows. -/
theorem unloading_goes_down_with_the_call :
    let e : Emulation := ⟨.standard, "/w"⟩
    let w : World := .droppingAt 2 (.text "")
    loads e.root w = true ∧ e.runFlow.isGivenUp ((loading e.root).after w) = false ∧
      (experiment e).isGivenUp w = true ∧
      ((experiment e).after w).started =
        [unloadCommand e.root, loadCommand e.root, unloadCommand e.root] := by
  decide +kernel

end KernelModule

/-! ## The probe -/

namespace Probe

/-- The command that attaches the program and keeps it attached. -/
def loaderCommand (root : String) : Command := ⟨.helper, loaderScript, directory root⟩

/-- The command that lists what is attached. -/
def listingCommand (root : String) : Command :=
  ⟨.script, "sudo bpftool prog show", directory root⟩

/-- The command that ends the loaders. -/
def killCommand (root : String) : Command := ⟨.script, killScript, directory root⟩

/-- What is measured while the program is attached. -/
def measuring (e : Emulation) :
    Action (Except Failure FlowReport × Except Failure CommandResult) := do
  let report ← Action.attempt e.runFlow
  let listing ← Action.attempt (Action.run "sudo bpftool prog show" (directory e.root))
  return (report, listing)

/-- An experiment up to the end of the loaders. -/
def session (e : Emulation) :
    Action (Helper × Except Failure FlowReport × Except Failure CommandResult) := do
  let loader ← Action.startHelper "bpf-probe" loaderScript (directory e.root)
  let measured ← measuring e
  return (loader, measured)

/-- Ends the loaders and looks at what was measured. -/
def closing (root : String)
    (s : Helper × Except Failure FlowReport × Except Failure CommandResult) : Action Outcome := do
  let _ ← Action.run killScript (directory root)
  let loaded ← s.1.stop
  let report ← Action.ofExcept s.2.1
  let listing ← Action.ofExcept s.2.2
  return report.outcome
    (.ofMembers [("bpf_logs", loaded.toJson), ("bpftool_logs", .str listing.stdout)])

theorem experiment_eq (e : Emulation) : experiment e = session e >>= closing e.root := by
  simp only [experiment, session, measuring, closing, bind_assoc, pure_bind]

/-- A command that measures while the program is attached. -/
def Measures (e : Emulation) (c : Command) : Prop := c ∈ e.commands ∨ c = listingCommand e.root

theorem starts_measuring (e : Emulation) : Starts (Measures e) (measuring e) :=
  .bind (.attempt (e.starts_runFlow.mono fun _ => .inl)) fun _ =>
    .bind (.attempt (.run (.inr rfl))) fun _ => .pure _

theorem not_measures_killCommand (e : Emulation) : ¬ Measures e (killCommand e.root) := by
  rintro (h | h)
  · exact Emulation.notMem_commands (by decide) (by decide) (by decide) h
  · have hscript : killScript = "sudo bpftool prog show" := congrArg Command.script h
    exact absurd hscript (by decide)

section Session

variable {e : Emulation} {w : World}

/-- The loader is the first command of a session. -/
theorem started_session (hstart : w.canStart (loaderCommand e.root) = true) :
    ∃ cs, ((session e).after w).started = w.started ++ [loaderCommand e.root] ++ cs ∧
      ∀ c ∈ cs, Measures e c := by
  obtain ⟨cs, hcs, hmeasures⟩ := starts_measuring e (w.having (loaderCommand e.root))
  refine ⟨cs, ?_, hmeasures⟩
  rw [session, after_bind_of_ok (startHelper_of_canStart hstart),
    after_bind_of_after_eq fun _ _ => rfl]
  exact hcs

/-- Failures of what is measured are looked at later. -/
theorem measuring_ne_failed {f : Failure} {w' : World} : measuring e w ≠ .error (.failed f) w' := by
  intro hfailed
  obtain hreport | ⟨report, w₁, -, hrest⟩ := Evolution.bind_eq_error_iff.1 hfailed
  · exact attempt_ne_failed hreport
  · obtain hlisting | ⟨listing, w₂, -, hpure⟩ := Evolution.bind_eq_error_iff.1 hrest
    · exact attempt_ne_failed hlisting
    · cases hpure

/-- A session of a loader that was started is over or given up. -/
theorem session_of_not_isGivenUp (hstart : w.canStart (loaderCommand e.root) = true)
    (hgiven : (session e).isGivenUp w = false) :
    ∃ s, session e w = .ok s ((session e).after w) := by
  cases h : session e w with
  | ok s w' => exact ⟨s, by rw [after_of_ok h]⟩
  | error halt w' =>
    cases halt with
    | abandoned => simp [isGivenUp, h] at hgiven
    | failed f =>
      exfalso
      obtain hloader | ⟨loader, w₁, -, hrest⟩ := Evolution.bind_eq_error_iff.1 h
      · cases (startHelper_of_canStart hstart).symm.trans hloader
      · obtain hmeasuring | ⟨measured, w₂, -, hpure⟩ := Evolution.bind_eq_error_iff.1 hrest
        · exact measuring_ne_failed hmeasuring
        · cases hpure

end Session

/-- What was measured is looked at after the loaders were ended. -/
theorem after_closing {root : String} {w : World}
    (s : Helper × Except Failure FlowReport × Except Failure CommandResult)
    (hstart : w.canStart (killCommand root) = true) :
    (closing root s).after w = w.having (killCommand root) := by
  refine (after_bind_of_after_eq fun _ w' => ?_).trans (after_run_of_canStart hstart)
  rw [after_bind_of_after_eq, after_stop]
  intro loaded w''
  rw [after_bind_of_after_eq, after_ofExcept]
  intro report w₃
  rw [after_bind_of_after_eq fun _ _ => rfl, after_ofExcept]

/-- **The loaders are ended behind a session.** Let the loader be started. Whatever the host
answers, only commands that measure follow it. If the call is not given up among them, so that the
flow and the listing have a result or have failed, the loaders are ended after all of these
commands. If it is given up among them, nothing else is started: the loader is out of reach of the
helper that started it and stays attached. -/
theorem loaders_are_ended (e : Emulation) (w : World)
    (hstart : w.canStart (loaderCommand e.root) = true) :
    ∃ w₁ cs,
      w₁ = (session e).after w ∧ w₁.started = w.started ++ [loaderCommand e.root] ++ cs ∧
      (∀ c ∈ cs, Measures e c) ∧ killCommand e.root ∉ cs ∧
      ((session e).isGivenUp w = false → w₁.canStart (killCommand e.root) = true →
        ((experiment e).after w).started = w₁.started ++ [killCommand e.root]) ∧
      ((session e).isGivenUp w = true → (experiment e).after w = w₁) := by
  obtain ⟨cs, hcs, hmeasures⟩ := started_session hstart
  refine ⟨_, cs, rfl, hcs, hmeasures, fun hk => not_measures_killCommand e (hmeasures _ hk),
    fun hgiven hkill => ?_, fun hgiven => ?_⟩
  · obtain ⟨s, hs⟩ := session_of_not_isGivenUp hstart hgiven
    rw [experiment_eq, after_bind_of_ok hs, after_closing s hkill, World.started_having]
  · rw [experiment_eq, after_of_error (bind_of_isGivenUp hgiven)]

/-- A flow that fails leaves no loader behind if the listing is waited for. -/
theorem loaders_are_ended_after_failure :
    let e : Emulation := ⟨.standard, "/w"⟩
    let w : World := .droppingAt 3 (.text "")
    w.canStart (loaderCommand e.root) = true ∧ (session e).isGivenUp w = false ∧
      ((experiment e).after w).started.getLast? = some (killCommand e.root) := by
  intro e w
  have hstart : w.canStart (loaderCommand e.root) = true := by decide +kernel
  have hgiven : (session e).isGivenUp w = false := by decide +kernel
  have hkill : ((session e).after w).canStart (killCommand e.root) = true := by decide +kernel
  obtain ⟨w₁, cs, rfl, -, -, -, hend, -⟩ := loaders_are_ended e w hstart
  exact ⟨hstart, hgiven, by rw [hend hgiven hkill, List.getLast?_concat]⟩

/-- The loader stays up, and the call is given up in the wait for the first command of the flow or
for the end of the server: nothing ends the loader. -/
theorem loader_outlives_the_call :
    let e : Emulation := ⟨.standard, "/w"⟩
    let first : World := .droppingAt 1 .directory
    let server : World := .droppingAt 2 .directory
    ((first.answer (loaderCommand e.root)).ending = .serves 0 ∧
      (experiment e).isGivenUp first = true ∧
      ((experiment e).after first).started =
        [loaderCommand e.root, ⟨.script, "pkill iperf3", e.logs⟩]) ∧
    ((server.answer (loaderCommand e.root)).ending = .serves 0 ∧
      (experiment e).isGivenUp server = true ∧
      ((experiment e).after server).started =
        [loaderCommand e.root, ⟨.script, "pkill iperf3", e.logs⟩,
          ⟨.helper, Emulation.serverScript, e.logs⟩, ⟨.script, e.flowScript, e.logs⟩] ∧
      killCommand e.root ∉ ((experiment e).after server).started) := by
  decide +kernel

end Probe

end HeuristicEvolution

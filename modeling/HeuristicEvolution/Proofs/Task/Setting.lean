import HeuristicEvolution.Proofs.Task.Procedure
import HeuristicEvolution.Task.Open

/-!
# Builds and experiments as procedures

The backend of a task is fixed by the task and its arguments, its *setting*. Here the builds and
experiments of all settings are written down as procedures, and a build is parted into the steps by
which it is decided and the verdict on them. No step has a failure of its own; only the verdict can.

## Main definitions

* `Setting`: a task with its arguments, and `Task.setting`, which reads it.
* `BuildCourse`: the results of the steps by which a build is decided.
* `Setting.steps`, `Setting.conclude`: those steps and the verdict.
* `Setting.building`, `Setting.experimenting`: the procedures.

## Main results

* `Task.backend_eq_ok`: a backend builds and experiments as its setting does.
* `Setting.build_eq`: a build is the verdict on its steps.
* `Setting.follows_steps`, `Setting.follows_experiment`
-/

namespace HeuristicEvolution

open HeuristicEvolution.Action

/-- A task with its arguments. -/
inductive Setting where
  | cache (a : CacheArguments)
  | kernelModule (link : Link)
  | probe (link : Link)

/-- The setting that arguments ask for. -/
def Task.setting (task : Task) (arguments : Json) : Except Failure Setting :=
  match task with
  | .cache => do return .cache (← task.readArguments CacheArguments.ofJson arguments)
  | .kernelModule => do return .kernelModule (← task.readArguments Link.ofJson arguments)
  | .probe => do return .probe (← task.readArguments Link.ofJson arguments)

namespace Setting

/-- The task of a setting. -/
def task : Setting → Task
  | .cache _ => .cache
  | .kernelModule _ => .kernelModule
  | .probe _ => .probe

/-- Builds code. -/
def build (root code : String) : Setting → Action BuildResult
  | .cache _ => Cache.build root code
  | .kernelModule _ => KernelModule.build root code
  | .probe _ => Probe.build root code

/-- Runs an experiment. -/
def experiment (root : String) : Setting → Action Outcome
  | .cache a => Cache.experiment root a
  | .kernelModule link => KernelModule.experiment ⟨link, root⟩
  | .probe link => Probe.experiment ⟨link, root⟩

end Setting

theorem Task.task_setting {task : Task} {arguments : Json} {s : Setting}
    (h : task.setting arguments = .ok s) : s.task = task := by
  cases task <;> obtain ⟨_, -, h⟩ := Except.bind_eq_ok h <;> cases h <;> rfl

/-- **A backend builds and experiments as its setting does.** -/
theorem Task.backend_eq_ok {task : Task} {arguments : Json} {root : String} {fs : Files}
    {b : Backend} (h : task.backend arguments root fs = .ok b) :
    ∃ s, task.setting arguments = .ok s ∧ (∀ code, b.build code = s.build root code) ∧
      b.experiment = s.experiment root := by
  cases task with
  | cache =>
    obtain ⟨a, ha, h⟩ := Except.bind_eq_ok h
    obtain ⟨-, -, h⟩ := Except.bind_eq_ok h
    obtain ⟨-, -, h⟩ := Except.bind_eq_ok h
    cases h
    exact ⟨.cache a, by rw [Task.setting, ha]; rfl, fun _ => rfl, rfl⟩
  | kernelModule =>
    obtain ⟨link, hlink, h⟩ := Except.bind_eq_ok h
    obtain ⟨-, -, h⟩ := Except.bind_eq_ok h
    cases h
    exact ⟨.kernelModule link, by rw [Task.setting, hlink]; rfl, fun _ => rfl, rfl⟩
  | probe =>
    obtain ⟨link, hlink, h⟩ := Except.bind_eq_ok h
    obtain ⟨-, -, h⟩ := Except.bind_eq_ok h
    cases h
    exact ⟨.probe link, by rw [Task.setting, hlink]; rfl, fun _ => rfl, rfl⟩

/-! ## Experiments -/

namespace Emulation

/-- The part of a flow after which its log is looked for. -/
def send (e : Emulation) : Action (CommandResult × CommandResult) := do
  Action.change none fun fs => fs.makeDirectories e.logs
  Action.tryChange fun fs => fs.removeFile e.uplinkLog
  let _ ← Action.attempt (Action.run "pkill iperf3" e.logs)
  let server ← Action.startHelper "iperf3-server" serverScript e.logs
  let flow ← Action.run e.flowScript e.logs
  return (flow, ← server.stop)

/-- What is made of a flow that was sent. -/
def report (e : Emulation) (sent : CommandResult × CommandResult) : Action FlowReport := do
  let logs := Json.ofMembers
    [("iperf_logs", flowLog sent.1), ("iperf_server_logs", sent.2.toJson)]
  if ← Action.files fun fs => fs.exists? e.uplinkLog then
    let summary ← Action.run summaryScript e.logs
    return ⟨LinkSummary.ofReport? summary.stderr,
      logs.insert "throughput_summary" (.str summary.stderr)⟩
  else return ⟨none, logs⟩

theorem runFlow_eq (e : Emulation) : e.runFlow = e.send >>= e.report := by
  simp only [runFlow, send, report, bind_assoc, pure_bind]

/-- The steps after which the log of a flow is looked for. -/
def sending (e : Emulation) : Procedure :=
  .next (.edit fun fs => fs.makeDirectories e.logs) <|
  .next (.tried fun fs => fs.removeFile e.uplinkLog) <|
  .keeping (.command ⟨.script, "pkill iperf3", e.logs⟩) fun _ =>
  .next (.command ⟨.helper, serverScript, e.logs⟩) <|
  .next (.command ⟨.script, e.flowScript, e.logs⟩) .nothing

/-- The steps of a flow. -/
def flowing (e : Emulation) : Procedure :=
  e.sending.next <| .looking (fun fs => fs.exists? e.uplinkLog) fun logged =>
  if logged then .command ⟨.script, summaryScript, e.logs⟩ else .nothing

theorem follows_send (e : Emulation) (w : World) : Follows e.sending w e.send fun _ => True :=
  .bind .change fun _ _ _ => .bind .tryChange fun _ _ _ => .keep .run fun _ _ =>
    .bind_reached .startHelper fun _ _ hserver => .bind_reached .run fun _ _ _ =>
    .stop hserver (.trans Procedure.later_reached Procedure.later_reached) fun _ => .pure trivial

/-- How a flow is measured, in the world in which its log is looked for: if there is one, its
figures are read from what is printed about it, and that is kept with the logs. Otherwise there are
none. -/
def Sums (e : Emulation) (w : World) (r : FlowReport) : Prop :=
  if w.files.exists? e.uplinkLog then
    let text := Text.trim (w.answer ⟨.script, summaryScript, e.logs⟩).stderr
    r.logs.get? "throughput_summary" = some (.str text) ∧ r.summary = LinkSummary.ofReport? text
  else r.summary = none

/-- **A flow is measured by the log that is there when it is over.** -/
theorem follows_runFlow (e : Emulation) (w : World) :
    Follows e.flowing w e.runFlow (e.Sums (e.sending.reached w)) := by
  rw [runFlow_eq]
  refine .bind_reached (e.follows_send w) fun _ sent _ => .files_seen ?_
  cases hlogged : (e.sending.reached w).files.exists? e.uplinkLog with
  | true =>
    refine .map .run fun summary hprinted => ?_
    rw [Sums, if_pos hlogged, ← hprinted]
    exact ⟨rfl, rfl⟩
  | false =>
    refine .pure ?_
    rw [Sums, hlogged]
    rfl

end Emulation

/-- The steps of an experiment with a module loaded. -/
def KernelModule.experimenting (e : Emulation) : Procedure :=
  .next (.command ⟨.script, unloadScript, directory e.root⟩) <|
  .asking ⟨.script, loadScript, directory e.root⟩ fun loaded =>
  if loaded then
    .keeping e.flowing fun refused =>
    .next (.command ⟨.script, unloadScript, directory e.root⟩) (.refusedIf refused)
  else .nothing

theorem KernelModule.follows_experiment (e : Emulation) (w : World) :
    Follows (experimenting e) w (experiment e) fun _ => True := by
  refine .bind .run fun _ w₁ _ => .runThen fun load w₂ => ?_
  cases load.success with
  | true =>
    exact .ifAbandoned (.keep (e.follows_runFlow _) fun report hreport =>
      .bind (.map (Q := fun _ => True) .run fun _ _ => trivial) fun _ w₃ _ =>
      .map (.ofExcept hreport) fun _ _ => trivial)
  | false => exact .pure trivial

/-- The steps of an experiment behind a probe. -/
def Probe.experimenting (e : Emulation) : Procedure :=
  .next (.command ⟨.helper, loaderScript, directory e.root⟩) <|
  .keeping e.flowing fun refused =>
  .keeping (.command ⟨.script, "sudo bpftool prog show", directory e.root⟩) fun unlisted =>
  .next (.command ⟨.script, killScript, directory e.root⟩) <|
  .next (.refusedIf refused) (.refusedIf unlisted)

theorem Probe.follows_experiment (e : Emulation) (w : World) :
    Follows (experimenting e) w (experiment e) fun _ => True :=
  .bind_reached .startHelper fun _ _ hloader => .keep (e.follows_runFlow _) fun _ hreport =>
    .keep .run fun _ hlisting => .bind_reached .run fun _ _ _ =>
    .stop hloader (.trans Procedure.later_reached (.trans Procedure.later_reached
      (.trans Procedure.later_reached Procedure.later_reached))) fun _ =>
    .bind (.ofExcept hreport) fun _ _ _ => .map (.ofExcept hlisting) fun _ _ => trivial

/-- The steps of an experiment. -/
def Setting.experimenting (root : String) : Setting → Procedure
  | .cache a => .command ⟨.script, Cache.script a, Cache.buildDirectory root⟩
  | .kernelModule link => KernelModule.experimenting ⟨link, root⟩
  | .probe link => Probe.experimenting ⟨link, root⟩

/-- **An experiment fails only if a step is refused.** -/
theorem Setting.follows_experiment (s : Setting) (root : String) (w : World) :
    Follows (s.experimenting root) w (s.experiment root) fun _ => True := by
  cases s with
  | cache a => exact .map .run fun _ _ => trivial
  | kernelModule link => exact KernelModule.follows_experiment _ _
  | probe link => exact Probe.follows_experiment _ _

/-! ## Builds -/

/-- The results of the steps by which a build is decided. -/
inductive BuildCourse where
  /-- The tree could not be configured. -/
  | unconfigured (configuring : CommandResult)
  /-- Nothing came behind the last of several tries to compile. -/
  | compiled (earlier : List CommandResult) (last : CommandResult)
  /-- The code was compiled, and then attached as a test. -/
  | tested (earlier : List CommandResult) (last test : CommandResult)

namespace BuildCourse

/-- The step behind which nothing came. -/
def final : BuildCourse → CommandResult
  | .unconfigured r | .compiled _ r | .tested _ _ r => r

/-- A step without which a build is nothing ran out of time. Of several tries to compile one is
enough. -/
def RanLate : BuildCourse → Prop
  | .unconfigured r | .tested _ _ r => r.timedOut = true
  | .compiled earlier last => ∀ r ∈ earlier ++ [last], r.timedOut = true

instance : DecidablePred RanLate
  | .unconfigured r | .tested _ _ r => inferInstanceAs (Decidable (r.timedOut = true))
  | .compiled earlier last =>
    inferInstanceAs (Decidable (∀ r ∈ earlier ++ [last], r.timedOut = true))

/-- What ran late was the last that was done. -/
theorem RanLate.final_timedOut {c : BuildCourse} (h : c.RanLate) : c.final.timedOut = true := by
  cases c with
  | unconfigured r => exact h
  | compiled earlier last => exact h last (by simp)
  | tested earlier last test => exact h

end BuildCourse

/-- A command that ran out of time has not succeeded. -/
theorem CommandResult.success_of_timedOut {r : CommandResult} (h : r.timedOut = true) :
    r.success = false := by
  rw [success, h, Bool.not_true, Bool.false_and]

theorem Backend.success_buildResult (late : String) (r : CommandResult) :
    (Backend.buildResult late r).success = r.success := by
  cases h : r.timedOut with
  | true => rw [Backend.buildResult, if_pos h, CommandResult.success_of_timedOut h]; rfl
  | false => rw [Backend.buildResult, h]; rfl

/-! ### The cache simulator -/

namespace Cache

/-- The steps by which a build of the simulator is decided. -/
def steps (root code : String) : Action BuildCourse := do
  Action.change (some "failed to write candidate into the simulator tree") fun fs =>
    fs.writeText (source root) code
  clearBuild root
  let configuring ← Action.run "cmake ../" (buildDirectory root)
  if configuring.success then
    return .compiled [] (← Action.run "make -j" (buildDirectory root))
  else return .unconfigured configuring

/-- Empties the directory of the build. -/
def clearing (root : String) : Procedure :=
  .looking (fun fs => fs.exists? (buildDirectory root)) fun found =>
  .next (if found then .edit fun fs => fs.removeTree (buildDirectory root) else .nothing)
    (.edit fun fs => fs.makeDirectories (buildDirectory root))

theorem follows_clearBuild (root : String) (w : World) :
    Follows (clearing root) w (clearBuild root) fun _ => True := by
  refine .files fun found => ?_
  cases found with
  | true => exact .bind .change fun _ _ _ => .change
  | false => exact .skip .change

/-- The procedure of a build. -/
def building (root code : String) : Procedure :=
  .next (.edit fun fs => fs.writeText (source root) code) <|
  .next (clearing root) <|
  .asking ⟨.script, "cmake ../", buildDirectory root⟩ fun configured =>
  if configured then .command ⟨.script, "make -j", buildDirectory root⟩ else .nothing

/-- A build can go this way: a tree that is configured is compiled once. -/
def Allows : BuildCourse → Prop
  | .unconfigured r => r.success = false
  | .compiled earlier _ => earlier = []
  | .tested _ _ _ => False

theorem follows_steps (root code : String) (w : World) :
    Follows (building root code) w (steps root code) Allows := by
  refine .bind .change fun _ w₁ _ => .bind (follows_clearBuild _ _) fun _ w₂ _ =>
    .runThen fun configuring w₃ => ?_
  cases h : configuring.success with
  | true => exact .map .run fun _ _ => rfl
  | false => exact .pure h

/-- The verdict on the steps. -/
def conclude : BuildCourse → Action BuildResult
  | .unconfigured r => Action.fail (.other ("cmake configuration failed: " ++ r.stderr))
  | .compiled _ r | .tested _ _ r => return Backend.buildResult "build timed out" r

theorem build_eq (root code : String) : build root code = steps root code >>= conclude := by
  simp only [build, steps, bind_assoc]
  congr 1; funext _; congr 1; funext _; congr 1; funext configuring
  cases configuring.success with
  | true => simp [conclude]
  | false => simp [conclude]

end Cache

/-! ### The kernel module -/

namespace KernelModule

/-- The step by which a build of the module is decided. -/
def steps (root code : String) : Action BuildCourse := do
  let text ← Action.readText "failed to read module template" (template root)
  Action.change (some "failed to write module source") fun fs =>
    fs.writeText (source root) (splice text code)
  return .compiled [] (← Action.run "make" (directory root))

/-- The procedure of a build. -/
def building (root code : String) : Procedure :=
  .reading (template root) fun text =>
  .next (.edit fun fs => fs.writeText (source root) (splice text code)) <|
  .command ⟨.script, "make", directory root⟩

/-- A build can go this way: the module is compiled once. -/
def Allows : BuildCourse → Prop
  | .unconfigured _ | .tested _ _ _ => False
  | .compiled earlier _ => earlier = []

theorem follows_steps (root code : String) (w : World) :
    Follows (building root code) w (steps root code) Allows :=
  .readText fun _ _ => .bind .change fun _ _ _ => .map .run fun _ _ => rfl

/-- The verdict on the step. -/
def conclude (course : BuildCourse) : Action BuildResult :=
  return Backend.buildResult "build timed out" course.final

theorem build_eq (root code : String) : build root code = steps root code >>= conclude := by
  simp only [build, steps, conclude, BuildCourse.final, bind_assoc, pure_bind]

end KernelModule

/-! ### The probe -/

namespace Probe

/-- The tries to compile, up to the first that succeeds. -/
def compiling (root : String) : (tries : Nat) → Action (List CommandResult)
  | 0 => return []
  | tries + 1 => do
    let r ← Action.run "make" (directory root)
    if r.success then return [r]
    else
      let _ ← Action.run "sudo rmmod tcp_heuristic" (directory root)
      return r :: (← compiling root tries)

/-- The results that so many tries can have: the first success is the last try. -/
inductive Tries : (tries : Nat) → List CommandResult → Prop
  | none : Tries 0 []
  | success {tries : Nat} {r : CommandResult} : r.success = true → Tries (tries + 1) [r]
  | again {tries : Nat} {r : CommandResult} {rs : List CommandResult} : r.success = false →
      Tries tries rs → Tries (tries + 1) (r :: rs)

/-- All tries were made, or the last one succeeded. -/
theorem Tries.exists_concat {tries : Nat} {rs : List CommandResult} (h : Tries tries rs)
    (hpos : 0 < tries) :
    ∃ earlier last, rs = earlier ++ [last] ∧ (∀ r ∈ earlier, r.success = false) ∧
      rs.length ≤ tries ∧ (last.success = false → rs.length = tries) := by
  induction h with
  | none => cases hpos
  | @success tries r hr => exact ⟨[], r, rfl, by simp, by simp, by simp [hr]⟩
  | @again tries r rs hr hrs ih =>
    cases tries with
    | zero =>
      cases hrs
      exact ⟨[], r, rfl, by simp, by simp, by simp⟩
    | succ tries =>
      obtain ⟨earlier, last, rfl, hearlier, hle, hall⟩ := ih tries.succ_pos
      refine ⟨r :: earlier, last, rfl, by simpa [hr] using hearlier, ?_, fun hlast => ?_⟩
      · rw [List.length_cons]
        omega
      · rw [List.length_cons, hall hlast]

/-- The result of the last try if that has failed too. -/
def failed? (before : CommandResult) (rs : List CommandResult) : Option CommandResult :=
  let r := rs.getLastD before
  if r.success then none else some r

theorem failed?_cons (before r : CommandResult) (rs : List CommandResult) :
    failed? before (r :: rs) = failed? r rs := by
  simp only [failed?, List.getLastD_cons]

theorem compile_eq (root : String) (tries : Nat) {before : CommandResult}
    (hbefore : before.success = false) :
    compile root tries before = compiling root tries >>= fun rs => return failed? before rs := by
  induction tries generalizing before with
  | zero => simp [compile, compiling, failed?, hbefore]
  | succ tries ih =>
    simp only [compile, compiling, bind_assoc]
    congr 1; funext r
    cases hr : r.success with
    | true => simp [failed?, hr]
    | false =>
      simp only [Bool.false_eq_true, if_false, bind_assoc, pure_bind, ih hr, failed?_cons]

/-- The procedure of the tries, and how it goes on by whether one of them has succeeded. -/
def compilingThen (root : String) (rest : (compiled : Bool) → Procedure) : (tries : Nat) → Procedure
  | 0 => rest false
  | tries + 1 =>
    .asking ⟨.script, "make", directory root⟩ fun compiled =>
    if compiled then rest true
    else .next (.command ⟨.script, "sudo rmmod tcp_heuristic", directory root⟩)
      (compilingThen root rest tries)

theorem follows_compiling {β : Type} {Q : β → Prop} {root : String} {rest : Bool → Procedure}
    {tries : Nat} {before : CommandResult} {g : List CommandResult → Action β} {w : World}
    (hbefore : before.success = false)
    (hg : ∀ rs v, Tries tries rs → Follows (rest (failed? before rs).isNone) v (g rs) Q) :
    Follows (compilingThen root rest tries) w (compiling root tries >>= g) Q := by
  induction tries generalizing before g w with
  | zero => simpa [compilingThen, compiling, failed?, hbefore] using hg [] w .none
  | succ tries ih =>
    simp only [compiling, bind_assoc]
    refine .runThen fun r v => ?_
    cases hr : r.success with
    | true => simpa [failed?, hr] using hg [r] v (.success hr)
    | false =>
      simp only [Bool.false_eq_true, if_false, bind_assoc, pure_bind]
      refine .bind .run fun _ u _ => ih hr fun rs v hrs => ?_
      rw [← failed?_cons before]
      exact hg (r :: rs) v (.again hr hrs)

/-- What stands for the try before the first one. -/
def untried : CommandResult := ⟨none, "", "", false⟩

theorem untried_fails : untried.success = false := rfl

/-- The steps by which a build of the probe is decided. -/
def steps (root code : String) : Action BuildCourse := do
  cleanup root
  Action.change (some "failed to write candidate into the bpf scaffold") fun fs =>
    fs.writeText (source root) code
  let rs ← compiling root tries
  match failed? untried rs with
  | some last => return .compiled rs.dropLast last
  | none =>
    return .tested rs.dropLast (rs.getLastD untried) (← Action.run testScript (directory root))

/-- What an earlier candidate has left is taken down. -/
def cleaning (root : String) : Procedure :=
  .next (.all (cleanupScripts.map fun script => .command ⟨.script, script, directory root⟩))
    (.tried fun fs => fs.removeFile (source root))

/-- The procedure of a build. -/
def building (root code : String) : Procedure :=
  .next (cleaning root) <|
  .next (.edit fun fs => fs.writeText (source root) code) <|
  compilingThen root
    (fun compiled => if compiled then .command ⟨.script, testScript, directory root⟩ else .nothing)
    tries

/-- A build can go this way: the code is attached behind the first try that succeeds, and nothing
comes behind the last try if that fails. -/
def Allows : BuildCourse → Prop
  | .unconfigured _ => False
  | .compiled earlier last =>
    (∀ r ∈ earlier, r.success = false) ∧ last.success = false ∧ earlier.length + 1 = tries
  | .tested earlier last _ =>
    (∀ r ∈ earlier, r.success = false) ∧ last.success = true ∧ earlier.length + 1 ≤ tries

theorem follows_steps (root code : String) (w : World) :
    Follows (building root code) w (steps root code) Allows := by
  refine .bind (.bind (.forM fun script v => .map .run fun _ _ => trivial) fun _ _ _ => .tryChange)
    fun _ _ _ => .bind .change fun _ _ _ =>
    follows_compiling untried_fails fun rs v hrs => ?_
  obtain ⟨earlier, last, rfl, hearlier, hle, hall⟩ := hrs.exists_concat (by decide)
  rw [List.length_append] at hle hall
  cases hlast : last.success with
  | true =>
    simp only [failed?, List.getLastD_concat, hlast, if_true, List.dropLast_concat]
    exact .map .run fun _ _ => ⟨hearlier, hlast, hle⟩
  | false =>
    simp only [failed?, List.getLastD_concat, hlast, Bool.false_eq_true, if_false,
      List.dropLast_concat]
    exact .pure ⟨hearlier, hlast, hall hlast⟩

/-- The verdict on the steps. -/
def conclude : BuildCourse → Action BuildResult
  | .unconfigured r | .compiled _ r => return .failed r.stdout r.stderr
  | .tested _ _ r => return Backend.buildResult "probe test timed out" r

theorem build_eq (root code : String) : build root code = steps root code >>= conclude := by
  have hcompile : compile root tries ⟨none, "", "", false⟩ =
      compiling root tries >>= fun rs => return failed? untried rs :=
    compile_eq root tries untried_fails
  simp only [build, steps, bind_assoc, hcompile, pure_bind]
  congr 1; funext _; congr 1; funext _; congr 1; funext rs
  cases failed? untried rs with
  | some last => simp [conclude]
  | none => simp [conclude]

end Probe

/-! ### All settings -/

namespace Setting

/-- The steps by which a build is decided. -/
def steps (root code : String) : Setting → Action BuildCourse
  | .cache _ => Cache.steps root code
  | .kernelModule _ => KernelModule.steps root code
  | .probe _ => Probe.steps root code

/-- The verdict on the steps of a build. -/
def conclude : Setting → BuildCourse → Action BuildResult
  | .cache _ => Cache.conclude
  | .kernelModule _ => KernelModule.conclude
  | .probe _ => Probe.conclude

/-- The procedure of a build. -/
def building (root code : String) : Setting → Procedure
  | .cache _ => Cache.building root code
  | .kernelModule _ => KernelModule.building root code
  | .probe _ => Probe.building root code

/-- A build can go this way. -/
def Allows : Setting → BuildCourse → Prop
  | .cache _ => Cache.Allows
  | .kernelModule _ => KernelModule.Allows
  | .probe _ => Probe.Allows

/-- **A build is the verdict on its steps.** -/
theorem build_eq (s : Setting) (root code : String) :
    s.build root code = s.steps root code >>= s.conclude := by
  cases s with
  | cache a => exact Cache.build_eq root code
  | kernelModule link => exact KernelModule.build_eq root code
  | probe link => exact Probe.build_eq root code

/-- **The steps of a build fail only if one of them is refused.** -/
theorem follows_steps (s : Setting) (root code : String) (w : World) :
    Follows (s.building root code) w (s.steps root code) s.Allows := by
  cases s with
  | cache a => exact Cache.follows_steps root code w
  | kernelModule link => exact KernelModule.follows_steps root code w
  | probe link => exact Probe.follows_steps root code w

end Setting

end HeuristicEvolution

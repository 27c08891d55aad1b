import HeuristicEvolution.Proofs.Task.Setting

/-!
# Commands that run out of time

A command that is still running when its limit passes is killed, and what it printed so far is its
result. For an experiment that is all: it has an outcome whichever of its commands runs late. A
build without a step that it needs has not succeeded, but it has a result as well, with one
exception. When the tree of the simulator cannot be configured, for lack of time as for any other
reason, the build of it is a failure and takes the whole run with it.

## Main results

* `late_commands_are_results`: experiments and builds of all backends over all hosts that let a
  call wait.
* `late_configuring_is_fatal`: the exception.
-/

namespace HeuristicEvolution

open HeuristicEvolution.Action
open Evolution (bind_of_ok)

namespace Setting

variable {s : Setting} {course : BuildCourse}

/-- The verdict on steps that were allowed, but for a tree that could not be configured: a build
that succeeds as its last step did. -/
theorem conclude_eq (h : s.Allows course) (hconfigured : ∀ r, course ≠ .unconfigured r) :
    ∃ result : BuildResult, s.conclude course = pure result ∧
      result.success = course.final.success := by
  cases course with
  | unconfigured r => exact absurd rfl (hconfigured r)
  | compiled earlier last =>
    cases s with
    | cache a => exact ⟨_, rfl, Backend.success_buildResult _ _⟩
    | kernelModule link => exact ⟨_, rfl, Backend.success_buildResult _ _⟩
    | probe link => exact ⟨_, rfl, h.2.1.symm⟩
  | tested earlier last test =>
    cases s with
    | cache a => exact absurd h id
    | kernelModule link => exact absurd h id
    | probe link => exact ⟨_, rfl, Backend.success_buildResult _ _⟩

/-- Only the tree of the simulator is configured. -/
theorem conclude_unconfigured {r : CommandResult} (h : s.Allows (.unconfigured r)) :
    r.success = false ∧ (∃ a, s = .cache a) ∧
      s.conclude (.unconfigured r) =
        Action.fail (.other ("cmake configuration failed: " ++ r.stderr)) := by
  cases s with
  | cache a => exact ⟨h, ⟨a, rfl⟩, rfl⟩
  | kernelModule link => exact absurd h id
  | probe link => exact absurd h id

end Setting

/-- **Commands that run out of time have results.** Let no call be given up while it waits; the
commands may exit with any code, die, or run past their limits, one of them or all. An experiment of
a backend has an outcome exactly if none of its steps is refused. A build of which no step is
refused goes through the steps by which it is decided, in one of the ways that its task allows. If
one of these is late, so that the tree was not configured, no try to compile was in time or the test
was not, the build has not succeeded. It has a result all the same, unless the tree of the simulator
was not configured: then it fails. -/
theorem late_commands_are_results {task : Task} {arguments : Json} {root : String} {fs : Files}
    {b : Backend} (hb : task.backend arguments root fs = .ok b) :
    ∃ s, task.setting arguments = .ok s ∧ ∀ w : World, w.Waits →
      ((∃ outcome w', b.experiment w = .ok outcome w') ↔
        (s.experimenting root).isRefused w = false) ∧
      ∀ code, (s.building root code).isRefused w = false →
        ∃ course w', s.steps root code w = .ok course w' ∧ s.Allows course ∧
          ((∀ r, course ≠ .unconfigured r) →
            ∃ result, b.build code w = .ok result w' ∧
              result.success = course.final.success ∧
              (course.RanLate → result.success = false)) ∧
          ∀ r, course = .unconfigured r → (∃ a, s = .cache a) ∧ r.success = false ∧
            b.build code w =
              .error (.failed (.other ("cmake configuration failed: " ++ r.stderr))) w' := by
  obtain ⟨s, hs, hbuild, hexperiment⟩ := Task.backend_eq_ok hb
  refine ⟨s, hs, fun w hwaits => ⟨?_, fun code hfree => ?_⟩⟩
  · rw [hexperiment]
    exact (s.follows_experiment root w).exists_ok_iff hwaits
  · obtain ⟨course, hsteps, hallows⟩ := (s.follows_steps root code w).eq_ok hwaits hfree
    have heq : b.build code w = s.conclude course ((s.building root code).reached w) := by
      rw [hbuild, s.build_eq, bind_of_ok hsteps]
    refine ⟨course, _, hsteps, hallows, fun hconfigured => ?_, ?_⟩
    · obtain ⟨result, hresult, hsuccess⟩ := Setting.conclude_eq hallows hconfigured
      refine ⟨result, by rw [heq, hresult]; rfl, hsuccess, fun hlate => ?_⟩
      rw [hsuccess, CommandResult.success_of_timedOut hlate.final_timedOut]
    · rintro r rfl
      obtain ⟨hr, hcache, hfails⟩ := Setting.conclude_unconfigured hallows
      exact ⟨hcache, hr, by rw [heq, hfails]; rfl⟩

/-! ## Hosts whose commands do not end -/

/-- The result of an action that has one. -/
def Action.result? {α : Type} (x : Action α) (w : World) : Option α :=
  match x w with
  | .ok a _ => some a
  | .error _ _ => none

/-- The failure of an action that fails. -/
def Action.failure? {α : Type} (x : Action α) (w : World) : Option Failure :=
  match x w with
  | .error (.failed e) _ => some e
  | .error .abandoned _ | .ok _ _ => none

theorem Action.result?_of_ok {α : Type} {x : Action α} {w w' : World} {a : α}
    (h : x w = .ok a w') : x.result? w = some a := by rw [result?, h]

/-- The host on which commands do nothing: those of a kind do not end, and the others succeed. -/
def Host.hangingOn (late : Command → Bool) : Host := fun _ c _ =>
  ⟨if late c then .hangs else .exits 0, "", "", []⟩

theorem Host.waits_hangingOn (late : Command → Bool) : (Host.hangingOn late).Waits := by
  intro earlier c fs
  rw [hangingOn]
  cases late c <;> nofun

/-- A tree with what the tasks need, in which the simulator was built before. -/
def Files.furnished : Files where
  entries := [(["w"], .directory), (["w", "tcp_cc"], .directory),
    (["w", "tcp_cc", "utils"], .directory),
    (["w", "tcp_cc", "bpf_scaffolding"], .directory), (["w", "tcp_cc", "evaluate"], .directory),
    (["w", "tcp_cc", "evaluate", "sage_traces"], .directory),
    (["w", "tcp_cc", "evaluate", "sage_traces", "traces"], .directory),
    (["w", "tcp_cc", "evaluate", "sage_traces", "traces", "wired12"], .text ""),
    (["w", "tcp_cc", "evaluate", "sage_traces", "traces", "wired192"], .text ""),
    (["w", "webcache"], .directory), (["w", "webcache", "build"], .directory),
    (["w", "webcache", "libCacheSim"], .directory),
    (["w", "webcache", "libCacheSim", "data"], .directory),
    (["w", "webcache", "libCacheSim", "data", "CloudPhysics"], .directory),
    (["w", "webcache", "libCacheSim", "data", "CloudPhysics", "w106.oracleGeneral.bin.zst"],
      .text ""),
    (["w", "webcache", "libCacheSim", "libCacheSim"], .directory),
    (["w", "webcache", "libCacheSim", "libCacheSim", "cache"], .directory),
    (["w", "webcache", "libCacheSim", "libCacheSim", "cache", "eviction"], .directory),
    (["w", "webcache", "libCacheSim", "libCacheSim", "cache", "eviction", "PQEvolve"],
      .directory)]
  here := []

/-- Nothing ends by itself on the host: the probe is built in vain, in three tries. -/
theorem late_commands_are_results_nothing_ends :
    let w : World := { files := .furnished, host := .hangingOn fun _ => true }
    ∃ b, Task.probe.backend .null "/w" w.files = .ok b ∧
      ∃ result w', b.build "int f;" w = .ok result w' ∧ result.success = false := by
  intro w
  have hopen : (Task.probe.backend .null "/w" w.files).isOk = true := by decide +kernel
  have hfree : (Setting.building "/w" "int f;" (.probe .standard)).isRefused w = false := by
    decide +kernel
  have hlate : ((Setting.steps "/w" "int f;" (.probe .standard)).result? w).any
      (fun course => decide course.RanLate) = true := by decide +kernel
  obtain ⟨b, hb⟩ := Except.exists_ok_of_isOk hopen
  obtain ⟨s, hs, hall⟩ := late_commands_are_results hb
  obtain rfl : .probe .standard = s := Except.ok.inj hs
  obtain ⟨course, w', hsteps, hallows, hresult, -⟩ :=
    (hall w ⟨Host.waits_hangingOn _, rfl⟩).2 "int f;" hfree
  have hconfigured : ∀ r, course ≠ .unconfigured r := by
    rintro r rfl
    exact hallows
  obtain ⟨result, hbuild, -, hfailed⟩ := hresult hconfigured
  rw [Action.result?_of_ok hsteps, Option.any_some, decide_eq_true_eq] at hlate
  exact ⟨b, hb, result, w', hbuild, hfailed hlate⟩

/-- Of all commands only the configuring of the simulator's tree does not end, and no step of the
build is refused: the build fails. -/
theorem late_configuring_is_fatal :
    let w : World := { files := .furnished, host := .hangingOn fun c => c.script == "cmake ../" }
    w.Waits ∧ (Task.cache.backend .null "/w" w.files).isOk = true ∧
      (Cache.building "/w" "int f;").isRefused w = false ∧
      (Cache.build "/w" "int f;").failure? w = some (.other "cmake configuration failed: ") :=
  ⟨⟨Host.waits_hangingOn _, rfl⟩, by decide +kernel, by decide +kernel, by decide +kernel⟩

end HeuristicEvolution

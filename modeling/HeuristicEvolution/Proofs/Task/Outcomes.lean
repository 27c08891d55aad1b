import HeuristicEvolution.Proofs.Task.Setting

/-!
# Outcomes of experiments

An experiment that comes to an end has an outcome, and there are only a few kinds of them: that of
the simulator's answer, that of a module which cannot be loaded, and those of flows, whose figures
were read or are missing. What holds of all outcomes is shown of each kind, without another look at
the commands that were run.

## Main definitions

* `FlowReport.Made`, `Setting.ComesTo`: the reports and the outcomes that there are.

## Main results

* `Setting.comesTo_of_experiment`: no experiment has another outcome.
* `Backend.hasObjects_experiment`: the results and the logs of an experiment are objects.
-/

namespace HeuristicEvolution

open HeuristicEvolution.Action
open Evolution (bind_eq_ok_iff)

/-! ## Kinds of outcomes -/

/-- The logs of a flow and of its server. -/
def FlowReport.logsOf (flow server : Json) : Json :=
  .ofMembers [("iperf_logs", flow), ("iperf_server_logs", server)]

/-- The reports of flows. If the uplink was logged, its figures are read from what is printed about
it, and that is kept with the logs. -/
inductive FlowReport.Made : FlowReport → Prop
  | unlogged (flow server : Json) : Made ⟨none, logsOf flow server⟩
  | summedUp (flow server : Json) (text : String) :
    Made ⟨LinkSummary.ofReport? text,
      (logsOf flow server).insert "throughput_summary" (.str text)⟩

/-- The outcomes of a setting's experiment. -/
inductive Setting.ComesTo : Setting → Outcome → Prop
  | simulated (a : CacheArguments) (r : CommandResult) : ComesTo (.cache a) (a.outcome r)
  | notLoaded (link : Link) (load : Json) :
    ComesTo (.kernelModule link) ⟨false, .empty, .ofMembers [("insmod_logs", load)]⟩
  | loaded (link : Link) {r : FlowReport} : r.Made → ComesTo (.kernelModule link) (r.outcome .empty)
  | probed (link : Link) {r : FlowReport} (loader : Json) (listing : String) : r.Made →
    ComesTo (.probe link)
      (r.outcome (.ofMembers [("bpf_logs", loader), ("bpftool_logs", .str listing)]))

theorem Emulation.made_of_runFlow {e : Emulation} {w w' : World} {r : FlowReport}
    (h : e.runFlow w = .ok r w') : r.Made := by
  rw [runFlow_eq] at h
  obtain ⟨sent, w₁, -, h⟩ := bind_eq_ok_iff.1 h
  obtain ⟨logged, w₂, -, h⟩ := bind_eq_ok_iff.1 h
  cases logged with
  | true =>
    obtain ⟨summary, w₃, -, h⟩ := bind_eq_ok_iff.1 h
    obtain ⟨rfl, rfl⟩ := EStateM.Result.ok.inj h
    exact .summedUp _ _ _
  | false =>
    obtain ⟨rfl, rfl⟩ := EStateM.Result.ok.inj h
    exact .unlogged _ _

/-- **An experiment that ends comes to one of the outcomes.** -/
theorem Setting.comesTo_of_experiment {s : Setting} {root : String} {w w' : World} {o : Outcome}
    (h : s.experiment root w = .ok o w') : s.ComesTo o := by
  cases s with
  | cache a =>
    obtain ⟨r, w₁, -, h⟩ := bind_eq_ok_iff.1 h
    obtain ⟨rfl, rfl⟩ := EStateM.Result.ok.inj h
    exact .simulated a r
  | kernelModule link =>
    obtain ⟨-, w₁, -, h⟩ := bind_eq_ok_iff.1 h
    obtain ⟨load, w₂, -, h⟩ := bind_eq_ok_iff.1 h
    split at h
    · obtain ⟨report, w₃, hreport, h⟩ := bind_eq_ok_iff.1 h
      obtain ⟨-, w₄, -, h⟩ := bind_eq_ok_iff.1 h
      obtain ⟨r, w₅, hr, h⟩ := bind_eq_ok_iff.1 h
      obtain ⟨rfl, rfl⟩ := EStateM.Result.ok.inj h
      obtain rfl := ofExcept_eq_ok hr
      exact .loaded link
        (Emulation.made_of_runFlow (eq_ok_of_attempt (eq_ok_of_ifAbandoned hreport)))
    · obtain ⟨rfl, rfl⟩ := EStateM.Result.ok.inj h
      exact .notLoaded link _
  | probe link =>
    obtain ⟨loader, w₁, -, h⟩ := bind_eq_ok_iff.1 h
    obtain ⟨report, w₂, hreport, h⟩ := bind_eq_ok_iff.1 h
    obtain ⟨listing, w₃, -, h⟩ := bind_eq_ok_iff.1 h
    obtain ⟨-, w₄, -, h⟩ := bind_eq_ok_iff.1 h
    obtain ⟨loaded, w₅, -, h⟩ := bind_eq_ok_iff.1 h
    obtain ⟨r, w₆, hr, h⟩ := bind_eq_ok_iff.1 h
    obtain ⟨l, w₇, -, h⟩ := bind_eq_ok_iff.1 h
    obtain ⟨rfl, rfl⟩ := EStateM.Result.ok.inj h
    obtain rfl := ofExcept_eq_ok hr
    exact .probed link _ _ (Emulation.made_of_runFlow (eq_ok_of_attempt hreport))

/-! ## Objects -/

/-- Members that are put over those of an object make an object. -/
theorem Json.exists_overlay {j : Json} (h : ∃ ms, j = .obj ms) (k : Json) :
    ∃ ms, j.overlay k = .obj ms := by
  cases k with
  | obj ns =>
    rw [overlay]
    induction ns generalizing j with
    | nil => exact h
    | cons m rest ih =>
      obtain ⟨ms, rfl⟩ := h
      exact ih ⟨_, rfl⟩
  | _ => exact h

/-- The results and the logs of an outcome are objects. -/
structure Outcome.HasObjects (o : Outcome) : Prop where
  results : ∃ ms, o.results = .obj ms
  logs : ∃ ms, o.logs = .obj ms

namespace Outcome.HasObjects

variable {o : Outcome}

theorem results_ne_null (h : o.HasObjects) : o.results ≠ .null := by
  obtain ⟨ms, hms⟩ := h.results
  rw [hms]
  nofun

theorem logs_ne_null (h : o.HasObjects) : o.logs ≠ .null := by
  obtain ⟨ms, hms⟩ := h.logs
  rw [hms]
  nofun

end Outcome.HasObjects

theorem CacheArguments.hasObjects_outcome (a : CacheArguments) (r : CommandResult) :
    (a.outcome r).HasObjects := by
  rw [outcome]
  split
  · exact ⟨⟨_, rfl⟩, _, rfl⟩
  · simp only
    split <;> exact ⟨⟨_, rfl⟩, _, rfl⟩

theorem FlowReport.Made.hasObjects_outcome {r : FlowReport} (h : r.Made) (helperLogs : Json) :
    (r.outcome helperLogs).HasObjects := by
  have hlogs : ∃ ms, r.logs.overlay helperLogs = .obj ms := by
    refine Json.exists_overlay ?_ helperLogs
    cases h <;> exact ⟨_, rfl⟩
  rw [outcome]
  cases r.summary <;> exact ⟨⟨_, rfl⟩, hlogs⟩

/-- **The results and the logs of an experiment are objects**, however it ends. -/
theorem Backend.hasObjects_experiment {task : Task} {arguments : Json} {root : String} {fs : Files}
    {b : Backend} (hb : task.backend arguments root fs = .ok b) {w w' : World} {o : Outcome}
    (ho : b.experiment w = .ok o w') : o.HasObjects := by
  obtain ⟨s, -, -, hexperiment⟩ := Task.backend_eq_ok hb
  rw [hexperiment] at ho
  cases Setting.comesTo_of_experiment ho with
  | simulated a r => exact a.hasObjects_outcome r
  | notLoaded link load => exact ⟨⟨_, rfl⟩, _, rfl⟩
  | loaded link hr => exact hr.hasObjects_outcome _
  | probed link loader listing hr => exact hr.hasObjects_outcome _

end HeuristicEvolution

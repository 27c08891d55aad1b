import HeuristicEvolution.Proofs.Json.Stored
import HeuristicEvolution.Proofs.Task.Outcomes
import HeuristicEvolution.Proofs.Task.Timeouts

/-!
# Experiments with and without a score

An experiment that has run to its end is to be ranked by its score, so it should have one, and an
experiment that has failed should have none. For the cache simulator that is so whatever it prints:
the ratio that is read is finite, and so is one less it. A flow is another matter. Its figures are
words of a report, words such as `inf` and `nan` are numbers among them, and a quotient of finite
figures can be too large as well. Such a flow counts as run, and `null` stands for its score.

## Main results

* `executed_has_score`: what a score tells of an experiment, for all backends and hosts.
* `executed_without_score`: a flow that counts as run and has none.
-/

namespace HeuristicEvolution

open Evolution (bind_eq_ok_iff)

/-- Results with a score have it as a number if it is finite. -/
theorem scoreOf_scored (x : Float) (v : Json) :
    scoreOf (.ofMembers [("score", .ofFloat x), ("results", v)]) =
      if x.isFinite then some x else none := by
  rw [scoreOf, Json.get?_ofMembers (by simp), Json.lookup, if_pos rfl, Json.ofFloat]
  split <;> rfl

/-! ## The cache simulator -/

namespace Json

theorem number?_sorted (v : Json) : v.sorted.number? = v.number? := by
  cases v <;> rfl

/-- **A number under a name of a value that is read** is finite as a double. -/
theorem finite_get?_of_parse? {s name : String} {row v : Json} (h : parse? s = some row)
    (hv : row.get? name = some v) : v.Finite := by
  obtain ⟨raw, hraw, rfl⟩ := Option.map_eq_some_iff.1 h
  cases raw with
  | obj ms =>
    rw [sorted, ofMembers, get?, lookup_foldl_insertMember, lookup, Option.or_none] at hv
    obtain ⟨w, hw, rfl⟩ := mem_sortedMembers (List.mem_reverse.1 (mem_of_lookup hv))
    intro x hx
    rw [number?_sorted] at hx
    exact finite_of_parseRaw? hraw _ hw x hx
  | null => cases hv
  | bool b => cases hv
  | int i => cases hv
  | float x => cases hv
  | str t => cases hv
  | arr xs => cases hv

end Json

namespace CacheArguments

variable {a : CacheArguments}

/-- The row that counts is one of the rows. -/
theorem mem_of_scoredRow {rows : List Json} {row : Json} (h : a.scoredRow rows = some row) :
    row ∈ rows := by
  rw [scoredRow] at h
  split at h
  · simp only at h
    split at h
    · obtain ⟨rank, -, h⟩ := Option.bind_eq_some_iff.1 h
      exact List.mem_of_getElem? h
    · cases h
  · split at h
    · next hrows =>
      obtain rfl := Option.some.inj h
      exact List.mem_of_mem_filter (hrows ▸ List.mem_singleton_self _)
    · cases h

theorem perm_orderedRows (rows : List Json) : (a.orderedRows rows).Perm rows := by
  rw [orderedRows]
  split
  · exact List.mergeSort_perm _ _
  · rfl

/-- A ratio that counts is finite. -/
theorem isFinite_of_scoredRow {output name : String} {miss : Float}
    (h : ((a.scoredRow (a.orderedRows (rows output))).bind fun row => row.get? name).bind
      Json.number? = some miss) : miss.isFinite = true := by
  obtain ⟨v, hv, hmiss⟩ := Option.bind_eq_some_iff.1 h
  obtain ⟨row, hrow, hget⟩ := Option.bind_eq_some_iff.1 hv
  have hprinted := (perm_orderedRows _).mem_iff.1 (mem_of_scoredRow hrow)
  obtain ⟨line, -, hline⟩ := List.mem_filterMap.1 hprinted
  split at hline
  · exact Json.finite_get?_of_parse? hline hget _ hmiss
  · cases hline

/-- **A run of the simulator has a score exactly if it counts as run.** -/
theorem executed_outcome (a : CacheArguments) (r : CommandResult) :
    (a.outcome r).executed = (a.outcome r).score.isSome := by
  rw [outcome]
  split
  · rfl
  · simp only
    split
    · next miss hmiss =>
      have hfinite : (1.0 - miss).isFinite = true :=
        Binary.isFinite_one_sub (isFinite_of_scoredRow hmiss)
      rw [Outcome.score, scoreOf_scored, if_pos hfinite]
      rfl
    · rfl

end CacheArguments

/-! ## Flows -/

/-- What the outcome of a flow says: if it counts as run, its figures were read from the report that
is logged, and it has their score if that is finite. -/
structure Outcome.FlowOf (o : Outcome) : Prop where
  failed : o.executed = false → o.score = none
  executed : o.executed = true → ∃ text s, LinkSummary.ofReport? text = some s ∧
    o.logs.get? "throughput_summary" = some (.str text) ∧
    o.score = if s.score.isFinite then some s.score else none

theorem Outcome.flowOf_failed (logs : Json) : Outcome.FlowOf ⟨false, .empty, logs⟩ :=
  ⟨fun _ => rfl, nofun⟩

namespace Json

theorem get?_insert_of_ne {j : Json} {name other : String} (h : other ≠ name) (v : Json) :
    (j.insert name v).get? other = j.get? other := by
  cases j with
  | obj ms => exact lookup_insertMember_of_ne h v ms
  | _ => rfl

/-- Members under other names leave a member as it is. -/
theorem get?_overlay {j : Json} {name : String} {ms : List (String × Json)}
    (h : ∀ m ∈ ms, name ≠ m.1) : (j.overlay (.obj ms)).get? name = j.get? name := by
  simp only [overlay]
  induction ms generalizing j with
  | nil => rfl
  | cons m rest ih =>
    obtain ⟨hm, hrest⟩ := List.forall_mem_cons.1 h
    rw [List.foldl_cons, ih hrest, get?_insert_of_ne hm]

end Json

namespace FlowReport

/-- The figures of a report were read from the text that is logged. -/
def Logged (r : FlowReport) : Prop :=
  ∀ s, r.summary = some s → ∃ text, LinkSummary.ofReport? text = some s ∧
    r.logs.get? "throughput_summary" = some (.str text)

theorem Logged.flowOf {r : FlowReport} (h : r.Logged) {ms : List (String × Json)}
    (hms : ∀ m ∈ ms, "throughput_summary" ≠ m.1) : (r.outcome (.obj ms)).FlowOf := by
  rw [outcome]
  cases hsummary : r.summary with
  | none => exact Outcome.flowOf_failed _
  | some s =>
    obtain ⟨text, htext, hlogged⟩ := h s hsummary
    refine ⟨by simp, fun _ => ⟨text, s, htext, ?_, scoreOf_scored s.score s.toJson⟩⟩
    simp only [Json.get?_overlay hms, hlogged]

end FlowReport

theorem FlowReport.Made.logged {r : FlowReport} (h : r.Made) : r.Logged := by
  cases h with
  | unlogged flow server => exact fun s hs => nomatch hs
  | summedUp flow server text => exact fun s hs => ⟨text, hs, Json.lookup_insertMember_self _ _ _⟩

theorem KernelModule.flowOf_experiment {e : Emulation} {w w' : World} {o : Outcome}
    (h : experiment e w = .ok o w') : o.FlowOf := by
  have h : (Setting.kernelModule e.link).experiment e.root w = .ok o w' := h
  cases Setting.comesTo_of_experiment h with
  | notLoaded link load => exact Outcome.flowOf_failed _
  | loaded link hr => exact hr.logged.flowOf nofun

theorem Probe.flowOf_experiment {e : Emulation} {w w' : World} {o : Outcome}
    (h : experiment e w = .ok o w') : o.FlowOf := by
  have h : (Setting.probe e.link).experiment e.root w = .ok o w' := h
  cases Setting.comesTo_of_experiment h with
  | probed link loader listing hr =>
    refine hr.logged.flowOf fun m hm => ?_
    obtain rfl | hm := Json.mem_insertMember hm
    · simp
    obtain rfl | hm := Json.mem_insertMember hm
    · simp
    · cases hm

/-! ## All backends -/

/-- **What a score tells of an experiment.** Whatever the host answers, an experiment that has an
outcome and does not count as run has no score. One of the cache simulator has a score exactly if it
counts as run. If a flow counts as run, its figures were read from the report that is logged, and it
has their score exactly if that is finite. -/
theorem executed_has_score {task : Task} {arguments : Json} {root : String} {fs : Files}
    {b : Backend} (hb : task.backend arguments root fs = .ok b) {w w' : World} {o : Outcome}
    (ho : b.experiment w = .ok o w') :
    (o.executed = false → o.score = none) ∧
    (task = .cache → o.executed = o.score.isSome) ∧
    (task ≠ .cache → o.executed = true → ∃ text s, LinkSummary.ofReport? text = some s ∧
      o.logs.get? "throughput_summary" = some (.str text) ∧
      o.score = if s.score.isFinite then some s.score else none) := by
  obtain ⟨s, hs, -, hexperiment⟩ := Task.backend_eq_ok hb
  rw [hexperiment] at ho
  obtain rfl := Task.task_setting hs
  cases s with
  | cache a =>
    obtain ⟨r, w₁, -, hr⟩ := bind_eq_ok_iff.1 ho
    obtain ⟨rfl, rfl⟩ := EStateM.Result.ok.inj hr
    have hscore := a.executed_outcome r
    refine ⟨fun hnot => ?_, fun _ => hscore, fun hne => absurd rfl hne⟩
    rwa [hnot, eq_comm, Option.isSome_eq_false_iff, Option.isNone_iff_eq_none] at hscore
  | kernelModule link =>
    have hflow := KernelModule.flowOf_experiment ho
    exact ⟨hflow.failed, nofun, fun _ => hflow.executed⟩
  | probe link =>
    have hflow := Probe.flowOf_experiment ho
    exact ⟨hflow.failed, nofun, fun _ => hflow.executed⟩

/-! ## Hosts that print figures -/

/-- The host on which commands exit at once and print the same, and leave a log of the uplink. -/
def Host.printing (stdout stderr : String) : Host := fun _ _ _ =>
  ⟨.exits 0, stdout, stderr, [.write "/w/tcp_cc/evaluate/logs/down" (.text "")]⟩

/-- The simulator prints one row with the size that counts. -/
theorem executed_has_score_one_row :
    let row := "\x7b\"cache_size_mb\": 128.0, \"byte_miss_ratio\": 0.25\x7d"
    let w : World := { files := .furnished, host := .printing row "" }
    ∃ b o w', Task.cache.backend .null "/w" w.files = .ok b ∧ b.experiment w = .ok o w' ∧
      o.executed = true ∧ o.score.isSome = true := by
  intro row w
  have hopen : (Task.cache.backend .null "/w" w.files).isOk = true := by decide +kernel
  have hrun : ((Cache.experiment "/w" .standard).result? w).any Outcome.executed = true := by
    decide +kernel
  obtain ⟨b, hb⟩ := Except.exists_ok_of_isOk hopen
  obtain ⟨s, hs, -, hexperiment⟩ := Task.backend_eq_ok hb
  obtain rfl : .cache .standard = s := Except.ok.inj hs
  obtain ⟨o, w', ho⟩ : ∃ o w', b.experiment w = .ok o w' := by
    rw [hexperiment]
    cases h : Cache.experiment "/w" .standard w with
    | ok o w' => exact ⟨o, w', h⟩
    | error e w' =>
      rw [Action.result?, h] at hrun
      cases hrun
  have hexecuted : o.executed = true := by
    have hresult : (Cache.experiment "/w" .standard).result? w = some o :=
      Action.result?_of_ok (by rw [← ho, hexperiment]; rfl)
    rwa [hresult, Option.any_some] at hrun
  exact ⟨b, o, w', hb, ho, hexecuted, (executed_has_score hb ho).2.1 rfl ▸ hexecuted⟩

/-- A flow with an infinite throughput: it counts as run and has no score. -/
theorem executed_without_score :
    let w : World :=
      { files := .furnished,
        host := .printing "" "Average throughput: inf Mbits/s (96.0% utilization)" }
    ((Probe.experiment ⟨.standard, "/w"⟩).result? w).map
      (fun o => (o.executed, o.score.isSome)) = some (true, false) := by
  decide +kernel

end HeuristicEvolution

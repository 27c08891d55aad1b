import HeuristicEvolution.Proofs.CommandLine.Failures
import HeuristicEvolution.Proofs.CommandLine.Jobs
import HeuristicEvolution.Proofs.Task.Timeouts

/-!
# What the exit code two stands for

A command that fails for how it was asked exits with two. Nothing is recorded by then: such a
failure is found while settings, service and task are settled or when a run is looked up, and from
the first record on no failure is of that kind.

## Main definitions

* `Misasked`: what an order asks for cannot be done as it is asked.

## Main results

* `Order.careful_job`: no order touches records if it fails for its configuration.
* `Order.blames_job_iff`: an order fails for its configuration exactly if it is misasked.
* `configuration_failure_keeps_records`: an exit code of two leaves all records as they were.
-/

namespace HeuristicEvolution

open Evolution (bind_eq_ok_iff bind_eq_error_iff bind_of_ok)

namespace CommandLine

/-! ## Orders that only look -/

namespace Order

open Job

theorem sparing_existingLedger? (path : String) : Sparing (existingLedger? path) := by
  refine (sparing_files _).bind fun found _ => ?_
  cases found with
  | true => exact (sparing_openLedger path).bind fun l _ => sparing_pure _
  | false => exact sparing_pure _

theorem sparing_runIn (path runId : String) : Sparing (runIn path runId) := by
  refine (sparing_existingLedger? path).bind fun found _ => ?_
  cases found with
  | none => exact sparing_ofExcept _
  | some l =>
    refine (sparing_ofExcept _).bind fun info _ => ?_
    cases info with
    | none => exact sparing_ofExcept _
    | some info => exact sparing_pure _

theorem sparing_listRuns (path : String) : Sparing (listRuns path) := by
  refine (sparing_existingLedger? path).bind fun found _ => ?_
  simp only
  split
  · exact sparing_note _
  · exact sparing_print _

theorem sparing_summarizeRun (path runId : String) (top : Nat) (json : Bool) :
    Sparing (summarizeRun path runId top json) := by
  refine (sparing_runIn path runId).bind fun ⟨l, info⟩ _ =>
    (sparing_ofExcept _).bind fun best _ => ?_
  cases json with
  | true => exact sparing_print _
  | false => exact sparing_note _

theorem sparing_printCandidate (path runId : String) (iter sample : Nat) (codeOnly : Bool) :
    Sparing (printCandidate path runId iter sample codeOnly) := by
  refine (sparing_runIn path runId).bind fun ⟨l, info⟩ _ =>
    (sparing_ofExcept _).bind fun found _ => ?_
  cases found with
  | none => exact sparing_ofExcept _
  | some stored =>
    cases codeOnly with
    | false => exact sparing_print _
    | true =>
      simp only [if_true]
      split
      · exact sparing_print _
      · exact sparing_ofExcept _

/-! ## Orders that write -/

/-- A configuration that cannot be written is to blame, but by then only directories are made. -/
theorem careful_prepareConfig (config : String) : Careful (prepareConfig config) := by
  refine (sparing_files _).bind_careful fun found _ => ?_
  cases found with
  | true => exact (sparing_note _).careful
  | false =>
    exact (sparing_makeDirectoryOf config).bind_careful fun _ _ =>
      (sparing_files _).bind_careful fun _ _ => (sparing_ofExcept _).bind_careful fun fs _ =>
      ((blameless_setFiles fs).bind fun _ _ => blameless_note _).careful

theorem blameless_prepareIgnoreFile : Blameless prepareIgnoreFile := by
  refine .bind nofun fun found _ => ?_
  cases found with
  | true => exact blameless_note _
  | false => exact (blameless_change _).bind fun _ _ => blameless_note _

/-- A fresh run is never to blame. -/
theorem blameless_openRun {r : RunRequest} (hfresh : r.runId = none) (backend : Backend)
    (now : String) (l : Ledger) : Blameless (openRun r backend now l) := by
  rw [openRun, hfresh]
  refine blameless_checkout.bind fun checkout _ => blameless_ofExcept ?_
  rw [Evolution.openRun, Evolution.freshRun]
  cases hadd : l.addRun _ with
  | error e =>
    obtain ⟨violated, -, rfl⟩ := Except.mapError_eq_error_iff.mp hadd
    exact .error rfl
  | ok l' => exact .ok _

/-- A run that is looked up may be the wrong one, but nothing is done before it is found. -/
theorem careful_openRun (r : RunRequest) (backend : Backend) (now : String) (l : Ledger) :
    Careful (openRun r backend now l) := by
  cases hrun : r.runId with
  | none => exact (blameless_openRun hrun backend now l).careful
  | some runId =>
    rw [openRun, hrun]
    exact (sparing_pure none).bind_careful fun _ _ => (sparing_ofExcept _).careful

theorem backend_of_settle {o : RunOrder} {lookup : String → Option String} {fs : Files}
    {r : RunRequest} {endpoint : Endpoint} {backend : Backend}
    (h : settle o lookup fs = .ok (r, endpoint, backend)) :
    ∃ task, Task.backend task r.arguments r.workdir fs = .ok backend := by
  obtain ⟨r', -, h⟩ := Except.bind_eq_ok h
  obtain ⟨endpoint', -, h⟩ := Except.bind_eq_ok h
  obtain ⟨backend', hbackend, h⟩ := Except.bind_eq_ok h
  cases h
  obtain ⟨task, -, hbackend⟩ := Except.bind_eq_ok hbackend
  exact ⟨task, hbackend⟩

/-- A call on a run fails for many reasons, but not for its configuration. -/
theorem blameless_workOn {task : Task} {arguments : Json} {root : String} {fs : Files}
    {backend : Backend} (hb : task.backend arguments root fs = .ok backend) (r : RunRequest)
    (endpoint : Endpoint) (runId now : String) (l : Ledger) :
    Blameless (workOn r endpoint backend runId now l) := by
  obtain ⟨s, -, hbuild, hexperiment⟩ := Task.backend_eq_ok hb
  refine blameless_checkout.bind fun checkout _ => ?_
  intro c e c' h
  obtain h | ⟨c₁, c₂, hc, h⟩ := bind_eq_error_iff.1 h
  · cases h
  cases hc
  generalize hevolve : Evolution.evolve _ _ _ _ _ _ _ _ = result at h
  cases result with
  | ok summary s' => cases h
  | error e' s' =>
    cases h
    refine Evolution.evolve_blameless (fun slot code w e he => ?_) (fun slot w e he => ?_) hevolve
    · obtain ⟨v, hfails⟩ | ⟨message, rfl⟩ := Surroundings.perform_eq_error he
      · rw [hbuild] at hfails
        exact Setting.blameless_build hfails
      · rfl
    · obtain ⟨v, hfails⟩ | ⟨message, rfl⟩ := Surroundings.perform_eq_error he
      · rw [hexperiment] at hfails
        exact Setting.blameless_experiment hfails
      · rfl

/-- What a run is asked for is settled before its ledger is opened, and its records come last. -/
theorem careful_carryOut (o : RunOrder) (lookup : String → Option String) (now : String) :
    Careful (carryOut o lookup now) := by
  refine (sparing_files _).bind_careful fun settled hsettled =>
    (sparing_ofExcept _).bind_careful fun ⟨r, endpoint, backend⟩ hr =>
    (sparing_openLedger _).bind_careful fun l _ =>
    (careful_openRun r backend now l).bind fun ⟨runId, l⟩ _ =>
    (blameless_keepLedger _ _).bind fun _ _ => (blameless_note _).bind fun _ _ => ?_
  obtain ⟨c, c', hfiles⟩ := hsettled
  cases hfiles
  obtain ⟨task, hbackend⟩ := backend_of_settle (gives_ofExcept hr)
  exact (blameless_workOn hbackend r endpoint runId now l).bind fun _ _ => blameless_note _

/-- **No order touches records if it fails for its configuration.** -/
theorem careful_job (order : Order) (lookup : String → Option String) (now : String) :
    Careful (job order lookup now) := by
  cases order with
  | evolve o => exact careful_carryOut o lookup now
  | prepare config ignore =>
    refine (careful_prepareConfig config).bind fun _ _ => ?_
    cases ignore with
    | true => exact blameless_prepareIgnoreFile
    | false => exact nofun
  | list path => exact (sparing_listRuns path).careful
  | summarize path runId top json => exact (sparing_summarizeRun path runId top json).careful
  | print path runId iter sample codeOnly =>
    exact (sparing_printCandidate path runId iter sample codeOnly).careful
  | version => exact (sparing_print _).careful

end Order

/-! ## Orders that cannot be done as they are asked -/

/-- No run of the name is recorded at a path: no file is there, or a ledger without the run. -/
def NotRecorded (fs : Files) (path runId : String) : Prop :=
  fs.exists? path = false ∨ ∃ l fs', fs.openLedger path = .ok (l, fs') ∧ l.run? runId = none

/-- What an order asks for cannot be done as it is asked. -/
inductive Misasked (lookup : String → Option String) (fs : Files) : Order → Prop
  /-- The configuration, the task, its arguments, the model or the source tree do not allow it. -/
  | unsettled {o : RunOrder} {e : Failure} : Order.settle o lookup fs = .error e →
      Misasked lookup fs (.evolve o)
  /-- The run to be continued is not recorded, or is one of another task. -/
  | notContinued {o : RunOrder} {r : RunRequest} {endpoint : Endpoint} {backend : Backend}
      {l : Ledger} {fs' : Files} {runId : String} {run? : Option RunInfo} :
      Order.settle o lookup fs = .ok (r, endpoint, backend) → fs.openLedger r.db = .ok (l, fs') →
      r.runId = some runId → l.runInfo? runId = .ok run? → run?.map RunInfo.task ≠ some r.task →
      Misasked lookup fs (.evolve o)
  /-- The configuration to begin with cannot be written. -/
  | notWritten {config : String} {ignoreFile : Bool} {fs' : Files} {fault : FileFault} :
      fs.exists? config = false → fs.makeLedgerDirectory config = .ok fs' →
      fs'.writeText config Configuration.sample = .error fault →
      Misasked lookup fs (.prepare config ignoreFile)
  | notSummarized {path runId : String} {top : Nat} {json : Bool} : NotRecorded fs path runId →
      Misasked lookup fs (.summarize path runId top json)
  | notPrinted {path runId : String} {iter sample : Nat} {codeOnly : Bool} :
      NotRecorded fs path runId → Misasked lookup fs (.print path runId iter sample codeOnly)

namespace Order

open Job

variable {c : Console}

theorem blames_runIn_iff {path runId : String} :
    Blames (runIn path runId) c ↔ NotRecorded c.surroundings.world.files path runId := by
  rw [runIn, existingLedger?, bind_assoc, blames_files_bind_iff, NotRecorded]
  cases c.surroundings.world.files.exists? path with
  | false =>
    exact iff_of_true (blames_ofExcept_iff.2 ⟨.unknownRun runId, rfl, rfl⟩) (.inl rfl)
  | true =>
    simp only [if_true, bind_assoc, pure_bind]
    refine (blames_openLedger_bind_iff fun l c => ?_).trans (or_iff_right nofun).symm
    rcases l.runInfo?_cases runId with ⟨hrun, hread⟩ | ⟨run, hrun, ⟨-, hread⟩ | ⟨-, hread⟩⟩
    · rw [hread]
      exact iff_of_true (blames_ofExcept_iff.2 ⟨.unknownRun runId, rfl, rfl⟩) hrun
    · rw [hread]
      refine iff_of_false ?_ (by simp [hrun])
      rintro ⟨e, c', h, -⟩
      cases h
    · rw [hread]
      refine iff_of_false ?_ (by simp [hrun])
      rintro ⟨e, c', h, hblame⟩
      cases h
      cases hblame

theorem blames_summarizeRun_iff {path runId : String} {top : Nat} {json : Bool} :
    Blames (summarizeRun path runId top json) c ↔
      NotRecorded c.surroundings.world.files path runId := by
  refine (blames_bind_iff_of_blameless fun ⟨l, info⟩ _ => ?_).trans blames_runIn_iff
  refine (blameless_ofExcept (l.top_failsBy runId top)).bind fun best _ => ?_
  cases json with
  | true => exact nofun
  | false => exact nofun

theorem blames_printCandidate_iff {path runId : String} {iter sample : Nat} {codeOnly : Bool} :
    Blames (printCandidate path runId iter sample codeOnly) c ↔
      NotRecorded c.surroundings.world.files path runId := by
  refine (blames_bind_iff_of_blameless fun ⟨l, info⟩ _ => ?_).trans blames_runIn_iff
  refine (blameless_ofExcept (l.candidate?_failsBy runId iter sample)).bind fun found _ => ?_
  cases found with
  | none => exact blameless_ofExcept (.error rfl)
  | some stored =>
    cases codeOnly with
    | false => exact nofun
    | true =>
      simp only [if_true]
      split
      · exact nofun
      · exact blameless_ofExcept (.error rfl)

theorem blameless_listRuns (path : String) : Blameless (listRuns path) := by
  have hexisting : Blameless (existingLedger? path) := by
    refine .bind nofun fun found _ => ?_
    cases found with
    | true => exact (blameless_openLedger path).bind fun _ _ => nofun
    | false => exact nofun
  refine hexisting.bind fun found _ => ?_
  simp only
  split
  · exact nofun
  · exact nofun

theorem blames_prepareConfig_iff {config : String} :
    Blames (prepareConfig config) c ↔
      c.surroundings.world.files.exists? config = false ∧ ∃ fs' fault,
        c.surroundings.world.files.makeLedgerDirectory config = .ok fs' ∧
        fs'.writeText config Configuration.sample = .error fault := by
  have hwritten : ∀ c : Console,
      Blames (do
        setFiles (← Job.ofExcept (← files fun fs => Configuration.writeSample fs config))
        note ("created " ++ config ++ "\n")) c ↔
        ∃ fault, c.surroundings.world.files.writeText config Configuration.sample =
          .error fault := by
    intro c
    rw [blames_files_bind_iff, blames_bind_iff_of_blameless fun fs _ =>
      (blameless_setFiles fs).bind fun _ _ => blameless_note _, blames_ofExcept_iff,
      Configuration.writeSample]
    cases c.surroundings.world.files.writeText config Configuration.sample with
    | ok fs =>
      refine iff_of_false ?_ ?_
      · rintro ⟨_, ⟨⟩, -⟩
      · rintro ⟨_, ⟨⟩⟩
    | error fault => exact iff_of_true ⟨_, rfl, rfl⟩ ⟨fault, rfl⟩
  rw [prepareConfig, blames_files_bind_iff]
  cases c.surroundings.world.files.exists? config with
  | true => exact iff_of_false (Blameless.not_blames nofun) nofun
  | false =>
    simp only [Bool.false_eq_true, if_false, true_and]
    rw [makeDirectoryOf, Files.makeLedgerDirectory]
    cases Path.parentText? config with
    | none =>
      refine (hwritten c).trans ⟨?_, ?_⟩
      · rintro ⟨fault, h⟩
        exact ⟨_, fault, rfl, h⟩
      · rintro ⟨_, fault, ⟨⟩, h⟩
        exact ⟨fault, h⟩
    | some parent =>
      refine (blames_change_bind_iff
        (P := fun fs => ∃ fault, fs.writeText config Configuration.sample = .error fault)
        hwritten).trans ?_
      simp only
      cases c.surroundings.world.files.makeDirectories parent with
      | ok fs =>
        constructor
        · rintro ⟨_, ⟨⟩, fault, h⟩
          exact ⟨fs, fault, rfl, h⟩
        · rintro ⟨_, fault, ⟨⟩, h⟩
          exact ⟨fs, rfl, fault, h⟩
      | error fault =>
        refine iff_of_false ?_ ?_
        · rintro ⟨_, ⟨⟩, -⟩
        · rintro ⟨_, _, ⟨⟩, -⟩

/-- To open a run is to blame if the run to be continued is not there as it is asked for. -/
theorem blames_openRun_iff {r : RunRequest} {backend : Backend} {now : String} {l : Ledger} :
    Blames (openRun r backend now l) c ↔
      ∃ runId run?, r.runId = some runId ∧ l.runInfo? runId = .ok run? ∧
        run?.map RunInfo.task ≠ some r.task := by
  cases hrun : r.runId with
  | none => exact iff_of_false (blameless_openRun hrun backend now l).not_blames (by simp)
  | some runId =>
    simp only [openRun, hrun, Option.isNone_some, Bool.false_eq_true, if_false, pure_bind,
      Evolution.openRun, Evolution.continueRun, Option.some.injEq, exists_and_left, exists_eq_left']
    rw [blames_ofExcept_iff]
    rcases l.runInfo?_cases runId with ⟨-, hread⟩ | ⟨info, -, ⟨-, hread⟩ | ⟨-, hread⟩⟩
    · rw [hread]
      exact iff_of_true ⟨_, rfl, rfl⟩ ⟨none, rfl, by simp⟩
    · rw [hread]
      by_cases htask : info.task = r.task
      · simp [htask, Except.map, bind, Except.bind]
      · simp [htask, Except.map, bind, Except.bind, Failure.isConfiguration]
    · rw [hread]
      simp [Except.map, bind, Except.bind, Failure.isConfiguration]

theorem blames_carryOut_iff {o : RunOrder} {lookup : String → Option String} {now : String} :
    Blames (carryOut o lookup now) c ↔
      Misasked lookup c.surroundings.world.files (.evolve o) := by
  rw [carryOut, blames_files_bind_iff]
  cases hsettled : settle o lookup c.surroundings.world.files with
  | error e =>
    have hblame : e.isConfiguration = true := settle_failsBy o lookup _ e hsettled
    exact iff_of_true (blames_bind_iff.2 (.inl (blames_ofExcept_iff.2 ⟨e, rfl, hblame⟩)))
      (.unsettled hsettled)
  | ok settled =>
    obtain ⟨r, endpoint, backend⟩ := settled
    obtain ⟨task, hbackend⟩ := backend_of_settle hsettled
    -- behind a run that was opened nothing is to blame
    refine (blames_openLedger_bind_iff fun l c =>
      (blames_bind_iff_of_blameless fun ⟨runId, l⟩ _ => ?_).trans blames_openRun_iff).trans ?_
    · constructor
      · rintro ⟨l, fs, hopened, runId, run?, hrun, hread, htask⟩
        exact .notContinued hsettled hopened hrun hread htask
      · rintro (hsettled' | ⟨hsettled', hopened, hrun, hread, htask⟩)
        · cases hsettled.symm.trans hsettled'
        · cases hsettled.symm.trans hsettled'
          exact ⟨_, _, hopened, _, _, hrun, hread, htask⟩
    · exact (blameless_keepLedger _ _).bind fun _ _ => (blameless_note _).bind fun _ _ =>
        (blameless_workOn hbackend r endpoint runId now l).bind fun _ _ => blameless_note _

/-- **An order fails for its configuration exactly if it is misasked.** -/
theorem blames_job_iff {order : Order} {lookup : String → Option String} {now : String} :
    Blames (job order lookup now) c ↔ Misasked lookup c.surroundings.world.files order := by
  cases order with
  | evolve o => exact blames_carryOut_iff
  | prepare config ignore =>
    have hignore : Blameless (if ignore then prepareIgnoreFile else pure ()) := by
      cases ignore with
      | true => exact blameless_prepareIgnoreFile
      | false => exact nofun
    rw [job, blames_bind_iff_of_blameless fun _ _ => hignore, blames_prepareConfig_iff]
    constructor
    · rintro ⟨hmissing, fs', fault, hmade, hwritten⟩
      exact .notWritten hmissing hmade hwritten
    · rintro ⟨⟩
      exact ⟨‹_›, _, _, ‹_›, ‹_›⟩
  | list path => exact iff_of_false (blameless_listRuns path).not_blames nofun
  | summarize path runId top json =>
    refine blames_summarizeRun_iff.trans ⟨.notSummarized, ?_⟩
    rintro ⟨⟩
    assumption
  | print path runId iter sample codeOnly =>
    refine blames_printCandidate_iff.trans ⟨.notPrinted, ?_⟩
    rintro ⟨⟩
    assumption
  | version => exact iff_of_false (Blameless.not_blames nofun) nofun

end Order

/-! ## The whole program -/

/-- The program exits with two in two cases. -/
theorem exitCode_respond_eq_two_iff {lookup : String → Option String} {now : String}
    {words : List String} {s : Surroundings} :
    (respond lookup now words s).1.exitCode = 2 ↔
      Order.ofWords lookup words = .error .usage ∨
        ∃ order, Order.ofWords lookup words = .ok order ∧
          Misasked lookup s.world.files order := by
  rw [respond]
  cases Order.ofWords lookup words with
  | error refusal => cases refusal <;> simp [Refusal.result, Refusal.exitCode]
  | ok order =>
    have hblames : (order.perform lookup now s).1.exitCode = 2 ↔
        Job.Blames (order.job lookup now) ⟨s, "", ""⟩ := by
      rw [Order.perform, Job.Blames]
      cases order.job lookup now ⟨s, "", ""⟩ with
      | ok u c => simp
      | error e c => cases hblame : e.isConfiguration <;> simp [Fault.exitCode, hblame]
    simpa using hblames.trans Order.blames_job_iff

/-- **An exit code of two leaves all records as they were.** Whatever the words, the environment,
the files with their ledgers, the host and the services are: the program exits with two exactly if
the words are wrong or ask for what cannot be done as it is asked. It has sent no request then, and
started no command. The ledgers at all places hold what they held before, and nothing else that had
contents is gone either. -/
theorem configuration_failure_keeps_records (lookup : String → Option String) (now : String)
    (words : List String) (s : Surroundings) :
    ((respond lookup now words s).1.exitCode = 2 ↔
      Order.ofWords lookup words = .error .usage ∨
        ∃ order, Order.ofWords lookup words = .ok order ∧
          Misasked lookup s.world.files order) ∧
    ((respond lookup now words s).1.exitCode = 2 →
      ∃ fs, (respond lookup now words s).2 = { s with world := { s.world with files := fs } } ∧
        (∀ place, fs.ledgerAt place = s.world.files.ledgerAt place) ∧
        s.world.files.Spares fs) := by
  refine ⟨exitCode_respond_eq_two_iff, fun h => ?_⟩
  suffices hspares : Spares s (respond lookup now words s).2 by
    obtain ⟨fs, hfs, hafter⟩ := hspares
    exact ⟨fs, hafter, hfs.ledgerAt_eq, hfs⟩
  obtain hwords | ⟨order, hwords, hmisasked⟩ := exitCode_respond_eq_two_iff.1 h
  · rw [respond, hwords]
    exact .refl s
  · obtain ⟨e, c, hjob, hblame⟩ := (Order.blames_job_iff (c := ⟨s, "", ""⟩)).2 hmisasked
    have hafter : (respond lookup now words s).2 = c.surroundings := by
      simp only [respond, hwords]
      rw [Order.perform, hjob]
    rw [hafter]
    exact Order.careful_job order lookup now _ e c hjob hblame

/-- A run of the simulator is to be continued as one of the probe. -/
theorem configuration_failure_keeps_records_of_other_task :
    let lookup := fun name => if name = "OPENAI_API_KEY" then some "key" else none
    let words := ["run", "--task", "tcpbpf", "--model", "gpt-4o-mini", "--workdir", "/w",
      "--db", "/w/runs.db", "--run-id", "webcache_1", "--end-iter", "2"]
    let l : Ledger := { Ledger.empty with runs := [⟨"webcache_1", "webcache", "", "", .null⟩] }
    let world : World :=
      { files := Files.furnished.put ["w", "runs.db"] (.ledger l),
        host := .hangingOn fun _ => true }
    (respond lookup "" words (.start world .unreachable)).1.exitCode = 2 ∧
      ∃ fs, (respond lookup "" words (.start world .unreachable)).2.world.files = fs ∧
        fs.ledgerAt ["w", "runs.db"] = l := by
  intro lookup words l world
  have hexit : (respond lookup "" words (.start world .unreachable)).1.exitCode = 2 := by
    decide +kernel
  obtain ⟨fs, hafter, hledgers, -⟩ :=
    (configuration_failure_keeps_records lookup "" words (.start world .unreachable)).2 hexit
  refine ⟨hexit, fs, by rw [hafter], (hledgers _).trans ?_⟩
  rfl

end CommandLine

end HeuristicEvolution

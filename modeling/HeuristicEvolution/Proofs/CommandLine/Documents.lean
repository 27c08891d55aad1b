import HeuristicEvolution.CommandLine.Perform
import HeuristicEvolution.Proofs.CommandLine.Jobs

/-!
# Documents that are printed

Two commands print what the ledger holds as a value: one prints a candidate, and one sums up a run.
If such a command succeeds, its output is one document and nothing else, and what the document says
comes from the ledger that is kept at the given path.

## Main definitions

* `Ledger.summary`: the document of a summary.

## Main results

* `Order.stdout_print`, `Order.stdout_summarize`
-/

namespace HeuristicEvolution

open Evolution (bind_eq_ok_iff bind_of_ok)

/-- The document in which a run is summed up: the run, the counts of its iterations, and its best
candidates. It is put into order before it is printed. -/
def Ledger.summary (l : Ledger) (info : RunInfo) (best : List Stored) : Json :=
  .ofMembers [("run", info.toJson),
    ("iterations", .arr ((l.counts info.runId).map IterationCounts.toJson)),
    ("top", .arr (best.map Stored.toJson))]

namespace CommandLine.Order

variable {path runId : String} {c c' : Console}

/-- A run is looked up in the ledger at a path, and nothing is printed. -/
theorem runIn_eq_ok {l : Ledger} {info : RunInfo} (h : runIn path runId c = .ok (l, info) c') :
    (∃ fs, c.surroundings.world.files.openLedger path = .ok (l, fs)) ∧
      l.run? runId = some info ∧ c'.stdout = c.stdout := by
  obtain ⟨found, c₁, hfound, h⟩ := bind_eq_ok_iff.1 h
  rw [existingLedger?, bind_of_ok (Job.files_eq _ c)] at hfound
  cases hexists : c.surroundings.world.files.exists? path with
  | false =>
    -- Without a file there is no run, and the command fails.
    rw [hexists] at hfound
    cases hfound
    cases h
  | true =>
    rw [hexists] at hfound
    obtain ⟨l', c₂, hopened, hfound⟩ := bind_eq_ok_iff.1 hfound
    cases hfound
    obtain ⟨hledger, hsilent⟩ := Job.openLedger_eq_ok hopened
    obtain ⟨found, c₂, hinfo, h⟩ := bind_eq_ok_iff.1 h
    rcases l'.runInfo?_cases runId with ⟨-, hread⟩ | ⟨info', hrun, ⟨-, hread⟩ | ⟨-, hread⟩⟩
    · rw [hread] at hinfo
      cases hinfo
      cases h
    · rw [hread] at hinfo
      cases hinfo
      cases h
      exact ⟨hledger, hrun, hsilent⟩
    · rw [hread] at hinfo
      cases hinfo

variable {lookup : String → Option String} {now : String} {s : Surroundings}

/-- A command that succeeds has done its steps. -/
theorem exists_of_exitCode_eq_zero {order : Order}
    (h : (order.perform lookup now s).1.exitCode = 0) :
    ∃ c, order.job lookup now ⟨s, "", ""⟩ = .ok () c ∧
      (order.perform lookup now s).1.stdout = c.stdout := by
  rw [perform] at h ⊢
  cases hjob : order.job lookup now ⟨s, "", ""⟩ with
  | ok u c => exact ⟨c, rfl, rfl⟩
  | error e c =>
    rw [hjob] at h
    cases hblame : e.isConfiguration <;> simp [Fault.exitCode, hblame] at h

/-- **What is printed of a candidate.** -/
theorem stdout_print {iter sample : Nat}
    (h : ((print path runId iter sample false).perform lookup now s).1.exitCode = 0) :
    ∃ l fs stored, s.world.files.openLedger path = .ok (l, fs) ∧
      l.candidate? runId iter sample = .ok (some stored) ∧
      ((print path runId iter sample false).perform lookup now s).1.stdout
        = stored.toJson.pretty ++ "\n" := by
  obtain ⟨c, hjob, hstdout⟩ := exists_of_exitCode_eq_zero h
  obtain ⟨⟨l, info⟩, c₁, hrun, hjob⟩ := bind_eq_ok_iff.1 hjob
  obtain ⟨⟨fs, hledger⟩, -, hsilent⟩ := runIn_eq_ok hrun
  obtain ⟨found, c₂, hfound, hjob⟩ := bind_eq_ok_iff.1 hjob
  obtain ⟨hcandidate, rfl⟩ := Job.ofExcept_eq_ok hfound
  cases found with
  | none => cases hjob
  | some stored =>
    cases hjob
    refine ⟨l, fs, stored, hledger, hcandidate, hstdout.trans ?_⟩
    show c₂.stdout ++ _ = _
    rw [hsilent, String.empty_append]

/-- **What is printed of a run** that is summed up. -/
theorem stdout_summarize {limit : Nat}
    (h : ((summarize path runId limit true).perform lookup now s).1.exitCode = 0) :
    ∃ l fs info best, s.world.files.openLedger path = .ok (l, fs) ∧ l.run? runId = some info ∧
      l.top runId limit = .ok best ∧
      ((summarize path runId limit true).perform lookup now s).1.stdout
        = (l.summary info best).sorted.pretty ++ "\n" := by
  obtain ⟨c, hjob, hstdout⟩ := exists_of_exitCode_eq_zero h
  obtain ⟨⟨l, info⟩, c₁, hrun, hjob⟩ := bind_eq_ok_iff.1 hjob
  obtain ⟨⟨fs, hledger⟩, hinfo, hsilent⟩ := runIn_eq_ok hrun
  simp only [if_true, bind_eq_ok_iff] at hjob
  obtain ⟨best, c₂, hbest, hjob⟩ := hjob
  obtain ⟨htop, rfl⟩ := Job.ofExcept_eq_ok hbest
  cases hjob
  obtain rfl : info.runId = runId := by simpa using List.find?_some hinfo
  refine ⟨l, fs, info, best, hledger, hinfo, htop, hstdout.trans ?_⟩
  show c₂.stdout ++ _ = _
  rw [hsilent, String.empty_append, Ledger.summary]

end CommandLine.Order

end HeuristicEvolution

import HeuristicEvolution.CommandLine.Perform
import HeuristicEvolution.Proofs.Evolution.Records
import HeuristicEvolution.Proofs.Task.Setting

/-!
# Which failures are of the configuration

Settings, the task and its arguments, the model with its key and the source tree are looked at
before a run is opened. Whatever is wrong with them is a failure of the configuration, from the text
of a file down to a single argument. From then on it is the other way round: reading records fails
for other reasons, and so does a call that works on a run, whatever the model, the host and the
ledger do.

## Main definitions

* `FailsBy`: outcomes with failures of one kind only.

## Main results

* `CommandLine.Order.settle_failsBy`: what is settled before a run.
* `Ledger.top_failsBy`, `Ledger.candidate?_failsBy`: what is read from a ledger.
* `Evolution.evolve_blameless`: a call on a run.
-/

namespace HeuristicEvolution

open Evolution (bind_eq_error_iff)

/-! ## Outcomes with failures of one kind -/

/-- Whatever failure an outcome is, it is one of the configuration; or, for `false`, it is none. -/
def FailsBy {α : Type} (configuration : Bool) (r : Except Failure α) : Prop :=
  ∀ e, r = .error e → e.isConfiguration = configuration

namespace FailsBy

variable {α β : Type} {kind : Bool} {r : Except Failure α} {f : α → Except Failure β}

theorem ok (a : α) : FailsBy kind (.ok a) := nofun

theorem error {e : Failure} (h : e.isConfiguration = kind) :
    FailsBy kind (.error e : Except Failure α) := by
  rintro _ ⟨⟩
  exact h

theorem bind (hr : FailsBy kind r) (hf : ∀ a, FailsBy kind (f a)) : FailsBy kind (r >>= f) := by
  cases r with
  | ok a => exact hf a
  | error e => exact .error (hr e rfl)

/-- A fault that is put into the words of a failure. -/
theorem mapError {ε : Type} {r : Except ε α} {g : ε → Failure}
    (h : ∀ e, (g e).isConfiguration = kind) : FailsBy kind (r.mapError g) := by
  cases r with
  | ok a => exact .ok a
  | error e => exact .error (h e)

theorem mapM {l : List α} (hf : ∀ a, FailsBy kind (f a)) : FailsBy kind (l.mapM f) := by
  induction l with
  | nil => exact .ok []
  | cons a l ih =>
    rw [List.mapM_cons]
    exact (hf a).bind fun _ => ih.bind fun _ => .ok _

theorem forM {l : List α} {f : α → Except Failure PUnit} (hf : ∀ a, FailsBy kind (f a)) :
    FailsBy kind (l.forM f) := by
  induction l with
  | nil => exact .ok PUnit.unit
  | cons a l ih => exact (hf a).bind fun _ => ih

end FailsBy

/-! ## Settings -/

namespace Configuration

theorem load_failsBy (fs : Files) (file : String) (strict : Bool) :
    FailsBy true (load fs file strict) := by
  rw [load]
  split
  · rw [ofFile]
    split
    · exact .error rfl
    · simp only
      split
      · exact .error rfl
      split
      · exact .error rfl
      · exact .ok _
  · exact .error rfl

theorem applyEnvironment_failsBy (lookup : String → Option String) (c : Configuration) :
    FailsBy true (c.applyEnvironment lookup).1 := by
  rw [applyEnvironment]
  simp only
  split
  · exact .ok _
  · split
    · exact .ok _
    · exact .error rfl

end Configuration

theorem RunRequest.resolve_failsBy (c : Configuration) (o : Overrides) (start stop : Nat)
    (runId : Option String) :
    FailsBy true (RunRequest.resolve c o start stop runId) := by
  rw [RunRequest.resolve]
  split
  · exact .error rfl
  · exact .error rfl
  · simp only
    split
    · exact .error rfl
    · exact .ok _

theorem readArgument_failsBy (raw : String) :
    FailsBy true (readArgument raw) := by
  rw [readArgument]
  simp only
  split
  · exact .error rfl
  split
  · exact .error rfl
  · exact .ok _

theorem Endpoint.ofShortName_failsBy (lookup : String → Option String) (shortName : String) :
    FailsBy true (Endpoint.ofShortName lookup shortName) := by
  have hmodel : FailsBy true (OfferedModel.ofShortName shortName) := by
    rw [OfferedModel.ofShortName]
    split
    · exact .ok _
    · exact .error rfl
  refine hmodel.bind fun m => ?_
  split
  · exact .ok _
  · exact .error rfl

/-! ## Tasks -/

theorem Task.ofName_failsBy (name : String) :
    FailsBy true (Task.ofName name) := by
  rw [Task.ofName]
  split
  · exact .ok _
  · exact .error rfl

theorem Task.readArguments_failsBy {α : Type} (task : Task)
    (read : Json → Except ArgumentFault α) (arguments : Json) :
    FailsBy true (task.readArguments read arguments) := .mapError fun _ => rfl

theorem Backend.needs_failsBy (fs : Files) (path message : String) :
    FailsBy true (Backend.needs fs path message) := by
  rw [Backend.needs]
  split
  · exact .ok _
  · exact .error rfl

theorem Backend.needsAll_failsBy (fs : Files) (paths : List String) :
    FailsBy true (Backend.needsAll fs paths) :=
  .forM fun _ => Backend.needs_failsBy _ _ _

theorem CacheArguments.check_failsBy (a : CacheArguments) :
    FailsBy true a.check := by
  rw [check]
  split
  · exact .error rfl
  split
  · exact .error rfl
  split
  · exact .ok _
  · exact .error rfl

/-- Whatever keeps a backend from being opened lies in how it was asked for. -/
theorem Task.backend_failsBy (task : Task) (arguments : Json) (root : String) (fs : Files) :
    FailsBy true (task.backend arguments root fs) := by
  cases task with
  | cache =>
    exact (Task.readArguments_failsBy _ _ _).bind fun a => a.check_failsBy.bind fun _ =>
      (Backend.needs_failsBy _ _ _).bind fun _ => .ok _
  | kernelModule =>
    exact (Task.readArguments_failsBy _ _ _).bind fun _ =>
      (Backend.needsAll_failsBy _ _).bind fun _ => .ok _
  | probe =>
    exact (Task.readArguments_failsBy _ _ _).bind fun _ =>
      (Backend.needsAll_failsBy _ _).bind fun _ => .ok _

/-! ## Whole requests -/

namespace CommandLine.Order

theorem configuration_failsBy (o : RunOrder) (lookup : String → Option String) (fs : Files) :
    FailsBy true (configuration o lookup fs) := by
  rw [configuration]
  split
  case' h_2 => split
  -- the environment comes last, whatever it is applied to
  all_goals
    refine FailsBy.bind ?_ fun c => ?_
    rotate_left
    · have happlied := Configuration.applyEnvironment_failsBy lookup c
      simp only
      generalize c.applyEnvironment lookup = applied at happlied ⊢
      obtain ⟨r, c'⟩ := applied
      cases r with
      | ok => exact .ok _
      | error e => exact .error (happlied e rfl)
  · exact Configuration.load_failsBy _ _ _
  · exact .ok _
  · exact Configuration.load_failsBy _ _ _

/-- **What is settled before a run fails for its configuration.** -/
theorem settle_failsBy (o : RunOrder) (lookup : String → Option String) (fs : Files) :
    FailsBy true (settle o lookup fs) := by
  have hrequest : FailsBy true (request o lookup fs) :=
    (configuration_failsBy o lookup fs).bind fun _ =>
      (FailsBy.mapM readArgument_failsBy).bind fun _ =>
      RunRequest.resolve_failsBy _ _ _ _ _
  have hopened : ∀ name arguments root,
      FailsBy true (Backend.open? name arguments root fs) := fun name _ _ =>
    (Task.ofName_failsBy name).bind fun task => task.backend_failsBy _ _ _
  exact hrequest.bind fun r => (Endpoint.ofShortName_failsBy _ _).bind fun _ =>
    (hopened _ _ _).bind fun _ => .ok _

end CommandLine.Order

/-! ## Records -/

namespace Ledger

theorem candidate_failsBy (r : Row) :
    FailsBy false r.candidate := by
  have hread : ∀ {α : Type} (decode : Json → Option α) (c : Column),
      FailsBy false (c.read decode) := by
    intro α decode c
    have hfound : ∀ a : Option α,
        FailsBy false (Column.read.found a) := by
      intro a
      cases a with
      | some a => exact .ok _
      | none => exact .error rfl
    rw [Column.read.eq_def]
    split
    · exact .ok _
    · split
      · exact hfound _
      · exact .error rfl
    · split
      · exact .ok _
      · exact hfound _
  exact (hread _ _).bind fun _ => (hread _ _).bind fun _ => (hread _ _).bind fun _ =>
    (hread _ _).bind fun _ => (hread _ _).bind fun _ => .ok _

theorem top_failsBy (l : Ledger) (runId : String) (limit : Nat) :
    FailsBy false (l.top runId limit) :=
  .mapM candidate_failsBy

theorem candidate?_failsBy (l : Ledger) (runId : String) (iter sample : Nat) :
    FailsBy false (l.candidate? runId iter sample) := by
  rw [candidate?]
  split
  · exact .ok _
  · next r _ =>
    have hrow := candidate_failsBy r
    cases h : r.candidate with
    | ok c => exact .ok _
    | error e => exact .error (hrow e h)

end Ledger

/-! ## Calls that work on a run -/

namespace Setting

/-- A verdict fails only in words of its own. -/
theorem conclude_eq_error {s : Setting} {course : BuildCourse} {w w' : World} {e : Failure}
    (h : s.conclude course w = .error (.failed e) w') : ∃ message, e = .other message := by
  cases s with
  | cache a =>
    cases course with
    | unconfigured r =>
      cases h
      exact ⟨_, rfl⟩
    | compiled earlier last => cases h
    | tested earlier last test => cases h
  | kernelModule link => cases h
  | probe link => cases course <;> cases h

/-- A build does not fail for its configuration. -/
theorem blameless_build {s : Setting} {root code : String} {w w' : World} {e : Failure}
    (h : s.build root code w = .error (.failed e) w') : e.isConfiguration = false := by
  rw [build_eq] at h
  obtain hsteps | ⟨course, w₁, -, hverdict⟩ := bind_eq_error_iff.1 h
  · obtain ⟨context, rfl⟩ := (s.follows_steps root code w).eq_system hsteps
    rfl
  · obtain ⟨message, rfl⟩ := conclude_eq_error hverdict
    rfl

/-- Nor does an experiment. -/
theorem blameless_experiment {s : Setting} {root : String} {w w' : World} {e : Failure}
    (h : s.experiment root w = .error (.failed e) w') : e.isConfiguration = false := by
  obtain ⟨context, rfl⟩ := (s.follows_experiment root w).eq_system h
  rfl

end Setting

/-- What is done in the world of a live run fails as it does, or because it is given up. -/
theorem Surroundings.perform_eq_error {α : Type} {body : Action α} {s : Surroundings} {e : Failure}
    (h : (s.perform body).1 = .error e) :
    (∃ w, body s.world = .error (.failed e) w) ∨ ∃ message, e = .other message := by
  rw [perform] at h
  split at h
  · cases h
  · next hbody =>
    cases h
    exact .inl ⟨_, hbody⟩
  · cases h
    exact .inr ⟨_, rfl⟩

namespace Evolution

variable {σ : Type} {lab : Laboratory σ}

/-- **A call on a run does not fail for its configuration** if the backend never does. -/
theorem evolve_blameless
    (hbuild : ∀ slot code w e, (lab.build slot code w).1 = .error e → e.isConfiguration = false)
    (hexperiment : ∀ slot w e, (lab.experiment slot w).1 = .error e → e.isConfiguration = false)
    {runId now : String} {settings : Settings} {start stop : Nat} {checkout : Option Checkout}
    {s s' : State σ} {e : Failure}
    (h : evolve lab runId now settings start stop checkout s = .error e s') :
    e.isConfiguration = false := by
  obtain ⟨rfl, -⟩ | ⟨slot, -, t, hvisit⟩ := evolve_eq_error h
  · rfl
  cases slotFault_of_visit hvisit with
  | build hfails => exact hbuild _ _ _ _ hfails
  | experiment hfails => exact hexperiment _ _ _ hfails
  | _ => rfl

end Evolution

end HeuristicEvolution

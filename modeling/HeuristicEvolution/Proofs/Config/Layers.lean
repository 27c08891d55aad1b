import HeuristicEvolution.Config.Request
import HeuristicEvolution.Proofs.Evolution.Steps
import HeuristicEvolution.Proofs.Json.Reread

/-!
# Settings in layers

What a run goes by can be chosen in several places: its caller goes before the environment, the
environment before a configuration file, and where all are silent there are defaults. The program
puts the layers together in three steps. A file is loaded, and its places are taken from its
directory; variables of the environment replace what was loaded; the caller's choices and the
defaults come in when a request is made of it.

Here the layers are put next to each other (`Layers`), as they were written, and each setting is
the first that is stated (`firstStated`). `Layers.resolve_settles` says that the three steps come to
just that, and that nothing but the settled values decides whether there is a request.

## Main definitions

* `Layers`, `Layers.Loaded`: the layers, and what is loaded of the file.
* `Layers.Settles`: the request that the layers make.
* `Layers.Sensible`: what the settled values have to satisfy.

## Main results

* `Configuration.isOrdered_of_ofText?`: the arguments of a file are an object.
* `Configuration.applyEnvironment_eq_ok_iff`, `RunRequest.resolve_eq_ok_iff`
* `Layers.resolve_settles`
-/

namespace HeuristicEvolution

/-! ## Members that replace others -/

namespace Json

/-- Members that are set one after the other: of each name the last one stays, and members of other
names stay as they were. -/
theorem foldl_insert_obj (overrides ms : List (String × Json)) :
    overrides.foldl (fun (j : Json) (k, v) => j.insert k v) (.obj ms)
      = .obj (overrides.foldl (fun ms (k, v) => insertMember k v ms) ms) := by
  induction overrides generalizing ms with
  | nil => rfl
  | cons m rest ih => exact ih (insertMember m.1 m.2 ms)

end Json

/-! ## What is read of a file -/

namespace Configuration

section Reading

open Yaml

variable {α β : Type} {d : Document} {n : Node} {ignored : List String} {followed followed' : Nat}

theorem bind_eq_some {x : Reading α} {f : α → Reading β} {b : β × Nat}
    (h : (x >>= f) followed = some b) :
    ∃ a followed', x followed = some (a, followed') ∧ f a followed' = some b := by
  obtain ⟨⟨a, followed'⟩, hx, hf⟩ := Option.bind_eq_some_iff.mp h
  exact ⟨a, followed', hx, hf⟩

/-- An object whose members are in order. -/
def IsOrdered (j : Json) : Prop := ∃ ms, j = .obj ms ∧ Json.Ascending ms

theorem isOrdered_ofMembers (ms : List (String × Json)) : IsOrdered (.ofMembers ms) :=
  ⟨_, rfl, Json.ascending_foldl_insertMember .nil ms⟩

theorem isOrdered_of_readArguments {j : Json}
    (h : readArguments d n followed = some (j, followed')) : IsOrdered j := by
  obtain ⟨es, m, -, hmembers⟩ := bind_eq_some h
  obtain ⟨ms, m', -, hreturn⟩ := bind_eq_some hmembers
  obtain ⟨rfl, -⟩ := Prod.mk.inj (Option.some.inj hreturn)
  exact isOrdered_ofMembers ms

theorem isOrdered_of_readRoot {c : Configuration}
    (h : readRoot d n followed = some ((c, ignored), followed')) : IsOrdered c.arguments := by
  obtain ⟨es, _, -, h⟩ := bind_eq_some h
  obtain ⟨version, _, -, h⟩ := bind_eq_some h
  obtain ⟨task, _, -, h⟩ := bind_eq_some h
  obtain ⟨model, _, -, h⟩ := bind_eq_some h
  obtain ⟨workdir, _, -, h⟩ := bind_eq_some h
  obtain ⟨db, _, -, h⟩ := bind_eq_some h
  obtain ⟨⟨preferences, _⟩, _, -, h⟩ := bind_eq_some h
  obtain ⟨arguments, _, harguments, h⟩ := bind_eq_some h
  obtain ⟨hc, -⟩ := Prod.mk.inj (Option.some.inj h)
  obtain ⟨rfl, -⟩ := Prod.mk.inj hc
  obtain ⟨entry, _, -, hread⟩ := bind_eq_some harguments
  cases entry with
  | none =>
    obtain ⟨rfl, -⟩ := Prod.mk.inj (Option.some.inj hread)
    exact ⟨[], rfl, .nil⟩
  | some n => exact isOrdered_of_readArguments hread

end Reading

/-- **The arguments of a file** are an object with ordered members. -/
theorem isOrdered_of_ofText? {text : String} {c : Configuration} {ignored : List String}
    (h : ofText? text = some (c, ignored)) : IsOrdered c.arguments := by
  obtain ⟨d, -, hroot⟩ := Option.bind_eq_some_iff.mp h
  split at hroot
  · obtain ⟨rfl, -⟩ := Prod.mk.inj (Option.some.inj hroot)
    exact ⟨[], rfl, .nil⟩
  · next n _ =>
    obtain ⟨⟨⟨c', ignored'⟩, followed⟩, hread, hc⟩ := Option.bind_eq_some_iff.mp hroot
    obtain ⟨rfl, -⟩ := Prod.mk.inj (Option.some.inj hc)
    exact isOrdered_of_readRoot hread

/-- What is loaded is what the file says, with its places resolved. -/
theorem load_eq_ok {fs : Files} {file : String} {strict : Bool} {c : Configuration}
    (h : load fs file strict = .ok c) :
    ∃ text said ignored, fs.readText file = .ok text ∧ ofText? text = some (said, ignored) ∧
      c = said.resolvePlaces file := by
  rw [load] at h
  split at h
  · next text htext =>
    rw [ofFile] at h
    split at h
    · exact nomatch h
    · next said ignored hsaid =>
      simp only at h
      split at h
      · exact nomatch h
      · split at h
        · exact nomatch h
        · exact ⟨text, said, ignored, htext, hsaid, (Except.ok.inj h).symm⟩
  · exact nomatch h

/-! ## What the environment replaces -/

/-- The environment goes before what was loaded, unless its number cannot be read. -/
theorem applyEnvironment_eq_ok_iff {lookup : String → Option String} {c c' : Configuration} :
    c.applyEnvironment lookup = (.ok (), c') ↔
      (∀ s, lookup "EVOFORGE_GENERATION_RETRIES" = some s → (naturalOfText? s).isSome) ∧
      c' = { c with
        db := (lookup "EVOFORGE_DB").or c.db
        model := (lookup "EVOFORGE_MODEL").or c.model
        preferences := { c.preferences with
          retries := ((lookup "EVOFORGE_GENERATION_RETRIES").bind naturalOfText?).or
            c.preferences.retries } } := by
  rw [applyEnvironment]
  cases hretries : lookup "EVOFORGE_GENERATION_RETRIES" with
  | none =>
    constructor
    · intro h
      exact ⟨nofun, (Prod.mk.inj h).2.symm⟩
    · rintro ⟨-, rfl⟩
      rfl
  | some s =>
    cases hnumber : naturalOfText? s with
    | none =>
      have hunread : ¬ (naturalOfText? s).isSome = true := by simp [hnumber]
      simp only [hnumber]
      constructor
      · intro h
        exact nomatch (Prod.mk.inj h).1
      · intro h
        exact absurd (hnumber ▸ h.1 s rfl) hunread
    | some n =>
      simp only [hnumber, Option.bind_some, Option.some_or]
      constructor
      · intro h
        refine ⟨?_, (Prod.mk.inj h).2.symm⟩
        rintro t ⟨⟩
        rw [hnumber, Option.isSome_some]
      · rintro ⟨-, rfl⟩
        rfl

end Configuration

/-! ## Requests -/

namespace RunRequest

/-- What the values of a request have to satisfy. A fresh run starts at the beginning. -/
structure Sensible (r : RunRequest) : Prop where
  start_lt_stop : r.start < r.stop
  start_of_fresh : r.runId = none → r.start = 0
  samples : 1 ≤ r.samples
  buildAttempts : 1 ≤ r.buildAttempts
  parents : 1 ≤ r.parents
  requestTimeout : 1 ≤ r.policy.requestTimeout

theorem fault?_eq_none_iff {r : RunRequest} : r.fault? = none ↔ r.Sensible := by
  constructor
  · intro h
    rw [fault?] at h
    split at h
    · exact nomatch h
    split at h
    · exact nomatch h
    split at h
    · exact nomatch h
    split at h
    · exact nomatch h
    split at h
    · exact nomatch h
    split at h
    · exact nomatch h
    next hstop hfresh hsamples hattempts hparents htimeout =>
    simp only [Bool.and_eq_true, Option.isNone_iff_eq_none, decide_eq_true_eq, not_and,
      not_not] at hfresh
    exact ⟨Nat.lt_of_not_le hstop, hfresh, Nat.pos_of_ne_zero hsamples,
      Nat.pos_of_ne_zero hattempts, Nat.pos_of_ne_zero hparents, Nat.pos_of_ne_zero htimeout⟩
  · intro h
    have hfresh : (r.runId.isNone && decide (r.start ≠ 0)) = false := by
      simpa using h.start_of_fresh
    rw [fault?, if_neg (Nat.not_le_of_lt h.start_lt_stop), hfresh,
      if_neg Bool.false_ne_true, if_neg (Nat.ne_of_gt h.samples),
      if_neg (Nat.ne_of_gt h.buildAttempts), if_neg (Nat.ne_of_gt h.parents),
      if_neg (Nat.ne_of_gt h.requestTimeout)]

theorem resolve_eq_ok_iff {c : Configuration} {o : Overrides} {start stop : Nat}
    {runId : Option String} {r : RunRequest} :
    resolve c o start stop runId = .ok r ↔
      ∃ task model, o.task.or c.task = some task ∧ o.model.or c.model = some model ∧
        r = fill c o task model start stop runId ∧ r.Sensible := by
  rw [resolve]
  cases htask : o.task.or c.task with
  | none => simp
  | some task =>
    cases hmodel : o.model.or c.model with
    | none => simp
    | some model =>
      have hsensible : (∃ task' model', some task = some task' ∧ some model = some model' ∧
          r = fill c o task' model' start stop runId ∧ r.Sensible) ↔
          r = fill c o task model start stop runId ∧ r.Sensible := by
        simp
      rw [hsensible]
      simp only
      split
      · next message hfault =>
        have hnot : ¬ (fill c o task model start stop runId).Sensible :=
          mt fault?_eq_none_iff.mpr (by simp [hfault])
        constructor
        · exact nofun
        · rintro ⟨rfl, h⟩
          exact absurd h hnot
      · next hfault =>
        constructor
        · intro h
          obtain rfl := Except.ok.inj h
          exact ⟨rfl, fault?_eq_none_iff.mp hfault⟩
        · rintro ⟨rfl, -⟩
          rfl

end RunRequest

/-! ## Layers -/

/-- The first value that is stated. -/
def firstStated {α : Type} (layers : List (Option α)) : Option α := layers.findSome? id

theorem firstStated_two {α : Type} (a b : Option α) : firstStated [a, b] = a.or b := by
  cases a <;> cases b <;> rfl

theorem firstStated_three {α : Type} (a b c : Option α) :
    firstStated [a, b, c] = a.or (b.or c) := by
  cases a with
  | none => exact firstStated_two b c
  | some _ => rfl

/-- The layers in which settings are chosen: by the caller, by variables of the environment, and by
what a configuration file says. -/
structure Layers where
  caller : Overrides
  environment : String → Option String
  /-- The path of the file. Places in it are taken from its directory. -/
  file : String
  said : Configuration

namespace Layers

/-- What is loaded of the file, or of none. -/
inductive Loaded (s : Layers) (fs : Files) : Configuration → Prop
  | ofFile {strict : Bool} {text : String} {ignored : List String} {c : Configuration}
      (read : fs.readText s.file = .ok text)
      (understood : Configuration.ofText? text = some (s.said, ignored))
      (loaded : Configuration.load fs s.file strict = .ok c) : Loaded s fs c
  | ofNone (silent : s.said = .empty) : Loaded s fs .empty

/-! ### What is settled, setting by setting -/

section Settings

variable (s : Layers)

def task? : Option String := firstStated [s.caller.task, s.said.task]

def model? : Option String :=
  firstStated [s.caller.model, s.environment "EVOFORGE_MODEL", s.said.model]

def workdir : String :=
  (firstStated [s.caller.workdir, s.said.workdir.map (Path.besideFile s.file)]).getD "."

def db : String :=
  (firstStated [s.caller.db, s.environment "EVOFORGE_DB",
    s.said.db.map (Path.besideFile s.file)]).getD ".evoforge/ledger.db"

def samples : Nat :=
  (firstStated [s.caller.preferences.samples, s.said.preferences.samples]).getD 25

def buildAttempts : Nat :=
  (firstStated [s.caller.preferences.buildAttempts, s.said.preferences.buildAttempts]).getD 3

def parents : Nat :=
  (firstStated [s.caller.preferences.parents, s.said.preferences.parents]).getD 2

def retries : Nat :=
  (firstStated [s.caller.preferences.retries,
    (s.environment "EVOFORGE_GENERATION_RETRIES").bind Configuration.naturalOfText?,
    s.said.preferences.retries]).getD 0

def requestTimeout : Nat :=
  (firstStated [s.caller.preferences.requestSeconds, s.said.preferences.requestSeconds]).getD 600

/-- The argument of a name: the last one that the caller gives, or that of the file. -/
def argument? (name : String) : Option Json :=
  firstStated [Json.lookup name s.caller.arguments.reverse, s.said.arguments.get? name]

end Settings

/-- The request that the layers make. -/
structure Settles (s : Layers) (r : RunRequest) : Prop where
  task : s.task? = some r.task
  model : s.model? = some r.model
  workdir : r.workdir = s.workdir
  db : r.db = s.db
  samples : r.samples = s.samples
  buildAttempts : r.buildAttempts = s.buildAttempts
  parents : r.parents = s.parents
  policy : r.policy = ⟨s.retries, s.requestTimeout, 5⟩
  arguments : ∃ ms, r.arguments = .obj ms ∧ Json.Ascending ms ∧
    ∀ name, Json.lookup name ms = s.argument? name

variable {s : Layers} {fs : Files} {c c' : Configuration}

theorem Loaded.eq_resolvePlaces (h : s.Loaded fs c) :
    c = s.said.resolvePlaces s.file ∧ Configuration.IsOrdered s.said.arguments := by
  cases h with
  | ofFile hread hsaid hload =>
    obtain ⟨text, said, ignored, htext, hunderstood, rfl⟩ := Configuration.load_eq_ok hload
    obtain rfl := Except.ok.inj (hread.symm.trans htext)
    obtain ⟨rfl, -⟩ := Prod.mk.inj (Option.some.inj (hsaid.symm.trans hunderstood))
    exact ⟨rfl, Configuration.isOrdered_of_ofText? hsaid⟩
  | ofNone hsilent =>
    rw [hsilent]
    exact ⟨rfl, [], rfl, .nil⟩

/-- **The request is put together from the layers.** -/
theorem settles_fill (hload : s.Loaded fs c)
    (henv : c.applyEnvironment s.environment = (.ok (), c')) {task model : String}
    (htask : s.task? = some task) (hmodel : s.model? = some model) (start stop : Nat)
    (runId : Option String) :
    s.Settles (RunRequest.fill c' s.caller task model start stop runId) := by
  obtain ⟨rfl, ms, hms, hascend⟩ := hload.eq_resolvePlaces
  obtain ⟨-, rfl⟩ := Configuration.applyEnvironment_eq_ok_iff.mp henv
  exact {
    task := htask
    model := hmodel
    workdir := by rw [workdir, firstStated_two]; rfl
    db := by rw [db, firstStated_three]; rfl
    samples := by rw [samples, firstStated_two]; rfl
    buildAttempts := by rw [buildAttempts, firstStated_two]; rfl
    parents := by rw [parents, firstStated_two]; rfl
    policy := by rw [retries, requestTimeout, firstStated_two, firstStated_three]; rfl
    arguments := by
      have harguments := Json.foldl_insert_obj s.caller.arguments ms
      rw [← hms] at harguments
      refine ⟨_, harguments, Json.ascending_foldl_insertMember hascend _, fun name => ?_⟩
      rw [Json.lookup_foldl_insertMember, argument?, firstStated_two, hms]
      rfl }

/-- With the environment read, tasks and models are chosen as the layers choose them. -/
theorem chosen_eq (hload : s.Loaded fs c)
    (henv : c.applyEnvironment s.environment = (.ok (), c')) :
    s.caller.task.or c'.task = s.task? ∧ s.caller.model.or c'.model = s.model? := by
  obtain ⟨rfl, -⟩ := hload.eq_resolvePlaces
  obtain ⟨-, rfl⟩ := Configuration.applyEnvironment_eq_ok_iff.mp henv
  rw [task?, model?, firstStated_two, firstStated_three]
  exact ⟨rfl, rfl⟩

/-- What the settled values have to satisfy. -/
structure Sensible (s : Layers) (start stop : Nat) (runId : Option String) : Prop where
  task : s.task?.isSome = true
  model : s.model?.isSome = true
  start_lt_stop : start < stop
  start_of_fresh : runId = none → start = 0
  samples : 1 ≤ s.samples
  buildAttempts : 1 ≤ s.buildAttempts
  parents : 1 ≤ s.parents
  requestTimeout : 1 ≤ s.requestTimeout

theorem Settles.sensible_iff {r : RunRequest} (h : s.Settles r) :
    r.Sensible ↔ s.Sensible r.start r.stop r.runId := by
  have htimeout : r.policy.requestTimeout = s.requestTimeout := by rw [h.policy]
  constructor
  · intro hr
    exact ⟨h.task ▸ rfl, h.model ▸ rfl, hr.start_lt_stop, hr.start_of_fresh,
      h.samples ▸ hr.samples, h.buildAttempts ▸ hr.buildAttempts, h.parents ▸ hr.parents,
      htimeout ▸ hr.requestTimeout⟩
  · intro hs
    exact ⟨hs.start_lt_stop, hs.start_of_fresh, h.samples ▸ hs.samples,
      h.buildAttempts ▸ hs.buildAttempts, h.parents ▸ hs.parents, htimeout ▸ hs.requestTimeout⟩

/-- A request that comes about is the one that the layers make, and it makes sense. -/
theorem settles_of_resolve (hload : s.Loaded fs c)
    (henv : c.applyEnvironment s.environment = (.ok (), c')) {start stop : Nat}
    {runId : Option String} {r : RunRequest}
    (hr : RunRequest.resolve c' s.caller start stop runId = .ok r) :
    s.Settles r ∧ r.start = start ∧ r.stop = stop ∧ r.runId = runId ∧ r.Sensible := by
  obtain ⟨htask?, hmodel?⟩ := chosen_eq hload henv
  obtain ⟨task, model, htask, hmodel, rfl, hsensible⟩ := RunRequest.resolve_eq_ok_iff.mp hr
  exact ⟨settles_fill hload henv (htask? ▸ htask) (hmodel? ▸ hmodel) start stop runId,
    rfl, rfl, rfl, hsensible⟩

/-- **Settings in layers.** Whatever was loaded, if the environment can be read, a request comes
about exactly if the settled values make sense, and then it holds these values. -/
theorem resolve_settles (hload : s.Loaded fs c)
    (henv : c.applyEnvironment s.environment = (.ok (), c')) (start stop : Nat)
    (runId : Option String) :
    ((∃ r, RunRequest.resolve c' s.caller start stop runId = .ok r) ↔
      s.Sensible start stop runId) ∧
    ∀ r, RunRequest.resolve c' s.caller start stop runId = .ok r →
      s.Settles r ∧ r.start = start ∧ r.stop = stop ∧ r.runId = runId := by
  refine ⟨⟨?_, fun hs => ?_⟩, fun r hr => ?_⟩
  · rintro ⟨r, hr⟩
    obtain ⟨hsettles, rfl, rfl, rfl, hsensible⟩ := settles_of_resolve hload henv hr
    exact hsettles.sensible_iff.mp hsensible
  · obtain ⟨htask?, hmodel?⟩ := chosen_eq hload henv
    obtain ⟨task, htask⟩ := Option.isSome_iff_exists.mp hs.task
    obtain ⟨model, hmodel⟩ := Option.isSome_iff_exists.mp hs.model
    have hsettles := settles_fill hload henv htask hmodel start stop runId
    exact ⟨_, RunRequest.resolve_eq_ok_iff.mpr ⟨task, model, htask?.trans htask,
      hmodel?.trans hmodel, rfl, hsettles.sensible_iff.mpr hs⟩⟩
  · obtain ⟨hsettles, hstart, hstop, hrunId, -⟩ := settles_of_resolve hload henv hr
    exact ⟨hsettles, hstart, hstop, hrunId⟩

/-- The text of a small file. -/
def smallText : String :=
  "task: webcache\ndb: ledger.db\nsettings:\n  n_samples: 4\n  num_snippets: 5\n"

/-- The layers of a caller that asks for two samples, of an environment that names a model, and of a
file. -/
def modest (said : Configuration) : Layers where
  caller := ⟨none, none, none, none, { Preferences.none with samples := some 2 }, []⟩
  environment name := if name = "EVOFORGE_MODEL" then some "m" else none
  file := "/w/evoforge.yaml"
  said := said

/-- The model comes from the environment, the number of samples from the caller, that of parents
and the place of the ledger from the file, and that of attempts from nowhere. -/
theorem resolve_settles_modest :
    let fs : Files :=
      { entries := [(["w"], .directory), (["w", "evoforge.yaml"], .text smallText)], here := [] }
    ∃ said c c' r, (modest said).Loaded fs c ∧
      c.applyEnvironment (modest said).environment = (.ok (), c') ∧
      RunRequest.resolve c' (modest said).caller 0 3 none = .ok r ∧ r.task = "webcache" ∧
      r.model = "m" ∧ r.db = "/w/ledger.db" ∧ r.samples = 2 ∧ r.parents = 5 ∧
      r.buildAttempts = 3 := by
  intro fs
  have hread : (Configuration.ofText? smallText).map
      (fun p => (p.1.task, p.1.db, p.1.preferences)) =
        some (some "webcache", some "ledger.db", ⟨some 4, none, some 5, none, none⟩) := by
    decide +kernel
  obtain ⟨⟨said, ignored⟩, hsaid, hfields⟩ := Option.map_eq_some_iff.mp hread
  obtain ⟨htask, hrest⟩ := Prod.mk.inj hfields
  obtain ⟨hdb, hpreferences⟩ := Prod.mk.inj hrest
  obtain ⟨c, hc⟩ := Except.exists_ok_of_isOk
    (show (Configuration.load fs "/w/evoforge.yaml" true).isOk = true by decide +kernel)
  have hload : (modest said).Loaded fs c :=
    .ofFile (show fs.readText "/w/evoforge.yaml" = .ok smallText by decide +kernel) hsaid hc
  have hunset : (modest said).environment "EVOFORGE_GENERATION_RETRIES" = none := rfl
  have henv := (Configuration.applyEnvironment_eq_ok_iff (c := c)).mpr
    ⟨fun s hs => absurd (hunset.symm.trans hs) nofun, rfl⟩
  obtain ⟨hmakes, hsettled⟩ := resolve_settles hload henv 0 3 none
  have htask? : (modest said).task? = some "webcache" := by
    rw [task?, firstStated_two]
    exact htask
  have hparents : (modest said).parents = 5 := by
    rw [parents, firstStated_two]
    show (said.preferences.parents).getD 2 = 5
    rw [hpreferences]
    rfl
  have hattempts : (modest said).buildAttempts = 3 := by
    rw [buildAttempts, firstStated_two]
    show (said.preferences.buildAttempts).getD 3 = 3
    rw [hpreferences]
    rfl
  have htimeout : (modest said).requestTimeout = 600 := by
    rw [requestTimeout, firstStated_two]
    show (said.preferences.requestSeconds).getD 600 = 600
    rw [hpreferences]
    rfl
  have hplace : (modest said).db = "/w/ledger.db" := by
    rw [db, firstStated_three]
    show (said.db.map (Path.besideFile "/w/evoforge.yaml")).getD _ = _
    rw [hdb]
    decide +kernel
  have hsensible : (modest said).Sensible 0 3 none :=
    ⟨htask? ▸ rfl, rfl, by decide, fun _ => rfl, (by decide : 1 ≤ 2), hattempts ▸ by decide,
      hparents ▸ by decide, htimeout ▸ by decide⟩
  obtain ⟨r, hr⟩ := hmakes.mpr hsensible
  obtain ⟨hsettles, -⟩ := hsettled r hr
  exact ⟨said, c, _, r, hload, henv, hr, Option.some.inj (hsettles.task.symm.trans htask?),
    Option.some.inj (hsettles.model.symm.trans rfl), hsettles.db.trans hplace, hsettles.samples,
    hsettles.parents.trans hparents, hsettles.buildAttempts.trans hattempts⟩

end Layers

end HeuristicEvolution

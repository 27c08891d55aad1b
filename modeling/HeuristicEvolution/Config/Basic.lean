import HeuristicEvolution.Text.Quoted
import HeuristicEvolution.World.Files
import HeuristicEvolution.Yaml.Value

/-!
# Configurations

A configuration file chooses a task, a model, places and settings; everything may be left out.
Relative places are taken from the directory of the file. Entries that are not known are ignored,
or refused where the caller is strict, unless their names open with `_` or `x-`.

## Main definitions

* `Configuration`: what a file says.
* `Configuration.ofText?`: reading it, with the names of ignored entries.
* `Configuration.load`: a file with its places resolved.
* `Configuration.applyEnvironment`: overrides by variables of the environment.
-/

namespace HeuristicEvolution

/-- Settings of a run that a file may choose. -/
structure Preferences where
  samples : Option Nat
  buildAttempts : Option Nat
  parents : Option Nat
  retries : Option Nat
  requestSeconds : Option Nat
  deriving DecidableEq, Repr, Inhabited

/-- What a configuration file says. -/
structure Configuration where
  /-- The version of the format; zero if none is stated. -/
  version : Nat
  task : Option String
  model : Option String
  workdir : Option String
  db : Option String
  preferences : Preferences
  /-- An object. -/
  arguments : Json
  deriving Inhabited

namespace Preferences

/-- Nothing is chosen. -/
def none : Preferences := ⟨.none, .none, .none, .none, .none⟩

/-- The settings that are chosen, by name. -/
def toJson (p : Preferences) : Json :=
  .ofMembers <| List.filterMap (fun (name, n) => n.map fun n => (name, Json.ofNat n))
    [("n_samples", p.samples), ("build_retries", p.buildAttempts), ("num_snippets", p.parents),
     ("generation_retries", p.retries), ("request_timeout_seconds", p.requestSeconds)]

end Preferences

namespace Configuration

/-- Nothing is chosen. -/
def empty : Configuration := ⟨0, none, none, none, none, .none, .empty⟩

/-- What is chosen, by name. -/
def toJson (c : Configuration) : Json :=
  .ofMembers <|
    [("configVersion", .ofNat c.version), ("settings", c.preferences.toJson),
     ("task_args", c.arguments)]
    ++ List.filterMap (fun (name, s) => Option.map (fun s => (name, Json.str s)) s)
      [("task", c.task), ("model", c.model), ("workdir", c.workdir), ("db", c.db)]

/-! ## Reading -/

section Reading

open Yaml

variable (d : Document)

/-- Entries by the texts of their keys. -/
def namedEntries (n : Node) : Reading (List (String × Node)) := do
  (← Reading.entries d n).mapM fun (k, v) => do return (← Reading.text d k, v)

/-- The entry under one of several names; it may not be given twice. -/
def entry? (names : List String) (entries : List (String × Node)) : Reading (Option Node) :=
  match entries.filter fun e => names.contains e.1 with
  | [] => pure none
  | [e] => pure (some e.2)
  | _ => Reading.refuse

/-- What `read` makes of the entry of a name; without one it is `default`. -/
def field (names : List String) (entries : List (String × Node)) (default : α)
    (read : Node → Reading α) : Reading α := do
  match ← entry? names entries with
  | none => return default
  | some n => read n

/-- A text that may be absent. -/
def optionalText (names : List String) (entries : List (String × Node)) :
    Reading (Option String) :=
  field names entries none (Reading.optional d (Reading.text d))

/-- A number that may be absent. -/
def optionalNatural (bound : Nat) (names : List String) (entries : List (String × Node)) :
    Reading (Option Nat) :=
  field names entries none (Reading.optional d (Reading.natural d bound))

/-- The names of entries that are none of the known ones. -/
def unknown (known : List String) (entries : List (String × Node)) : List String :=
  (entries.map (·.1)).filter fun name => !known.contains name

/-- The names of the settings. -/
def preferenceNames : List String :=
  ["n_samples", "build_retries", "num_snippets", "generation_retries", "request_timeout_seconds"]

/-- Settings, and the names of ignored entries. -/
def readPreferences (n : Node) : Reading (Preferences × List String) := do
  let es ← namedEntries d n
  let samples ← optionalNatural d (Nat.pow 2 32) ["n_samples"] es
  let buildAttempts ← optionalNatural d (Nat.pow 2 32) ["build_retries"] es
  let parents ← optionalNatural d (Nat.pow 2 64) ["num_snippets"] es
  let retries ← optionalNatural d (Nat.pow 2 32) ["generation_retries"] es
  let requestSeconds ← optionalNatural d (Nat.pow 2 64) ["request_timeout_seconds"] es
  return (⟨samples, buildAttempts, parents, retries, requestSeconds⟩,
    (unknown preferenceNames es).map fun name => "settings." ++ name)

/-- Arguments of a task: any values by name, of equal names the last one. They stand two levels
deep. -/
def readArguments (n : Node) : Reading Json := do
  let es ← namedEntries d n
  return .ofMembers (← es.mapM fun (k, v) => do
    return (k, ← Reading.value d (depthLimit - 2) v))

/-- The names of the entries of a file. -/
def entryNames : List String :=
  ["configVersion", "version", "task", "model", "workdir", "db", "settings", "task_args"]

/-- A configuration, and the names of ignored entries. -/
def readRoot (n : Node) : Reading (Configuration × List String) := do
  let es ← namedEntries d n
  let version ← field ["configVersion", "version"] es 0 (Reading.natural d (Nat.pow 2 32))
  let task ← optionalText d ["task"] es
  let model ← optionalText d ["model"] es
  let workdir ← optionalText d ["workdir"] es
  let db ← optionalText d ["db"] es
  let (preferences, ignored) ← field ["settings"] es (Preferences.none, []) (readPreferences d)
  let arguments ← field ["task_args"] es .empty (readArguments d)
  return (⟨version, task, model, workdir, db, preferences, arguments⟩,
    unknown entryNames es ++ ignored)

end Reading

/-- The configuration of a text, and the names of ignored entries. An empty document chooses
nothing. -/
def ofText? (text : String) : Option (Configuration × List String) := do
  let d ← Yaml.Document.ofText? text
  match d.root with
  | none => return (empty, [])
  | some n => return (← readRoot d n 0).1

/-! ## Files -/

/-- The version of the format. -/
def supportedVersion : Nat := 1

/-- Ignored entries that somebody may have meant, each once in ascending order. -/
def meaningful (ignored : List String) : List String :=
  ((ignored.filter fun name => !(name.startsWith "_" || name.startsWith "x-")).mergeSort).eraseDups

/-- The configuration with its places taken from the directory of its file. -/
def resolvePlaces (c : Configuration) (file : String) : Configuration :=
  { c with workdir := c.workdir.map (Path.besideFile file), db := c.db.map (Path.besideFile file) }

/-- A configuration from the text of its file. -/
def ofFile (file text : String) (strict : Bool) : Except Failure Configuration :=
  match ofText? text with
  | none => .error (.configuration "failed to parse YAML")
  | some (c, ignored) =>
    let names := meaningful ignored
    if strict && !names.isEmpty then
      .error (.configuration ("unknown fields in " ++ file ++ ": ["
        ++ ", ".intercalate (names.map Text.quoted) ++ "]"))
    else if c.version ≠ 0 && c.version ≠ supportedVersion then
      .error (.configuration ("unsupported config version " ++ toString c.version
        ++ " (supported: " ++ toString supportedVersion ++ ")"))
    else .ok (c.resolvePlaces file)

/-- Loads a file. -/
def load (fs : Files) (file : String) (strict : Bool) : Except Failure Configuration :=
  match fs.readText file with
  | .ok text => ofFile file text strict
  | .error e =>
    .error (.configuration ("failed to read config " ++ file ++ ": " ++ e.message))

/-! ## The environment -/

/-- A natural number of 32 bits as a variable states it: digits, with blanks around and perhaps a
plus sign before them. -/
def naturalOfText? (s : String) : Option Nat :=
  let cs := Text.trimList s.toList
  let ds := match cs with
    | '+' :: rest => rest
    | _ => cs
  if !ds.isEmpty && ds.all Char.isDigit then
    (some (Decimal.ofDigits ds)).filter (· < Nat.pow 2 32)
  else none

/-- Overrides by variables of the environment, in the order of the variables: what came before one
that cannot be read stays. -/
def applyEnvironment (lookup : String → Option String) (c : Configuration) :
    Except Failure Unit × Configuration :=
  let c := { c with db := (lookup "EVOFORGE_DB").or c.db
                    model := (lookup "EVOFORGE_MODEL").or c.model }
  match lookup "EVOFORGE_GENERATION_RETRIES" with
  | none => (.ok (), c)
  | some s =>
    match naturalOfText? s with
    | some n => (.ok (), { c with preferences := { c.preferences with retries := some n } })
    | none =>
      (.error (.configuration ("EVOFORGE_GENERATION_RETRIES must be a non-negative integer, got '"
        ++ s ++ "'")), c)

/-! ## A file to begin with -/

/-- The text of a file to begin with. -/
def sample : String :=
  "configVersion: 1\n"
    ++ "task: webcache\n"
    ++ "model: gemini-2.0\n"
    ++ "workdir: .\n"
    ++ "db: .evoforge/ledger.db\n"
    ++ "settings:\n"
    ++ "  n_samples: 25\n"
    ++ "  build_retries: 3\n"
    ++ "  num_snippets: 2\n"
    ++ "  generation_retries: 0\n"
    ++ "  request_timeout_seconds: 600\n"
    ++ "task_args:\n"
    ++ "  trace: CloudPhysics/w106.oracleGeneral.bin.zst\n"
    ++ "  cache_sizes: [128]\n"
    ++ "  eval_cache_size: 128\n"
    ++ "  byte: true\n"

/-- Writes a file to begin with. -/
def writeSample (fs : Files) (file : String) : Except Failure Files :=
  (fs.writeText file sample).mapError fun e =>
    .configuration ("failed to write sample config: " ++ e.message)

end Configuration

end HeuristicEvolution

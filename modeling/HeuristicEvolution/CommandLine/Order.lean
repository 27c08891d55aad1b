import HeuristicEvolution.CommandLine.Option
import HeuristicEvolution.Config.Request

/-!
# Orders

What a command line asks the program to do. The first plain word names the command; options of the
whole program may stand before it and behind it.

## Main definitions

* `Order`: the commands with what they go by.
* `Order.ofWords`: reading a command line.
-/

namespace HeuristicEvolution.CommandLine

/-- What a run is asked for. -/
structure RunOrder where
  /-- The configuration file; without one the file at its usual place counts, if it is there. -/
  config : Option String
  strict : Bool
  overrides : Overrides
  /-- The arguments of the task as they are written. -/
  arguments : List String
  start : Nat
  stop : Nat
  runId : Option String
  deriving Inhabited

/-- A command with what it goes by. -/
inductive Order where
  /-- Runs or continues an evolution. -/
  | evolve (o : RunOrder)
  /-- Writes a configuration to begin with. -/
  | prepare (config : String) (ignoreFile : Bool)
  /-- Lists the runs of a ledger. -/
  | list (ledger : String)
  /-- Sums up a run. -/
  | summarize (ledger runId : String) (top : Nat) (json : Bool)
  /-- Prints one candidate. -/
  | print (ledger runId : String) (iter sample : Nat) (codeOnly : Bool)
  | version
  deriving Inhabited

namespace Order

/-! ## Tables -/

/-- The place of a configuration unless another one is chosen. -/
def standardConfig : String := "evoforge.yaml"

/-- How help is asked for. -/
def helpRule : OptionRule := { name := "help", letter := some 'h', takes := .question .help }

/-- Options that every command takes. -/
def commonRules : List OptionRule :=
  [helpRule, { name := "log-format", takes := .word ["text", "json"] }]

/-- Options of the program without a command. -/
def programRules : List OptionRule :=
  { name := "version", letter := some 'V', takes := .question .version } :: commonRules

/-- Where a ledger to be read lies. -/
def ledgerRule : OptionRule := { name := "db", takes := .path, fallback := some "EVOFORGE_DB" }

/-- Which run is meant. -/
def runRule : OptionRule := { name := "run-id", takes := .text, required := true }

/-- The commands and their options. -/
def commands : List (String × List OptionRule) :=
  [("run",
    [{ name := "config", takes := .path }, { name := "strict-config", takes := .nothing },
     { name := "task", takes := .text }, { name := "model", takes := .text },
     { name := "n-samples", takes := .natural32 }, { name := "start-iter", takes := .natural32 },
     { name := "end-iter", takes := .natural32, required := true },
     { name := "run-id", takes := .text }, { name := "db", takes := .path },
     { name := "workdir", takes := .path },
     { name := "task-arg", takes := .text, repeats := true },
     { name := "build-retries", takes := .natural32 },
     { name := "num-snippets", takes := .natural64 },
     { name := "generation-retries", takes := .natural32 },
     { name := "request-timeout-seconds", takes := .natural64 }]),
   ("init", [{ name := "config", takes := .path }, { name := "gitignore", takes := .nothing }]),
   ("runs", [ledgerRule]),
   ("summary",
    [ledgerRule, runRule, { name := "top", takes := .natural32 },
     { name := "json", takes := .nothing }]),
   ("show",
    [ledgerRule, runRule, { name := "iter", takes := .natural32, required := true },
     { name := "sample", takes := .natural32, required := true },
     { name := "code", takes := .nothing }]),
   ("version", [])]

/-! ## Help -/

/-- An option as help shows it; what may be left out stands in brackets. -/
def optionText (rule : OptionRule) : String :=
  let value := match rule.takes with
    | .nothing | .question _ => ""
    | .text | .word _ => " TEXT"
    | .path => " PATH"
    | .natural32 | .natural64 => " NUMBER"
  let shown := "--" ++ rule.name ++ value
  if rule.required then shown else "[" ++ shown ++ "]" ++ (if rule.repeats then "..." else "")

/-- The commands with their options, one a line. -/
def helpText : String :=
  "usage: COMMAND [OPTION]...\n\n"
    ++ String.join (commands.map fun (name, rules) =>
        "  " ++ " ".intercalate (name :: rules.map optionText) ++ "\n")

/-! ## Reading -/

/-- Where the ledger lies. -/
def ledgerOf (f : Found) : String := (f.value? "db").getD RunRequest.standardLedger

/-- A number of 32 bits among the options. -/
def number32 (f : Found) (name : String) (default : Nat) : Nat :=
  (f.number? name .natural32).getD default

/-- The order of a run. -/
def runOf (f : Found) : RunOrder where
  config := f.value? "config"
  strict := f.has "strict-config"
  overrides :=
    { task := f.value? "task", model := f.value? "model", workdir := f.value? "workdir",
      db := f.value? "db", arguments := [],
      preferences :=
        { samples := f.number? "n-samples" .natural32,
          buildAttempts := f.number? "build-retries" .natural32,
          parents := f.number? "num-snippets" .natural64,
          retries := f.number? "generation-retries" .natural32,
          requestSeconds := f.number? "request-timeout-seconds" .natural64 } }
  arguments := f.values "task-arg"
  start := number32 f "start-iter" 0
  stop := number32 f "end-iter" 0
  runId := f.value? "run-id"

/-- The order of a command with its options. -/
def ofCommand (command : String) (f : Found) : Order :=
  let runId := (f.value? "run-id").getD ""
  match command with
  | "run" => .evolve (runOf f)
  | "init" => .prepare ((f.value? "config").getD standardConfig) (f.has "gitignore")
  | "runs" => .list (ledgerOf f)
  | "summary" => .summarize (ledgerOf f) runId (number32 f "top" 5) (f.has "json")
  | "show" =>
    .print (ledgerOf f) runId (number32 f "iter" 0) (number32 f "sample" 0) (f.has "code")
  | _ => .version

/-- A question for help on a command, or on the program. -/
def helpOn : List String → Refusal
  | [] => .help
  | [name] => if name == "help" || commands.any (·.1 == name) then .help else .usage
  | _ => .usage

/-- Reads a command line, with the environment for options that have a variable. -/
def ofWords (lookup : String → Option String) (words : List String) : Except Refusal Order := do
  match ← scan programRules none [] words with
  | (_, []) => throw .usage
  | (_, "help" :: rest) => throw (helpOn rest)
  | (_, name :: rest) =>
    match commands.find? (·.1 == name) with
    | none => throw .usage
    | some (_, rules) => return ofCommand name (← readOptions (commonRules ++ rules) lookup rest)

end Order

end HeuristicEvolution.CommandLine

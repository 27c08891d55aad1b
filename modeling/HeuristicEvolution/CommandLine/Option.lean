import HeuristicEvolution.Decimal.Read

/-!
# Options

A command takes options by name, written `--name value` or `--name=value`, and switches without a
value. Words are looked at from left to right: the first fault, or the first question for help,
decides. A value that stands for itself may not begin with a dash. Two dashes alone end the
options.

## Scope

No command takes a word that belongs to no option, so a plain word ends the options of the whole
program and is a fault behind a command.

## Main definitions

* `OptionRule`: an option and what it takes.
* `scan`: the options at the head of a list of words.
* `complete`: what variables of the environment add, and what must be there.
-/

namespace HeuristicEvolution.CommandLine

/-- Why words are not read as a command: something was asked about the program, or the words are
wrong. -/
inductive Refusal where
  | help
  | version
  | usage
  deriving DecidableEq, Repr, Inhabited

/-- The exit code of the program when it refuses. Answers to questions are no faults. -/
def Refusal.exitCode : Refusal → Nat
  | .help | .version => 0
  | .usage => 2

/-- What an option takes. -/
inductive Takes where
  /-- Nothing: the option is set or not. -/
  | nothing
  | text
  /-- The path of a file, which cannot be empty. -/
  | path
  /-- A natural number of 32 bits. -/
  | natural32
  /-- A natural number of 64 bits. -/
  | natural64
  /-- One of several words. -/
  | word (choices : List String)
  /-- Nothing: the option is a question. -/
  | question (r : Refusal)
  deriving DecidableEq, Repr, Inhabited

/-- An option. -/
structure OptionRule where
  name : String
  takes : Takes
  /-- The letter that means the same. -/
  letter : Option Char := none
  repeats : Bool := false
  required : Bool := false
  /-- The variable of the environment that stands in for an absent option. -/
  fallback : Option String := none
  deriving Repr, Inhabited

/-! ## Numbers -/

/-- The digits of a number with their value, below a bound. -/
def digitsBelow? (bound : Nat) (cs : List Char) : Option Nat :=
  if !cs.isEmpty && cs.all Char.isDigit then (some (Decimal.ofDigits cs)).filter (· < bound)
  else none

/-- A number as an option states it. A plus sign may stand before it. Numbers of 32 bits are read
as signed ones first, so that a zero may have a minus sign. -/
def natural? (takes : Takes) (s : String) : Option Nat :=
  match takes, s.toList with
  | .natural32, '-' :: cs => (digitsBelow? (Nat.pow 2 32) cs).filter (· = 0)
  | .natural32, '+' :: cs | .natural32, cs => digitsBelow? (Nat.pow 2 32) cs
  | .natural64, '+' :: cs | .natural64, cs => digitsBelow? (Nat.pow 2 64) cs
  | _, _ => none

/-- The value is one that an option takes. -/
def Takes.accepts (takes : Takes) (value : String) : Bool :=
  match takes with
  | .nothing | .question _ => false
  | .text => true
  | .path => !value.isEmpty
  | .natural32 | .natural64 => (natural? takes value).isSome
  | .word choices => choices.contains value

/-! ## Words -/

/-- A word of a command line by its form. -/
inductive Word where
  /-- Two dashes alone. -/
  | endOfOptions
  | long (name : String) (attached : Option String)
  | short (letters : List Char)
  | plain (s : String)
  deriving DecidableEq, Repr, Inhabited

/-- The form of a word. A dash alone is a plain word. -/
def Word.ofString (s : String) : Word :=
  match s.toList with
  | ['-', '-'] => .endOfOptions
  | '-' :: '-' :: cs =>
    .long (String.ofList (cs.takeWhile (· ≠ '=')))
      (if cs.contains '=' then some (String.ofList ((cs.dropWhile (· ≠ '=')).drop 1)) else none)
  | '-' :: c :: cs => .short (c :: cs)
  | _ => .plain s

/-- Options that were found, with their values, in order. -/
abbrev Found := List (String × String)

namespace Found

/-- The option was found. -/
def has (f : Found) (name : String) : Bool := f.any (·.1 == name)

/-- The value of an option. -/
def value? (f : Found) (name : String) : Option String :=
  (f.find? (·.1 == name)).map (·.2)

/-- All values of an option. -/
def values (f : Found) (name : String) : List String :=
  (f.filter (·.1 == name)).map (·.2)

/-- The number that an option states. -/
def number? (f : Found) (name : String) (takes : Takes) : Option Nat :=
  (f.value? name).bind (natural? takes)

end Found

/-- One more value of an option. -/
def add (rule : OptionRule) (value : String) (found : Found) : Except Refusal Found :=
  if rule.takes.accepts value && (rule.repeats || !found.has rule.name) then
    .ok (found ++ [(rule.name, value)])
  else .error .usage

/-- A switch that is set. -/
def switchOn (rule : OptionRule) (found : Found) : Except Refusal Found :=
  if found.has rule.name then .error .usage else .ok (found ++ [(rule.name, "")])

/-- The options at the head of a list of words and the words behind them. `waiting` is the option
whose value has to come next. -/
def scan (rules : List OptionRule) : (waiting : Option OptionRule) → Found → List String →
    Except Refusal (Found × List String)
  | none, found, [] => .ok (found, [])
  | some _, _, [] => .error .usage
  | some rule, found, word :: rest =>
    match Word.ofString word with
    | .plain s => (add rule s found).bind fun found => scan rules none found rest
    | _ => .error .usage
  | none, found, word :: rest =>
    match Word.ofString word with
    | .plain _ => .ok (found, word :: rest)
    | .endOfOptions => if rest.isEmpty then .ok (found, []) else .error .usage
    | .short letters =>
      match rules.find? fun rule => rule.letter.isSome && rule.letter == letters.head? with
      | some ⟨_, .question r, _, _, _, _⟩ => .error r
      | _ => .error .usage
    | .long name attached =>
      match rules.find? fun rule => rule.name == name, attached with
      | none, _ => .error .usage
      | some rule, some value => (add rule value found).bind fun found => scan rules none found rest
      | some rule, none =>
        match rule.takes with
        | .question r => .error r
        | .nothing => (switchOn rule found).bind fun found => scan rules none found rest
        | _ => scan rules (some rule) found rest

/-- Adds what the environment says for absent options; then all that is required has to be
there. -/
def complete (rules : List OptionRule) (lookup : String → Option String) (found : Found) :
    Except Refusal Found := do
  let found ← rules.foldlM (fun (found : Found) rule =>
    match found.has rule.name, rule.fallback.bind lookup with
    | false, some value => add rule value found
    | _, _ => .ok found) found
  if rules.any fun rule => rule.required && !found.has rule.name then throw .usage
  return found

/-- All options of a command. -/
def readOptions (rules : List OptionRule) (lookup : String → Option String) (words : List String) :
    Except Refusal Found := do
  match ← scan rules none [] words with
  | (found, []) => complete rules lookup found
  | _ => throw .usage

end HeuristicEvolution.CommandLine

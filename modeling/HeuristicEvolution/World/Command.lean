import HeuristicEvolution.Text.Search
import HeuristicEvolution.World.Files

/-!
# Commands

Builds and experiments are done by commands of the host. A command is known by its script and the
directory in which it runs; how its life goes, what it prints and what it does to files is the
host's *reaction*. A host may answer each command in any way, also depending on what was run before
and on the files.

## Main definitions

* `Command`, `Reaction`, `Host`: commands and how a host answers them.
* `Prepared`: answers laid out beforehand, and `Prepared.host`, the host that gives them.
-/

namespace HeuristicEvolution

/-- How a command is used. -/
inductive CommandRole where
  /-- A shell script that is waited for. -/
  | script
  /-- A shell script that runs beside others until it is stopped. -/
  | helper
  /-- The version control tool with its arguments. -/
  | versionControl
  deriving DecidableEq, Repr

/-- A command that was started. -/
structure Command where
  role : CommandRole
  script : String
  directory : String
  deriving DecidableEq, Repr

/-- How the life of a command goes. -/
inductive Ending where
  | exits (code : Nat)
  /-- It dies of a signal and has no exit code. -/
  | dies
  /-- It does not end by itself. -/
  | hangs
  /-- It stays up, and exits when it is interrupted. -/
  | serves (code : Nat)
  /-- It stays up and ignores interrupts. -/
  | deaf
  /-- It does not end by itself, and whoever waits for it gives up the whole call. -/
  | abandons
  deriving DecidableEq, Repr, Inhabited

/-- What a command does to a file. -/
inductive Edit where
  | write (path : String) (e : Entry)
  | remove (path : String)
  deriving Inhabited

/-- How a host answers a command. -/
structure Reaction where
  ending : Ending
  stdout : String
  stderr : String
  edits : List Edit
  deriving Inhabited

/-- A host: its reaction to a command, after the commands that were started before, in order, and
with the files as they are. -/
abbrev Host := (earlier : List Command) → Command → Files → Reaction

/-- Does what an edit says, making the directories on the way. A command may have rights that the
program lacks, so nothing is refused; what the tree does not allow for is left. -/
def Edit.apply (fs : Files) : Edit → Files
  | .write path .directory => fs.privileged fun fs => fs.makeDirectories path
  | .write path e =>
    let parent := ((Path.ofString path).parent?).getD ⟨false, []⟩
    (fs.privileged fun fs => fs.makeDirectories parent.toString).privileged fun fs =>
      fs.writeEntry path e
  | .remove path =>
    fs.privileged fun fs =>
      match fs.removeFile path with
      | .ok fs => .ok fs
      | .error _ => fs.removeTree path

/-! ## Prepared answers -/

/-- A command is meant by its whole script, by a part of it, or in any case. -/
inductive CommandPattern where
  | whole (script : String)
  | part (text : String)
  deriving DecidableEq, Repr, Inhabited

/-- The pattern means a script. -/
def CommandPattern.accepts (script : String) : CommandPattern → Bool
  | .whole s => script == s
  | .part s => Text.hasPart s.toList script.toList

/-- An answer laid out beforehand, for a number of commands or for all that it is meant for. -/
structure Prepared where
  pattern : CommandPattern
  uses : Option Nat
  reaction : (script : String) → Reaction
  deriving Inhabited

namespace Prepared

/-- The answer can still be given to a script. -/
def fits (script : String) (p : Prepared) : Bool := p.uses != some 0 && p.pattern.accepts script

/-- What is left of the prepared answers after a script was run: the first that fits loses a use. -/
def spend (script : String) : List Prepared → List Prepared
  | [] => []
  | p :: rest =>
    if p.fits script then { p with uses := p.uses.map (· - 1) } :: rest
    else p :: spend script rest

/-- The reaction to a command for which nothing is prepared: scripts do nothing, helpers of the
given list stay up, and there is no repository. -/
def unprepared (helpers : List String) (c : Command) : Reaction :=
  let ending : Ending :=
    if c.role = .versionControl then .exits 128
    else if helpers.contains c.script then .serves 0
    else .exits 0
  ⟨ending, "", "", []⟩

/-- The host that gives prepared answers. -/
def host (answers : List Prepared) (helpers : List String) : Host := fun earlier c _ =>
  let left := earlier.foldl (fun left before => spend before.script left) answers
  match left.find? (fits c.script) with
  | some p => p.reaction c.script
  | none => unprepared helpers c

end Prepared

end HeuristicEvolution

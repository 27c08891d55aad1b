import HeuristicEvolution.CommandLine.Perform
import HeuristicEvolution.World.Snapshot
import Std.Time

/-!
# The command line

Reads what a command needs from the file system, does what is ordered, and writes back what has
changed. This front end reaches no network and starts no commands: a request to a model fails at
once, and directories are taken to lie outside of version control.
-/

namespace HeuristicEvolution.CommandLine

/-- The entry of a file that was opened. The contents are read only where they matter; what cannot
be read is a directory. -/
def readOpened (file : IO.FS.Handle) (contents : Bool) : IO Entry := do
  try
    if contents then
      let bytes := (← file.readBinToEnd).toList
      match Text.decode? bytes with
      | some text => return .ofContents text
      | none => return .bytes bytes
    let _ ← file.read 1
    return .text ""
  catch _ => return .directory

/-- What stands at a path. -/
def readEntry (path : String) (contents : Bool) : IO (Option Entry) := do
  try return some (← readOpened (← IO.FS.Handle.mk path .read) contents)
  catch _ => return none

/-- Adds what stands on the way of a path. -/
def look (path : String) (contents : Bool) (fs : Files) : IO Files := do
  let mut fs := fs
  let places := Files.placesOn fs.here path
  for place in places do
    if (fs.at? place).isNone then
      match ← readEntry (Files.pathOf place) (contents && places.getLast? == some place) with
      | some e => fs := fs.put place e
      | none => pure ()
  return fs

/-- The files that matter for an order. -/
def lookAround (order : Order) (lookup : String → Option String) (fs : Files) : IO Files := do
  let mut fs ← look (Files.pathOf fs.here) false fs
  for path in order.ownFiles do fs ← look path true fs
  match order.ledgerFile? lookup fs with
  | some ledger => fs ← look ledger true fs
  | none => pure ()
  for path in order.neededPaths lookup fs do fs ← look path false fs
  return fs

/-- The files that matter for the words of a command line. -/
def gather (lookup : String → Option String) (words : List String) : IO Files := do
  let here := (Path.ofString (← IO.currentDir).toString).names.map String.ofList
  let fs : Files := { entries := [], here }
  match Order.ofWords lookup words with
  | .error _ => return fs
  | .ok order => lookAround order lookup fs

/-- Writes back what has changed. -/
def writeBack (before after : Files) : IO Unit := do
  for (place, e) in before.changesSince after do
    match e.contents? with
    | none => IO.FS.createDirAll (Files.pathOf place)
    | some text => IO.FS.writeFile (Files.pathOf place) text

/-- The time of the clock. -/
def currentTime : IO String := do
  let now ← Std.Time.Timestamp.now
  let shown := Std.Time.PlainDateTime.ofWallTime (.ofTimestamp now .zero)
  return shown.format "uuuu-MM-dd'T'HH:mm:ss.SSSSSSSSS" ++ "+00:00"

/-- The environment variables that a command may look at. -/
def environment : IO (String → Option String) := do
  let names := ["EVOFORGE_DB", "EVOFORGE_MODEL", "EVOFORGE_GENERATION_RETRIES"]
    ++ [Service.openAI, .gemini].map Service.keyVariable
  let values ← names.mapM fun name => return (name, ← IO.getEnv name)
  return fun name => ((values.find? (·.1 == name)).map (·.2)).join

/-- The host of this front end: no command can be started. -/
def bareHost : Host := fun _ _ _ => ⟨.exits 127, "", "no command can be started here", []⟩

end HeuristicEvolution.CommandLine

open HeuristicEvolution HeuristicEvolution.CommandLine in
/-- Does what the words of a command line order. -/
def main (words : List String) : IO UInt32 := do
  let lookup ← environment
  let files ← gather lookup words
  let (result, after) :=
    respond lookup (← currentTime) words (.start { files, host := bareHost } .unreachable)
  writeBack files after.world.files
  IO.print result.stdout
  IO.eprint result.stderr
  return result.exitCode.toUInt32

import HeuristicEvolution.Ledger.Document
import HeuristicEvolution.Text.Utf8
import HeuristicEvolution.World.Files

/-!
# Snapshots

The part of a file system that matters for a command, seen at the places to which its paths lead,
and what has to be written back after a command. Ledgers lie in files as documents.

## Main definitions

* `Files.placesOn`: the places that a path goes through.
* `Entry.ofContents`, `Entry.contents?`: entries and the contents of files.
* `Files.changesSince`: what a command has changed.
-/

namespace HeuristicEvolution

/-- What a file with the given text is: a ledger if it is the document of one. -/
def Entry.ofContents (text : String) : Entry :=
  match Ledger.ofText? text with
  | some l => .ledger l
  | none => .text text

/-- The text of the file that holds an entry; a directory is no file. -/
def Entry.contents? : Entry → Option String
  | .directory => none
  | .text s => some s
  | .bytes bs => some (Text.decodeLossy bs)
  | .ledger l => some l.toText

namespace Files

/-- The places that a path goes through, the last one included. -/
def placesOn (here : Place) (path : String) : List Place :=
  let p := Path.ofString path
  let start := if p.absolute then [] else here
  (p.steps.foldl (fun (reached, seen) s =>
    let next : Place := match s with
      | .here => reached
      | .up => reached.dropLast
      | .into name => reached ++ [String.ofList name]
    (next, seen ++ [next])) (start, ([] : List Place))).2

/-- The entries that are not as they were before, those nearer to the root first. -/
def changesSince (before after : Files) : List (Place × Entry) :=
  (after.entries.filter fun (place, e) =>
    match before.at? place with
    | none => true
    | some old => old.contents? != e.contents?).mergeSort fun a b => a.1.length ≤ b.1.length

end Files

end HeuristicEvolution

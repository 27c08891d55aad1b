import HeuristicEvolution.Ledger.Basic
import HeuristicEvolution.Path.Basic

/-!
# Files

The tree of files that a run works in: directories, texts, files that are no text, and ledgers.
Paths are followed step by step as they are written, so `..` behind a name that is no directory
leads nowhere.

What the tree allows for may still be refused: a file may lack a permission, stand on a disk that
is mounted for reading, or on one that is broken. A refusal comes before anything is done.

## Main definitions

* `Files`: a tree with a current directory, and what is refused in it.
* `Files.entry?`, `Files.readText`: looking.
* `Files.writeText`, `Files.makeDirectories`, `Files.removeFile`, `Files.removeTree`: changing.
-/

namespace HeuristicEvolution

/-- Why the system refuses to touch a file. -/
inductive FileFault where
  | notFound
  | exists
  | notDirectory
  | isDirectory
  | notText
  | notPermitted
  | denied
  | readOnly
  | broken
  deriving DecidableEq, Repr, Inhabited

/-- The wording of a refusal. -/
def FileFault.message : FileFault → String
  | .notFound => "No such file or directory (os error 2)"
  | .exists => "File exists (os error 17)"
  | .notDirectory => "Not a directory (os error 20)"
  | .isDirectory => "Is a directory (os error 21)"
  | .notText => "stream did not contain valid UTF-8"
  | .notPermitted => "Operation not permitted (os error 1)"
  | .denied => "Permission denied (os error 13)"
  | .readOnly => "Read-only file system (os error 30)"
  | .broken => "Input/output error (os error 5)"

/-- What stands at a place of the tree. -/
inductive Entry where
  | directory
  | text (s : String)
  /-- A file whose bytes are no text. -/
  | bytes (bs : List UInt8)
  | ledger (l : Ledger)
  deriving Inhabited

/-- A place in the tree: the names on the way from the root. -/
abbrev Place := List String

/-- What is done at a place. To make an entry is to write there. -/
inductive Access where
  | read
  | write
  | remove
  deriving DecidableEq, Repr

/-- A tree of files, the place from which relative paths start, and the faults with which the
system refuses what the tree allows for. -/
structure Files where
  entries : List (Place × Entry)
  here : Place
  refusal : Access → Place → Option FileFault := fun _ _ => none
  deriving Inhabited

namespace Files

/-- A place as an absolute path. -/
def pathOf (place : Place) : String := "/" ++ "/".intercalate place

/-- The path of the current directory. -/
def currentDirectory (fs : Files) : String := pathOf fs.here

/-- What stands at a place; the root is a directory. -/
def at? (fs : Files) (place : Place) : Option Entry :=
  if place.isEmpty then some .directory
  else (fs.entries.find? fun e => e.1 == place).map (·.2)

/-- The place holds a directory. -/
def isDirectoryAt (fs : Files) (place : Place) : Bool :=
  match fs.at? place with
  | some .directory => true
  | _ => false

/-- One step from a place, which has to be a directory. -/
def step (fs : Files) (place : Place) (s : Path.Step) : Except FileFault Place :=
  match fs.at? place with
  | none => .error .notFound
  | some .directory =>
    match s with
    | .here => .ok place
    | .up => .ok place.dropLast
    | .into name => .ok (place ++ [String.ofList name])
  | some _ => .error .notDirectory

/-- The place to which a path leads; what stands there need not exist. -/
def place (fs : Files) (path : String) : Except FileFault Place :=
  if path.isEmpty then .error .notFound
  else
    let p := Path.ofString path
    (p.steps.foldlM fs.step (if p.absolute then [] else fs.here)).bind fun found =>
      if path.endsWith "/" && !fs.isDirectoryAt found then
        .error (if (fs.at? found).isSome then .notDirectory else .notFound)
      else .ok found

/-- What stands where a path leads. -/
def entry? (fs : Files) (path : String) : Option Entry :=
  match fs.place path with
  | .ok found => fs.at? found
  | .error _ => none

/-- Something stands where a path leads. -/
def exists? (fs : Files) (path : String) : Bool := (fs.entry? path).isSome

/-- A directory stands where a path leads. -/
def isDirectory (fs : Files) (path : String) : Bool :=
  match fs.entry? path with
  | some .directory => true
  | _ => false

/-- Goes on unless what is to be done at a place is refused. -/
def allow (fs : Files) (access : Access) (found : Place) : Except FileFault Unit :=
  match fs.refusal access found with
  | some fault => .error fault
  | none => .ok ()

/-- The text of a file. -/
def readText (fs : Files) (path : String) : Except FileFault String := do
  let found ← fs.place path
  match fs.at? found with
  | none => .error .notFound
  | some .directory => .error .isDirectory
  | some e =>
    fs.allow .read found
    match e with
    | .text s => .ok s
    | _ => .error .notText

/-- Puts an entry at a place, in place of what stood there. -/
def put (fs : Files) (place : Place) (e : Entry) : Files :=
  { fs with entries := (place, e) :: fs.entries.filter fun old => old.1 != place }

/-- Takes away a place with all below it. -/
def drop (fs : Files) (place : Place) : Files :=
  { fs with entries := fs.entries.filter fun old => !place.isPrefixOf old.1 }

/-- The place to which a path leads that is to be written; a path that ends in a slash can only
mean a directory. -/
def writtenPlace (fs : Files) (path : String) : Except FileFault Place := do
  let bare := String.ofList (path.toList.reverse.dropWhile (· = '/')).reverse
  if path.endsWith "/" && !bare.isEmpty then
    let _ ← fs.place bare
    throw .isDirectory
  fs.place path

/-- Puts an entry where a path leads, if that is no directory and lies in one. -/
def writeEntry (fs : Files) (path : String) (e : Entry) : Except FileFault Files := do
  let found ← fs.writtenPlace path
  match fs.at? found with
  | some .directory => .error .isDirectory
  | some _ => allowed found
  | none =>
    match fs.at? found.dropLast with
    | some .directory => allowed found
    | some _ => .error .notDirectory
    | none => .error .notFound
where
  /-- The tree with the entry, unless that is refused. -/
  allowed (found : Place) : Except FileFault Files := do
    fs.allow .write found
    return fs.put found e

/-- Writes a text. -/
def writeText (fs : Files) (path text : String) : Except FileFault Files :=
  fs.writeEntry path (.text text)

/-- Makes directories at all places on the way to `place`, the nearest to the root first. -/
def makeAll (fs : Files) : (done rest : Place) → Except FileFault Files
  | done, [] =>
    if fs.isDirectoryAt done then .ok fs else .error .exists
  | done, name :: rest =>
    let next := done ++ [name]
    match fs.at? next with
    | some .directory => makeAll fs next rest
    | some _ => .error (if rest.isEmpty then .exists else .notDirectory)
    | none =>
      match fs.refusal .write next with
      | some fault => .error fault
      | none => makeAll (fs.put next .directory) next rest

/-- Makes a directory and all that are missing on the way to it. -/
def makeDirectories (fs : Files) (path : String) : Except FileFault Files :=
  if path.isEmpty then .ok fs
  else
    let p := Path.ofString path
    let start := if p.absolute then [] else fs.here
    let names := p.steps.foldl (fun (reached : Place) s =>
      match s with
      | .here => reached
      | .up => reached.dropLast
      | .into name => reached ++ [String.ofList name]) start
    fs.makeAll [] names

/-- Takes away a file; a directory is not touched. -/
def removeFile (fs : Files) (path : String) : Except FileFault Files := do
  let found ← fs.place path
  match fs.at? found with
  | none => .error .notFound
  | some .directory => .error .isDirectory
  | some _ =>
    fs.allow .remove found
    return fs.drop found

/-- Takes away a directory with all that is in it, if nothing of it is refused. -/
def removeTree (fs : Files) (path : String) : Except FileFault Files := do
  let found ← fs.place path
  match fs.at? found with
  | none => .error .notFound
  | some .directory =>
    (fs.entries.filter fun old => found.isPrefixOf old.1).forM fun old => fs.allow .remove old.1
    return fs.drop found
  | some _ => .error .notDirectory

/-- Something is refused where a path leads. -/
def refuses (fs : Files) (access : Access) (path : String) : Bool :=
  match fs.place path with
  | .ok found => (fs.refusal access found).isSome
  | .error _ => false

/-- What is done to a tree with the right to do everything. -/
def privileged (fs : Files) (edit : Files → Except FileFault Files) : Files :=
  match edit { fs with refusal := fun _ _ => none } with
  | .ok done => { done with refusal := fs.refusal }
  | .error _ => fs

end Files

end HeuristicEvolution

import HeuristicEvolution.Text.Blank

/-!
# Paths

A path is absolute or relative and goes through *steps*: up, or into a named entry. Empty parts
and inner `.` parts of its text are no steps; a relative path that opens with `.` keeps that part,
because such a path has a parent directory while the empty path has none.

## Main definitions

* `Path.ofString`, `Path.toString`: reading and writing.
* `Path.parent?`, `Path.parentText?`: the directory of a path.
* `Path.join`: a path taken relative to a directory.
* `Path.normal`: the path without `.`, where `..` takes back the step before it.
-/

namespace HeuristicEvolution

namespace Path

/-- One step of a path. -/
inductive Step where
  /-- `.` -/
  | here
  /-- `..` -/
  | up
  | into (name : List Char)
  deriving DecidableEq, Repr

/-- The text of a step. -/
def Step.text : Step → List Char
  | .here => ['.']
  | .up => ['.', '.']
  | .into name => name

/-- The parts of a text between the characters `sep`; there is always one more than of these. -/
def splitOn (sep : Char) : List Char → List (List Char)
  | [] => [[]]
  | c :: cs =>
    if c = sep then [] :: splitOn sep cs
    else
      match splitOn sep cs with
      | [] => [[c]]
      | part :: parts => (c :: part) :: parts

/-- The step that a part of a path stands for. -/
def Step.ofPart? : List Char → Option Step
  | [] => none
  | ['.'] => none
  | ['.', '.'] => some .up
  | name => some (.into name)

end Path

/-- A path: absolute or relative, and its steps. -/
structure Path where
  absolute : Bool
  steps : List Path.Step
  deriving DecidableEq, Repr, Inhabited

namespace Path

/-- Reads a path. -/
def ofString (s : String) : Path :=
  match s.toList with
  | '/' :: cs => ⟨true, (splitOn '/' cs).filterMap Step.ofPart?⟩
  | cs =>
    let parts := splitOn '/' cs
    let steps := parts.filterMap Step.ofPart?
    ⟨false, if parts.head? = some ['.'] then .here :: steps else steps⟩

/-- The steps separated by slashes, after one more slash when the path is absolute. -/
def toString (p : Path) : String :=
  (if p.absolute then "/" else "")
    ++ String.ofList (List.intercalate ['/'] (p.steps.map Step.text))

instance : ToString Path := ⟨toString⟩

/-- The path without its last step; the root and the empty path have no parent. -/
def parent? (p : Path) : Option Path :=
  if p.steps.isEmpty then none else some { p with steps := p.steps.dropLast }

/-- The parts without those at the end that are no steps. -/
def trimParts (parts : List (List Char)) : List (List Char) :=
  (parts.reverse.dropWhile fun part => (Step.ofPart? part).isNone).reverse

/-- The text before the last step of a path, if anything stands there. -/
def parentText? (s : String) : Option String :=
  match splitOn '/' s.toList with
  | [] => none
  | first :: rest =>
    let rest := trimParts rest
    if rest.isEmpty then none
    else
      match first, trimParts rest.dropLast with
      | [], [] => some "/"
      | _, before => some (String.ofList (List.intercalate ['/'] (first :: before)))

/-- `q` seen from the directory `p`: an absolute path stays as it is, and a relative one goes on
where `p` ends. -/
def join (p q : Path) : Path :=
  if q.absolute then q else { p with steps := p.steps ++ q.steps }

/-- One step taken from the names reached so far, the last one first. Going up from the start
stays there. -/
def advance (reached : List (List Char)) : Step → List (List Char)
  | .here => reached
  | .up => reached.tail
  | .into name => name :: reached

/-- The names that a path leads through when every `..` takes back the name before it. -/
def names (p : Path) : List (List Char) := (p.steps.foldl advance []).reverse

/-- The normal form of a path: names only. -/
def normal (p : Path) : Path := ⟨p.absolute, p.names.map .into⟩

/-- A path in a configuration file is relative to the directory of the file. Absolute and blank
paths stay as they are written; any other is joined to that directory and made normal, and reads
`.` when nothing is left. -/
def besideFile (file p : String) : String :=
  if (Text.trim p).isEmpty || (ofString p).absolute then p
  else
    let directory := ((ofString file).parent?).getD ⟨false, [.here]⟩
    let found := (directory.join (ofString p)).normal
    if !found.absolute && found.steps.isEmpty then "." else found.toString

/-- Joins texts of paths the way shells and programs write them: the second is put after the
first and one slash. -/
def append (dir name : String) : String :=
  if name.startsWith "/" then name
  else if dir.isEmpty || dir.endsWith "/" then dir ++ name
  else dir ++ "/" ++ name

end Path

end HeuristicEvolution

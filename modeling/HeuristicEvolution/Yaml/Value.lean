import HeuristicEvolution.Yaml.Node
import HeuristicEvolution.Yaml.Scalar

/-!
# Values of documents

What a node holds for a reader that knows what it wants: any value, a text, a number, or a mapping
with named entries. Collections nest at most 128 deep, and aliases are followed at most a hundred
times as often as the document has parts, so a document that contains itself is refused.

## Main definitions

* `Reading`: readings of one document.
* `Reading.value`, `Reading.text`, `Reading.natural`, `Reading.optional`, `Reading.entries`
* `Document.toJson?`: the whole document as a value.
-/

namespace HeuristicEvolution.Yaml

/-- Readings of a document: they count the aliases that were followed, and may be refused. -/
abbrev Reading (α : Type) := StateT Nat Option α

/-- How deep collections nest. -/
def depthLimit : Nat := 128

mutual

/-- The number of parts of a node: a collection has a beginning and an end. -/
def Node.parts : Node → Nat
  | .alias _ | .scalar _ _ _ => 1
  | .sequence _ items => 2 + Node.itemParts items
  | .mapping _ entries => 2 + Node.entryParts entries

/-- The number of parts of some nodes. -/
def Node.itemParts : List Node → Nat
  | [] => 0
  | n :: rest => n.parts + Node.itemParts rest

/-- The number of parts of some entries. -/
def Node.entryParts : List (Node × Node) → Nat
  | [] => 0
  | (k, v) :: rest => k.parts + v.parts + Node.entryParts rest

end

/-- How often aliases of a document may be followed. -/
def Document.aliasLimit (d : Document) : Nat :=
  100 * match d.root with
    | some n => n.parts
    | none => 1

namespace Reading

/-- The reading is refused. -/
def refuse : Reading α := fun _ => none

/-- A reading that is refused if there is nothing. -/
def ofOption (a : Option α) : Reading α := fun n => a.map fun a => (a, n)

/-- The node that a node stands for, which is no alias. -/
def follow (d : Document) : Node → Reading Node
  | .alias number => fun followed =>
    if d.aliasLimit < followed + 1 then none
    else (d.anchors.node? number).map fun n => (n, followed + 1)
  | n => pure n

/-- A tag of one's own, which says nothing about a value of a known kind. -/
def isLocal (tag : Option String) : Bool := tag.any fun t => t.startsWith "!"

/-- The full name of a tag of the format. -/
def standardTag (name : String) : String := "tag:yaml.org,2002:" ++ name

/-- The value of a scalar. A tag of the format decides its kind, and then the text has to be of that
kind; otherwise plain scalars are understood and all others are texts. -/
def scalarValue (tag : Option String) (style : ScalarStyle) (text : String) : Option Json :=
  if isLocal tag then none
  else if tag = some (standardTag "bool") then (truth? text).map .bool
  else if tag = some (standardTag "int") then (integer? text.toList).bind id
  else if tag = some (standardTag "float") then (float? text.toList).map .ofFloat
  else if tag = some (standardTag "null") then if isNull text then some .null else none
  else if tag.isNone && style = .plain then plainValue? text
  else some (.str text)

/-- The text of a scalar, whatever its tag and style. -/
def text (d : Document) (n : Node) : Reading String := do
  match ← follow d n with
  | .scalar _ _ text => return text
  | _ => refuse

/-- The value of a node in which collections nest at most `depth` deep. Keys are texts of scalars,
and of entries with equal keys the last one counts. -/
def value (d : Document) : (depth : Nat) → Node → Reading Json
  | 0, n => do
    match ← follow d n with
    | .scalar tag style text => ofOption (scalarValue tag style text)
    | _ => refuse
  | depth + 1, n => do
    match ← follow d n with
    | .alias _ => refuse
    | .scalar tag style text => ofOption (scalarValue tag style text)
    | .sequence tag items =>
      if isLocal tag then refuse
      else return .arr (← items.mapM (value d depth))
    | .mapping tag entries =>
      if isLocal tag then refuse
      else
        return .ofMembers (← entries.mapM fun (k, v) => do
          return (← text d k, ← value d depth v))

/-- A natural number below the bound. It stands in a plain scalar or, as a block, under the tag of
integers. -/
def natural (d : Document) (bound : Nat) (n : Node) : Reading Nat := do
  match ← follow d n with
  | .scalar tag style text =>
    if style = .plain || (style = .literal && tag = some (standardTag "int")) then
      ofOption ((unsigned? (Nat.pow 2 64) text.toList).filter (· < bound))
    else refuse
  | _ => refuse

/-- A plain scalar that is left out or null says that there is nothing. -/
def isAbsent (tag : Option String) (style : ScalarStyle) (text : String) : Option Bool :=
  if style ≠ .plain then some false
  else if tag = some (standardTag "null") then if isNull text then some true else none
  else if tag.isSome then some false
  else some (text.isEmpty || isNull text)

/-- What `read` reads, or nothing. -/
def optional (d : Document) (read : Node → Reading α) (n : Node) : Reading (Option α) := do
  match ← follow d n with
  | .scalar tag style text =>
    if ← ofOption (isAbsent tag style text) then return none
    else return some (← read (.scalar tag style text))
  | n => return some (← read n)

/-- The entries of a mapping; a plain scalar that is left out has none. -/
def entries (d : Document) (n : Node) : Reading (List (Node × Node)) := do
  match ← follow d n with
  | .mapping _ entries => return entries
  | .scalar _ .plain "" => return []
  | _ => refuse

end Reading

/-- The document as a value; an empty document is null. -/
def Document.toJson? (d : Document) : Option Json :=
  match d.root with
  | none => some .null
  | some n => (Reading.value d depthLimit n 0).map (·.1)

/-- The value of a text. -/
def readValue? (text : String) : Option Json := do (← Document.ofText? text).toJson?

end HeuristicEvolution.Yaml

import HeuristicEvolution.Yaml.Token

/-!
# Nodes

A document as a tree. Collections hold nodes; an alias stands for the node that carries its anchor,
which may be a node around it. Anchors are numbered by how many names are in use when they are set,
and of nodes with one number the last to begin counts.

## Main definitions

* `Node`, `Document`: trees, and a tree with what its anchors stand for.
* `Document.ofTokens?`: the document that a sequence of tokens writes down.
-/

namespace HeuristicEvolution.Yaml

/-- A node of a document. -/
inductive Node where
  | alias (anchor : Nat)
  | scalar (tag : Option String) (style : ScalarStyle) (text : String)
  | sequence (tag : Option String) (items : List Node)
  | mapping (tag : Option String) (entries : List (Node × Node))
  deriving Inhabited

/-- A scalar in the place of a node that is left out. -/
def Node.missing : Node := .scalar none .plain ""

/-- What is known of anchors: the numbers of names, for each number the place in the order of
beginning at which it was set last, and the nodes of such places. -/
structure Anchors where
  names : List (String × Nat)
  latest : List (Nat × Nat)
  nodes : List (Nat × Node)
  begun : Nat
  deriving Inhabited

namespace Anchors

/-- No anchor is set. -/
def empty : Anchors := ⟨[], [], [], 0⟩

/-- Sets an anchor on a node that begins, and gives the place of the node. -/
def set (a : Anchors) (name : String) : Nat × Anchors :=
  let number := a.names.length
  (a.begun,
   { a with names := (name, number) :: a.names.filter (·.1 != name)
            latest := (number, a.begun) :: a.latest, begun := a.begun + 1 })

/-- Keeps a node that was begun at a place. -/
def keep (a : Anchors) (place : Option Nat) (n : Node) : Anchors :=
  match place with
  | some p => { a with nodes := (p, n) :: a.nodes }
  | none => a

/-- The number of a name. -/
def number? (a : Anchors) (name : String) : Option Nat :=
  (a.names.find? (·.1 == name)).map (·.2)

/-- The node that a number stands for. -/
def node? (a : Anchors) (number : Nat) : Option Node := do
  let (_, place) ← a.latest.find? (·.1 == number)
  let (_, n) ← a.nodes.find? (·.1 == place)
  return n

end Anchors

/-- Tokens that are left, and the anchors so far. -/
structure NodeReader where
  tokens : List Token
  anchors : Anchors
  handles : List (String × String)
  deriving Inhabited

namespace NodeReader

/-- The next token. -/
def peek? (r : NodeReader) : Option Token := r.tokens.head?

/-- The next token is one of the given ones. -/
def sees (r : NodeReader) (ts : List Token) : Bool := r.peek?.any ts.contains

/-- Goes on by a token. -/
def skip (r : NodeReader) : NodeReader := { r with tokens := r.tokens.tail }

/-- A tag, if one stands here, in full. -/
def tag? (r : NodeReader) : Option (Option String × NodeReader) :=
  match r.tokens with
  | .tag t :: rest => do return (some (← t.resolve? r.handles), { r with tokens := rest })
  | _ => some (none, r)

/-- An anchor, if one stands here. -/
def anchor? (r : NodeReader) : Option String × NodeReader :=
  match r.tokens with
  | .anchor name :: rest => (some name, { r with tokens := rest })
  | _ => (none, r)

/-- An anchor and a tag in either order. -/
def properties? (r : NodeReader) : Option (Option String × Option String × NodeReader) := do
  let (before, r) := r.anchor?
  let (tag, r) ← r.tag?
  match before with
  | some name => return (some name, tag, r)
  | none =>
    if tag.isSome then
      let (after, r) := r.anchor?
      return (after, tag, r)
    else return (none, none, r)

/-- Sets an anchor, if there is one, on a node that begins. -/
def begin (r : NodeReader) (anchor : Option String) : Option Nat × NodeReader :=
  match anchor with
  | some name =>
    let (place, anchors) := r.anchors.set name
    (some place, { r with anchors })
  | none => (none, r)

/-- Keeps a node that ends. -/
def finish (r : NodeReader) (place : Option Nat) (n : Node) : Node × NodeReader :=
  (n, { r with anchors := r.anchors.keep place n })

/-- The tag of a scalar; a mark alone says that there is none. -/
def scalarTag (tag : Option String) : Option String := tag.filter (· != "!")

mutual

/-- A node. Collections of blocks may stand here if `block`, and one whose dashes are not indented
if `dashes`. -/
def node? : (fuel : Nat) → (block dashes : Bool) → NodeReader → Option (Node × NodeReader)
  | 0, _, _, _ => none
  | fuel + 1, block, dashes, r =>
    match r.tokens with
    | .alias name :: _ => do return (.alias (← r.anchors.number? name), r.skip)
    | _ => do
      let (anchor, tag, r) ← r.properties?
      let (place, s) := r.begin anchor
      match r.peek? with
      | some .blockEntry =>
        if dashes then
          let (items, s) ← dashes? fuel s
          return s.finish place (.sequence tag items)
        else absent? anchor tag place s
      | some (.scalar style text) =>
        return s.skip.finish place (.scalar (scalarTag tag) style text)
      | some .flowSequenceStart => do
        let (items, s) ← flowItems? fuel true s.skip
        return s.finish place (.sequence tag items)
      | some .flowMappingStart => do
        let (entries, s) ← flowEntries? fuel true s.skip
        return s.finish place (.mapping tag entries)
      | some .blockSequenceStart =>
        if block then
          let (items, s) ← blockItems? fuel s.skip
          return s.finish place (.sequence tag items)
        else absent? anchor tag place s
      | some .blockMappingStart =>
        if block then
          let (entries, s) ← blockEntries? fuel s.skip
          return s.finish place (.mapping tag entries)
        else absent? anchor tag place s
      | _ => absent? anchor tag place s

/-- A node that has an anchor or a tag may be left out. -/
def absent? (anchor tag : Option String) (place : Option Nat) (r : NodeReader) :
    Option (Node × NodeReader) :=
  if anchor.isSome || tag.isSome then some (r.finish place (.scalar tag .plain "")) else none

/-- A node, or the scalar in its place if one of the given tokens stands here. -/
def nodeBefore? : (fuel : Nat) → (block dashes : Bool) → (ends : List Token) → NodeReader →
    Option (Node × NodeReader)
  | 0, _, _, _, _ => none
  | fuel + 1, block, dashes, ends, r =>
    if r.sees ends then some (.missing, r) else node? fuel block dashes r

/-- The elements of a sequence in a block, up to behind its end. -/
def blockItems? : (fuel : Nat) → NodeReader → Option (List Node × NodeReader)
  | 0, _ => none
  | fuel + 1, r =>
    match r.peek? with
    | some .blockEntry => do
      let (n, r) ← nodeBefore? fuel true false [.blockEntry, .blockEnd] r.skip
      let (rest, r) ← blockItems? fuel r
      return (n :: rest, r)
    | some .blockEnd => some ([], r.skip)
    | _ => none

/-- The elements of a sequence whose dashes are not indented. -/
def dashes? : (fuel : Nat) → NodeReader → Option (List Node × NodeReader)
  | 0, _ => none
  | fuel + 1, r =>
    match r.peek? with
    | some .blockEntry => do
      let (n, r) ← nodeBefore? fuel true false [.blockEntry, .key, .value, .blockEnd] r.skip
      let (rest, r) ← dashes? fuel r
      return (n :: rest, r)
    | _ => some ([], r)

/-- The entries of a mapping in a block, up to behind its end. -/
def blockEntries? : (fuel : Nat) → NodeReader → Option (List (Node × Node) × NodeReader)
  | 0, _ => none
  | fuel + 1, r =>
    match r.peek? with
    | some .key => do
      let (k, r) ← nodeBefore? fuel true true [.key, .value, .blockEnd] r.skip
      let (v, r) ← blockValue? fuel r
      let (rest, r) ← blockEntries? fuel r
      return ((k, v) :: rest, r)
    | some .value => none
    | some .blockEnd => some ([], r.skip)
    | _ => none

/-- The value behind a key of a block. -/
def blockValue? : (fuel : Nat) → NodeReader → Option (Node × NodeReader)
  | 0, _ => none
  | fuel + 1, r =>
    match r.peek? with
    | some .value => nodeBefore? fuel true true [.key, .value, .blockEnd] r.skip
    | _ => some (.missing, r)

/-- The elements of a sequence in brackets, up to behind its end. An entry of a mapping may stand
for the mapping that has no other. -/
def flowItems? : (fuel : Nat) → (first : Bool) → NodeReader → Option (List Node × NodeReader)
  | 0, _, _ => none
  | fuel + 1, first, r =>
    if r.sees [.flowSequenceEnd] then some ([], r.skip)
    else do
      let r ← if first then some r else if r.sees [.flowEntry] then some r.skip else none
      if r.sees [.key] then
        let (n, r) ← flowPair? fuel r.skip
        let (rest, r) ← flowItems? fuel false r
        return (n :: rest, r)
      else if r.sees [.flowSequenceEnd] then return ([], r.skip)
      else
        let (n, r) ← node? fuel false false r
        let (rest, r) ← flowItems? fuel false r
        return (n :: rest, r)

/-- The mapping of a single entry inside a sequence in brackets. An indicator in the place of the
key is taken for it. -/
def flowPair? : (fuel : Nat) → NodeReader → Option (Node × NodeReader)
  | 0, _ => none
  | fuel + 1, r => do
    let (k, r) ← if r.sees [.value, .flowEntry, .flowSequenceEnd] then some (.missing, r.skip)
      else node? fuel false false r
    let (v, r) ← flowValue? fuel [.flowEntry, .flowSequenceEnd] r
    return (.mapping none [(k, v)], r)

/-- The value behind a key in brackets. -/
def flowValue? : (fuel : Nat) → (ends : List Token) → NodeReader → Option (Node × NodeReader)
  | 0, _, _ => none
  | fuel + 1, ends, r =>
    if r.sees [.value] then nodeBefore? fuel false false ends r.skip else some (.missing, r)

/-- The entries of a mapping in brackets, up to behind its end. A node alone is a key. -/
def flowEntries? : (fuel : Nat) → (first : Bool) → NodeReader →
    Option (List (Node × Node) × NodeReader)
  | 0, _, _ => none
  | fuel + 1, first, r =>
    if r.sees [.flowMappingEnd] then some ([], r.skip)
    else do
      let r ← if first then some r else if r.sees [.flowEntry] then some r.skip else none
      if r.sees [.key] then
        let (k, r) ← nodeBefore? fuel false false [.value, .flowEntry, .flowMappingEnd] r.skip
        let (v, r) ← flowValue? fuel [.flowEntry, .flowMappingEnd] r
        let (rest, r) ← flowEntries? fuel false r
        return ((k, v) :: rest, r)
      else if r.sees [.flowMappingEnd] then return ([], r.skip)
      else
        let (k, r) ← node? fuel false false r
        let (rest, r) ← flowEntries? fuel false r
        return ((k, .missing) :: rest, r)

end

/-- The directives before a document: one version of 1.1 or 1.2 at most, and each handle once. -/
def directives? : (versioned : Bool) → (handles : List (String × String)) → List Token →
    Option (List (String × String) × List Token)
  | versioned, handles, .directive (.version major minor) :: rest =>
    if !versioned && major = 1 && (minor = 1 || minor = 2) then directives? true handles rest
    else none
  | versioned, handles, .directive (.handle name text) :: rest =>
    if handles.any (·.1 == name) then none
    else directives? versioned (handles ++ [(name, text)]) rest
  | _, handles, rest => some (handles, rest)

end NodeReader

/-- A document: its root, if it has one, and what its anchors stand for. -/
structure Document where
  root : Option Node
  anchors : Anchors
  deriving Inhabited

namespace Document

/-- The root of a document behind its start marker. -/
def content? (r : NodeReader) : Option (Node × NodeReader) :=
  match r.tokens with
  | [] | .directive _ :: _ | .documentStart :: _ | .documentEnd :: _ => some (.missing, r)
  | _ => r.node? (4 * r.tokens.length + 4) true false

/-- The root of the first document. -/
def first? (tokens : List Token) : Option (Node × NodeReader) :=
  match tokens with
  | .directive _ :: _ | .documentStart :: _ => do
    let (handles, rest) ← NodeReader.directives? false [] tokens
    match rest with
    | .documentStart :: rest =>
      content? ⟨rest, .empty, handles ++ Yaml.standardHandles⟩
    | _ => none
  | _ =>
    NodeReader.node? (4 * tokens.length + 4) true false ⟨tokens, .empty, Yaml.standardHandles⟩

/-- The only document of a sequence of tokens. Behind it markers of its end may stand. -/
def ofTokens? : List Token → Option Document
  | [] => some ⟨none, .empty⟩
  | tokens => do
    let (root, r) ← first? tokens
    if r.tokens.all (· == .documentEnd) then return ⟨some root, r.anchors⟩ else none

/-- Reads a document. -/
def ofText? (text : String) : Option Document := do ofTokens? (← Token.scan? text)

end Document

end HeuristicEvolution.Yaml

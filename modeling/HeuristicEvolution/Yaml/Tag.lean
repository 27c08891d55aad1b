import HeuristicEvolution.Yaml.ScalarText

/-!
# Tags and directives

A tag names the type of a node. It is written in full between angle brackets, or as a handle and a
suffix; the handle stands for a text that goes before the suffix, and directives at the head of a
document may set what handles stand for.

## Main definitions

* `TagName`: a tag as it is written.
* `Directive`: a version or a handle.
* `TagName.resolve?`: the tag in full.
-/

namespace HeuristicEvolution.Yaml

/-- A tag as it is written. A tag in full has no handle. -/
structure TagName where
  handle : String
  suffix : String
  deriving DecidableEq, Repr, Inhabited

/-- A directive at the head of a document. -/
inductive Directive where
  | version (major minor : Nat)
  | handle (name text : String)
  deriving DecidableEq, Repr, Inhabited

/-! ## Reading tags -/

/-- Characters of a tag; some are allowed only where the tag is written in full. -/
def isTagChar (full : Bool) (c : Char) : Bool :=
  isNameChar c || ";/?:@&=+$.%!~*'()".toList.contains c || (full && ",[]".toList.contains c)

/-- The number of bytes of a character whose encoding begins with the given byte. -/
def encodedLength? (byte : Nat) : Option Nat :=
  if byte < 0x80 then some 1
  else if byte / 32 = 6 then some 2
  else if byte / 16 = 14 then some 3
  else if byte / 8 = 30 then some 4
  else none

/-- The byte that a percent sign and two digits stand for. -/
def escapedByte? : List Char → Option Nat
  | '%' :: a :: b :: _ => do return 16 * (← hexValue? a) + (← hexValue? b)
  | _ => none

/-- Bytes that go on a character, `left` of them, and the characters behind them. -/
def escapedRest? : (left value : Nat) → List Char → Option (Nat × List Char)
  | 0, value, cs => some (value, cs)
  | left + 1, value, cs => do
    let byte ← escapedByte? cs
    if byte / 64 = 2 then escapedRest? left (64 * value + byte % 64) (cs.drop 3) else none

/-- A character written as its encoding in percent escapes, and the characters behind it. -/
def escapedChar? (cs : List Char) : Option (Char × List Char) := do
  let byte ← escapedByte? cs
  let length ← encodedLength? byte
  let head := if length = 1 then byte else byte % Nat.pow 2 (7 - length)
  let (value, rest) ← escapedRest? (length - 1) head (cs.drop 3)
  return (← charOf? value, rest)

/-- The characters of a tag, with escapes replaced, and the place behind them. -/
def tagChars? (full : Bool) : (fuel : Nat) → Cursor → (text : List Char) →
    Option (List Char × Cursor)
  | 0, _, _ => none
  | fuel + 1, c, text =>
    match c.rest with
    | [] => some (text, c)
    | x :: _ =>
      if x = '%' then do
        let (y, rest) ← escapedChar? c.rest
        tagChars? full fuel (c.skip (c.rest.length - rest.length)) (text ++ [y])
      else if isTagChar full x then tagChars? full fuel (c.skip 1) (text ++ [x])
      else some (text, c)

/-- Reads a handle: an exclamation mark, name characters, and a second mark if one follows. -/
def handle? (c : Cursor) : Option (List Char × Cursor) :=
  if c.sees '!' then
    let (name, c) := (c.skip 1).span isNameChar
    if c.sees '!' then some ('!' :: name ++ ['!'], c.skip 1) else some ('!' :: name, c)
  else none

/-- A tag in full; the cursor stands on its exclamation mark. -/
def fullTag? (c : Cursor) : Option (TagName × Cursor) := do
  let (text, c) ← tagChars? true (c.rest.length + 1) (c.skip 2) []
  if c.sees '>' && !text.isEmpty then return (⟨"", String.ofList text⟩, c.skip 1) else none

/-- A tag with a handle. What was read as a handle without a second mark is the beginning of the
suffix; a mark alone is a tag in full. -/
def shortTag? (c : Cursor) : Option (TagName × Cursor) := do
  let (handle, c) ← handle? c
  let (text, c) ← tagChars? false (c.rest.length + 1) c []
  if 2 ≤ handle.length && handle.getLast? = some '!' then
    if text.isEmpty then none else return (⟨String.ofList handle, String.ofList text⟩, c)
  else
    let suffix := handle.drop 1 ++ text
    if suffix.isEmpty then return (⟨"", "!"⟩, c) else return (⟨"!", String.ofList suffix⟩, c)

/-- Reads a tag. A gap has to follow, or a comma inside brackets. -/
def tag? (inFlow : Bool) (c : Cursor) : Option (TagName × Cursor) := do
  let (tag, c) ← if c.peek? 1 = some '<' then fullTag? c else shortTag? c
  if (inFlow && c.sees ',') || c.gapAt 0 then return (tag, c) else none

/-! ## Reading directives -/

/-- A number of a version; it has at most nine digits. -/
def versionNumber? (c : Cursor) : Option (Nat × Cursor) :=
  let (digits, rest) := c.span Char.isDigit
  if digits.isEmpty || 9 < digits.length then none
  else some (digits.foldl (fun n d => 10 * n + (d.toNat - '0'.toNat)) 0, rest)

/-- The rest of a directive that states the version. -/
def versionDirective? (c : Cursor) : Option (Directive × Cursor) := do
  let (major, c) ← versionNumber? (c.skipWhile isBlank)
  if c.sees '.' then
    let (minor, c) ← versionNumber? (c.skip 1)
    return (.version major minor, c)
  else none

/-- The rest of a directive that sets a handle. -/
def handleDirective? (c : Cursor) : Option (Directive × Cursor) := do
  let (handle, c) ← handle? (c.skipWhile isBlank)
  if (handle = ['!'] || (2 ≤ handle.length && handle.getLast? = some '!')) && c.blankAt 0 then
    let c := c.skipWhile isBlank
    let (text, c) ← tagChars? true (c.rest.length + 1) c []
    if text.isEmpty || !c.gapAt 0 then none
    else return (.handle (String.ofList handle) (String.ofList text), c)
  else none

/-- A directive, up to the end of its line; the cursor stands on its percent sign. -/
def directive? (c : Cursor) : Option (Directive × Cursor) := do
  let (name, c) := (c.skip 1).span isNameChar
  if !c.gapAt 0 then none
  else
    let (directive, c) ←
      if name = "YAML".toList then versionDirective? c
      else if name = "TAG".toList then handleDirective? c
      else none
    return (directive, ← c.toLineEnd?)

/-! ## Tags in full -/

/-- What handles stand for unless a directive says something else. -/
def standardHandles : List (String × String) := [("!", "!"), ("!!", "tag:yaml.org,2002:")]

/-- The tag in full. A handle has to stand for something. -/
def TagName.resolve? (handles : List (String × String)) (t : TagName) : Option String :=
  if t.handle.isEmpty then some t.suffix
  else (handles.find? fun h => h.1 == t.handle).map fun h => h.2 ++ t.suffix

end HeuristicEvolution.Yaml

import HeuristicEvolution.Yaml.Cursor

/-!
# Texts of scalars

A scalar is written plainly, in quotes of either kind, or as an indented block. Inside a plain or
quoted scalar a *gap* of blanks and line breaks is folded: blanks at line ends go, a single line
break becomes a blank, and of several line breaks the first goes.

## Main definitions

* `Gap`: blanks and line breaks between two words of a scalar.
* `plainText?`, `singleQuoted?`, `doubleQuoted?`, `blockText?`: the four ways of writing.
-/

namespace HeuristicEvolution.Yaml

/-- Blanks and line breaks that were read between words: the blanks before any line break, the
first line break, and the others. -/
structure Gap where
  blanks : List Char
  first : List Char
  others : List Char
  /-- A line break, also one that leaves no text, was met. -/
  broken : Bool
  deriving Inhabited

namespace Gap

/-- Nothing is read yet. -/
def empty : Gap := ⟨[], [], [], false⟩

/-- One more blank; behind a line break it is indentation and goes. -/
def addBlank (g : Gap) (c : Char) : Gap :=
  if g.broken then g else { g with blanks := g.blanks ++ [c] }

/-- One more line break. -/
def addBreak (g : Gap) (c : Char) : Gap :=
  if g.broken then { g with others := g.others ++ [c] }
  else { g with blanks := [], first := [c], broken := true }

/-- What stands in the scalar for the gap. -/
def text (g : Gap) : List Char :=
  if g.broken then
    if g.first = ['\n'] then if g.others.isEmpty then [' '] else g.others
    else g.first ++ g.others
  else g.blanks

end Gap

/-- Reads a gap. A tab that stands where indentation up to the column `floor` is needed is a
mistake. -/
def readGap? (floor : Int) : (fuel : Nat) → Cursor → Gap → Option (Gap × Cursor)
  | 0, c, g => some (g, c)
  | fuel + 1, c, g =>
    match c.rest with
    | [] => some (g, c)
    | x :: _ =>
      if isBlank x then
        if g.broken && (c.column : Int) < floor && x = '\t' then none
        else readGap? floor fuel (c.skip 1) (g.addBlank x)
      else if isBreak x then readGap? floor fuel c.skipLine (g.addBreak (breakText x))
      else some (g, c)

/-! ## Plain scalars -/

/-- Characters that end a plain scalar inside brackets. -/
def isFlowIndicator (c : Char) : Bool :=
  c = ',' || c = '[' || c = ']' || c = '{' || c = '}'

/-- The length of the word of a plain scalar that stands here. It ends before a gap, before a colon
with a gap behind it and, inside brackets, before their indicators. Inside brackets a colon right
before an indicator is a mistake. -/
def wordLength? (inFlow : Bool) : List Char → Option Nat
  | [] => some 0
  | x :: cs =>
    if isBlank x || isBreak x then some 0
    else if inFlow && x = ':' && cs.head?.any (fun y => isFlowIndicator y || y = '?') then none
    else if x = ':' && (match cs with | [] => true | y :: _ => isBlank y || isBreak y) then some 0
    else if inFlow && isFlowIndicator x then some 0
    else (wordLength? inFlow cs).map (· + 1)

/-- Reads words and the gaps between them. `text` is the scalar so far and `gap` the gap before the
next word, which counts only if a word follows. The last component says whether the scalar ended
behind a line break. -/
def plainWords? (inFlow : Bool) (indent : Int) : (fuel : Nat) → Cursor → (text : List Char) → Gap →
    Option (List Char × Cursor × Bool)
  | 0, _, _, _ => none
  | fuel + 1, c, text, gap =>
    if c.anyMarker || c.sees '#' then some (text, c, gap.broken)
    else do
      let n ← wordLength? inFlow c.rest
      let (text, broken) :=
        if n = 0 then (text, gap.broken) else (text ++ gap.text ++ c.rest.take n, false)
      let gap := if n = 0 then gap else .empty
      let c := c.skip n
      if c.blankAt 0 || c.breakAt 0 then
        let (gap, c) ← readGap? indent c.rest.length c gap
        if !inFlow && (c.column : Int) < indent then some (text, c, gap.broken)
        else plainWords? inFlow indent fuel c text gap
      else some (text, c, broken)

/-- A plain scalar inside a block of the given indentation. -/
def plainText? (inFlow : Bool) (indent : Int) (c : Cursor) : Option (List Char × Cursor × Bool) :=
  plainWords? inFlow (indent + 1) (c.rest.length + 1) c [] .empty

/-! ## Quoted scalars -/

/-- The value of a hexadecimal digit. -/
def hexValue? (c : Char) : Option Nat :=
  if '0' ≤ c && c ≤ '9' then some (c.toNat - '0'.toNat)
  else if 'a' ≤ c && c ≤ 'f' then some (c.toNat - 'a'.toNat + 10)
  else if 'A' ≤ c && c ≤ 'F' then some (c.toNat - 'A'.toNat + 10)
  else none

/-- The character of a code point, if it is one. -/
def charOf? (n : Nat) : Option Char := if n.isValidChar then some (Char.ofNat n) else none

/-- The character that an escape with one letter stands for. -/
def letterEscape? : Char → Option Char
  | '0' => some '\x00'
  | 'a' => some '\x07'
  | 'b' => some '\x08'
  | 't' | '\t' => some '\t'
  | 'n' => some '\n'
  | 'v' => some '\x0B'
  | 'f' => some '\x0C'
  | 'r' => some '\r'
  | 'e' => some '\x1B'
  | ' ' => some ' '
  | '"' => some '"'
  | '/' => some '/'
  | '\\' => some '\\'
  | 'N' => some (Char.ofNat 0x85)
  | '_' => some (Char.ofNat 0xA0)
  | 'L' => some (Char.ofNat 0x2028)
  | 'P' => some (Char.ofNat 0x2029)
  | _ => none

/-- The number of digits behind the letter of a numeric escape. -/
def escapeDigits? : Char → Option Nat
  | 'x' => some 2
  | 'u' => some 4
  | 'U' => some 8
  | _ => none

/-- The character of the escape whose backslash was read, and the number of characters that it
takes. -/
def escape? : List Char → Option (Char × Nat)
  | [] => none
  | x :: cs =>
    match letterEscape? x with
    | some c => some (c, 1)
    | none => do
      let digits ← escapeDigits? x
      let values ← (cs.take digits).mapM hexValue?
      if values.length = digits then
        let c ← charOf? (values.foldl (fun n d => 16 * n + d) 0)
        return (c, digits + 1)
      else none

/-- Reads the characters of a quoted scalar up to a gap or the closing quote. The result says
whether an escaped line break ended it. -/
def quotedWord? (double : Bool) : (fuel : Nat) → Cursor → (text : List Char) →
    Option (List Char × Cursor × Bool)
  | 0, _, _ => none
  | fuel + 1, c, text =>
    match c.rest with
    | [] => some (text, c, false)
    | x :: cs =>
      if isBlank x || isBreak x then some (text, c, false)
      else if !double && x = '\'' then
        if cs.head? = some '\'' then quotedWord? double fuel (c.skip 2) (text ++ ['\''])
        else some (text, c, false)
      else if double && x = '"' then some (text, c, false)
      else if double && x = '\\' then
        if c.breakAt 1 then some (text, (c.skip 1).skipLine, true)
        else do
          let (y, n) ← escape? cs
          quotedWord? double fuel (c.skip (n + 1)) (text ++ [y])
      else quotedWord? double fuel (c.skip 1) (text ++ [x])

/-- Reads the lines of a quoted scalar up to behind the closing quote. A marker of a document may
not open a line. -/
def quotedLines? (double : Bool) : (fuel : Nat) → Cursor → (text : List Char) →
    Option (List Char × Cursor)
  | 0, _, _ => none
  | fuel + 1, c, text =>
    if c.anyMarker || c.atEnd then none
    else do
      let (text, c, escaped) ← quotedWord? double (c.rest.length + 1) c text
      if c.sees (if double then '"' else '\'') then some (text, c.skip 1)
      else
        let (gap, c) ← readGap? 0 c.rest.length c { Gap.empty with broken := escaped }
        quotedLines? double fuel c (text ++ gap.text)

/-- A quoted scalar; the cursor stands on its opening quote. -/
def quotedText? (double : Bool) (c : Cursor) : Option (List Char × Cursor) :=
  quotedLines? double (c.rest.length + 1) (c.skip 1) []

/-! ## Block scalars -/

/-- What becomes of the line breaks at the end of a block. -/
inductive Chomping where
  | strip
  | clip
  | keep
  deriving DecidableEq, Repr

/-- The sign of a chomping. -/
def chomping? : Char → Option Chomping
  | '+' => some .keep
  | '-' => some .strip
  | _ => none

/-- The chomping and the indentation in the head of a block, in either order. An indentation of
zero is a mistake. -/
def blockHead? (c : Cursor) : Option (Chomping × Option Nat × Cursor) :=
  match c.rest with
  | [] => some (.clip, none, c)
  | x :: cs =>
    match chomping? x with
    | some chomping =>
      match cs.head?.filter Char.isDigit with
      | none => some (chomping, none, c.skip 1)
      | some d => if d = '0' then none else some (chomping, some (d.toNat - '0'.toNat), c.skip 2)
    | none =>
      if x.isDigit then
        if x = '0' then none
        else
          let increment := some (x.toNat - '0'.toNat)
          match cs.head?.bind chomping? with
          | some chomping => some (chomping, increment, c.skip 2)
          | none => some (.clip, increment, c.skip 1)
      else some (.clip, none, c)

/-- Empty lines before a line of a block: their breaks, the greatest column that was reached, and
the place behind them. Indentation is read up to `indent`, or as far as it goes if that is not known
yet; there it may hold no tab. -/
def blockBreaks? (indent : Option Nat) : (fuel : Nat) → Cursor → (breaks : List Char) →
    (widest : Nat) → Option (List Char × Nat × Cursor)
  | 0, _, _, _ => none
  | fuel + 1, c, breaks, widest =>
    let inside (column : Nat) : Bool := indent.all fun n => column < n
    let spaces := (c.rest.takeWhile (· = ' ')).length
    let c := c.skip (match indent with | none => spaces | some n => min spaces (n - c.column))
    let widest := max widest c.column
    if inside c.column && c.sees '\t' then none
    else if c.breakAt 0 then
      let (line, c) := c.readLine
      blockBreaks? indent fuel c (breaks ++ line) widest
    else some (breaks, widest, c)

/-- The lines of a block. `text` is the scalar so far, `lead` the break at the end of the last line,
`breaks` those of the empty lines behind it, and `spaced` says whether the last line opened with a
blank. A folded block joins two lines unless one of them opens with a blank. -/
def blockLines? (literal : Bool) (indent : Nat) : (fuel : Nat) → Cursor →
    (text lead breaks : List Char) → (spaced : Bool) →
    Option (List Char × List Char × List Char × Cursor)
  | 0, _, _, _, _, _ => none
  | fuel + 1, c, text, lead, breaks, spaced =>
    if c.column = indent && !c.atEnd then do
      let opensBlank := c.blankAt 0
      let joined :=
        if !literal && lead = ['\n'] && !spaced && !opensBlank then
          if breaks.isEmpty then [' '] else []
        else lead
      let (line, c) := c.span fun x => !isBreak x
      let (lead, c) := c.readLine
      let (next, _, c) ← blockBreaks? (some indent) (c.rest.length + 1) c [] 0
      blockLines? literal indent fuel c (text ++ joined ++ breaks ++ line) lead next opensBlank
    else some (text, lead, breaks, c)

/-- A block scalar inside a block of the given indentation; the cursor stands on its sign. -/
def blockText? (literal : Bool) (outer : Int) (c : Cursor) : Option (List Char × Cursor) := do
  let (chomping, increment, c) ← blockHead? (c.skip 1)
  let c ← c.toLineEnd?
  let known := increment.map fun n => if 0 ≤ outer then outer.toNat + n else n
  let (breaks, widest, c) ← blockBreaks? known (c.rest.length + 1) c [] 0
  let indent := known.getD (max (max widest (outer + 1).toNat) 1)
  let (text, lead, breaks, c) ← blockLines? literal indent (c.rest.length + 1) c [] [] breaks false
  let tail := match chomping with
    | .strip => []
    | .clip => lead
    | .keep => lead ++ breaks
  return (text ++ tail, c)

end HeuristicEvolution.Yaml

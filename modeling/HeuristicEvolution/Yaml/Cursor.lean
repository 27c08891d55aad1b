/-!
# Places in a document

A document is read character by character. Where a character stands decides what it means, so the
place goes along: its number, its line and its column. A document is read through a *cursor*, the
characters that are left together with the place of the first of them.

## Main definitions

* `isBreak`, `isBlank`: line breaks and blanks of the format.
* `Cursor`: characters with the place of the first one.
* `Cursor.skip`, `Cursor.skipLine`: going on by a character or over a line break.
-/

namespace HeuristicEvolution.Yaml

/-- Blanks inside a line. -/
def isBlank (c : Char) : Bool := c = ' ' || c = '\t'

/-- Characters that end a line; a carriage return and a line feed after it are one line break. -/
def isBreak (c : Char) : Bool :=
  c = '\n' || c = '\r' || c.toNat = 0x85 || c.toNat = 0x2028 || c.toNat = 0x2029

/-- Characters of names: of anchors, of directives and of the handles of tags. -/
def isNameChar (c : Char) : Bool := c.isAlphanum || c = '_' || c = '-'

/-- The text that a line break stands for in a scalar: the Unicode separators are kept, all others
become a line feed. -/
def breakText (c : Char) : Char := if c.toNat = 0x2028 || c.toNat = 0x2029 then c else '\n'

/-- The characters that are left, and the place of the first one. -/
structure Cursor where
  rest : List Char
  index : Nat
  line : Nat
  column : Nat
  deriving Inhabited

namespace Cursor

/-- The start of a text. -/
def start (cs : List Char) : Cursor := ⟨cs, 0, 0, 0⟩

/-- Nothing is left. -/
def atEnd (c : Cursor) : Bool := c.rest.isEmpty

/-- The character after `n` others. -/
def peek? (c : Cursor) (n : Nat) : Option Char := c.rest[n]?

/-- The next character is the given one. -/
def sees (c : Cursor) (x : Char) : Bool := c.rest.head? == some x

/-- After `n` characters there is a blank. -/
def blankAt (c : Cursor) (n : Nat) : Bool := (c.peek? n).any isBlank

/-- After `n` characters there is a line break. -/
def breakAt (c : Cursor) (n : Nat) : Bool := (c.peek? n).any isBreak

/-- After `n` characters there is a line break or the end. -/
def lineEndAt (c : Cursor) (n : Nat) : Bool :=
  match c.peek? n with
  | none => true
  | some x => isBreak x

/-- After `n` characters there is a blank, a line break or the end. -/
def gapAt (c : Cursor) (n : Nat) : Bool := c.blankAt n || c.lineEndAt n

/-- Goes on by `n` characters of the same line. -/
def skip (c : Cursor) (n : Nat) : Cursor :=
  { c with rest := c.rest.drop n, index := c.index + n, column := c.column + n }

/-- Goes on over the characters of the same line that satisfy `p`. -/
def skipWhile (c : Cursor) (p : Char → Bool) : Cursor := c.skip (c.rest.takeWhile p).length

/-- The characters that satisfy `p`, and the place behind them. -/
def span (c : Cursor) (p : Char → Bool) : List Char × Cursor :=
  (c.rest.takeWhile p, c.skipWhile p)

/-- Goes on over a line break, if one stands here. -/
def skipLine (c : Cursor) : Cursor :=
  match c.rest with
  | '\r' :: '\n' :: cs => ⟨cs, c.index + 2, c.line + 1, 0⟩
  | x :: cs => if isBreak x then ⟨cs, c.index + 1, c.line + 1, 0⟩ else c
  | [] => c

/-- The text of the line break that stands here, if one does, and the place behind it. -/
def readLine (c : Cursor) : List Char × Cursor :=
  match c.rest with
  | [] => ([], c)
  | x :: _ => if isBreak x then ([breakText x], c.skipLine) else ([], c)

/-- A marker of a document stands here: three of the given characters at the start of a line, with
a gap behind them. -/
def marker (c : Cursor) (x : Char) : Bool :=
  c.column == 0 && c.rest.take 3 == [x, x, x] && c.gapAt 3

/-- A marker of either kind stands here. -/
def anyMarker (c : Cursor) : Bool := c.marker '-' || c.marker '.'

/-- A comment up to the end of its line. -/
def skipComment (c : Cursor) : Cursor :=
  if c.sees '#' then c.skipWhile fun x => !isBreak x else c

/-- Blanks and a comment up to the end of the line, which has to come then. -/
def toLineEnd? (c : Cursor) : Option Cursor :=
  let c := (c.skipWhile isBlank).skipComment
  if c.lineEndAt 0 then some c.skipLine else none

end Cursor

end HeuristicEvolution.Yaml

import HeuristicEvolution.Yaml.Tag

/-!
# Tokens

A document as a sequence of tokens. In a block, indentation opens and closes collections, so tokens
for both are added where indentation grows and shrinks. A key of a mapping is known as one only
when the colon behind it is met: until then it is a *pending key*, and when the colon comes, the
tokens that open the mapping and the key are put in before it. A key stands on one line, and its
colon comes within 1024 characters.

## Main definitions

* `Token`: the tokens.
* `Token.scan?`: the tokens of a document.
-/

namespace HeuristicEvolution.Yaml

/-- The ways in which a scalar is written. -/
inductive ScalarStyle where
  | plain
  | singleQuoted
  | doubleQuoted
  | literal
  | folded
  deriving DecidableEq, Repr, Inhabited

/-- The tokens of a document. -/
inductive Token where
  | directive (d : Directive)
  | documentStart
  | documentEnd
  | blockSequenceStart
  | blockMappingStart
  | blockEnd
  | flowSequenceStart
  | flowSequenceEnd
  | flowMappingStart
  | flowMappingEnd
  | blockEntry
  | flowEntry
  | key
  | value
  | alias (name : String)
  | anchor (name : String)
  | tag (t : TagName)
  | scalar (style : ScalarStyle) (text : String)
  deriving DecidableEq, Repr, Inhabited

/-- A place at which a key may have begun: the number of its first token and where it stands. A key
is required where nothing else can open a line of a block. -/
structure PendingKey where
  required : Bool
  token : Nat
  index : Nat
  line : Nat
  column : Nat
  deriving Inhabited

/-- The state between two tokens. -/
structure Scanner where
  cursor : Cursor
  tokens : Array Token
  /-- The column of the innermost block, and those of the blocks around it; `-1` outside all. -/
  indent : Int
  outer : List Int
  /-- A key may begin here. -/
  keyAllowed : Bool
  /-- The pending key of the innermost brackets, or of the block outside them. -/
  pending : Option PendingKey
  /-- The pending keys around the brackets that are open, the nearest first. -/
  around : List (Option PendingKey)
  deriving Inhabited

namespace Scanner

/-- The state before the first token. -/
def start (cs : List Char) : Scanner := ⟨.start cs, #[], -1, [], true, none, []⟩

/-- Brackets are open. -/
def inFlow (s : Scanner) : Bool := !s.around.isEmpty

/-- One more token. -/
def push (s : Scanner) (t : Token) : Scanner := { s with tokens := s.tokens.push t }

/-- Goes on by `n` characters. -/
def skip (s : Scanner) (n : Nat) : Scanner := { s with cursor := s.cursor.skip n }

/-! ## Keys -/

/-- A pending key that is given up must not be required. -/
def dropKey? (s : Scanner) : Option Scanner :=
  match s.pending with
  | some k => if k.required then none else some { s with pending := none }
  | none => some s

/-- A key that may begin here becomes pending. -/
def saveKey? (s : Scanner) : Option Scanner :=
  if s.keyAllowed then do
    let s ← s.dropKey?
    let c := s.cursor
    let key : PendingKey :=
      { required := !s.inFlow && s.indent == (c.column : Int), token := s.tokens.size,
        index := c.index, line := c.line, column := c.column }
    return { s with pending := some key }
  else some s

/-- A pending key is too old on another line or more than 1024 characters further on. -/
def PendingKey.stale (k : PendingKey) (c : Cursor) : Bool :=
  k.line < c.line || k.index + 1024 < c.index

/-- What is left of a pending key; a required one may not grow too old. -/
def refresh? (c : Cursor) : Option PendingKey → Option (Option PendingKey)
  | none => some none
  | some k => if PendingKey.stale k c then if k.required then none else some none else some (some k)

/-- Gives up all pending keys that are too old. -/
def dropStale? (s : Scanner) : Option Scanner := do
  let pending ← refresh? s.cursor s.pending
  let around ← s.around.mapM (refresh? s.cursor)
  return { s with pending, around }

/-! ## Indentation -/

/-- A block opens here if the column is further in than the innermost one; its token is put in
before the token of the given number. -/
def openBlock (s : Scanner) (column : Nat) (position : Nat) (t : Token) : Scanner :=
  if !s.inFlow && s.indent < column then
    { s with indent := column, outer := s.indent :: s.outer,
             tokens := s.tokens.insertIdxIfInBounds position t }
  else s

/-- Closes blocks that are further in than the given column. -/
def closeBlocks (s : Scanner) (column : Int) : Scanner :=
  if s.inFlow then s
  else
    let closed := (s.indent :: s.outer).takeWhile fun n => column < n
    let left := (s.indent :: s.outer).drop closed.length
    { s with indent := left.headD (-1), outer := left.tail,
             tokens := closed.foldl (fun ts _ => ts.push .blockEnd) s.tokens }

/-! ## Gaps between tokens -/

/-- Goes on over blanks, comments and line breaks. In a block a tab may stand behind a token but not
where a key may begin. A line break in a block allows a key. -/
def skipGap : (fuel : Nat) → Scanner → Scanner
  | 0, s => s
  | fuel + 1, s =>
    let c := if s.cursor.column = 0 && s.cursor.rest.head? = some (Char.ofNat 0xFEFF)
      then s.cursor.skip 1 else s.cursor
    let tabs := s.inFlow || !s.keyAllowed
    let c := (c.skipWhile fun x => x = ' ' || (tabs && x = '\t')).skipComment
    if c.breakAt 0 then
      skipGap fuel { s with cursor := c.skipLine, keyAllowed := s.keyAllowed || !s.inFlow }
    else { s with cursor := c }

/-! ## Single tokens -/

/-- Leaves all blocks, and no key may be pending. -/
def leaveBlocks? (s : Scanner) : Option Scanner := do
  let s ← (s.closeBlocks (-1)).dropKey?
  return { s with keyAllowed := false }

/-- A bracket that opens a collection. A key may begin with it and behind it. -/
def openFlow? (s : Scanner) (t : Token) : Option Scanner := do
  let s ← s.saveKey?
  return { (s.push t).skip 1 with around := s.pending :: s.around, pending := none,
                                  keyAllowed := true }

/-- A bracket that closes a collection. -/
def closeFlow? (s : Scanner) (t : Token) : Option Scanner := do
  let s ← s.dropKey?
  let s := match s.around with
    | [] => { s with pending := none }
    | k :: around => { s with pending := k, around }
  return { (s.push t).skip 1 with keyAllowed := false }

/-- A comma between elements. -/
def flowEntry? (s : Scanner) : Option Scanner := do
  let s ← s.dropKey?
  return { (s.push .flowEntry).skip 1 with keyAllowed := true }

/-- A dash before an element. -/
def blockEntry? (s : Scanner) : Option Scanner := do
  if !s.inFlow && !s.keyAllowed then none
  else
    let s ← (s.openBlock s.cursor.column s.tokens.size .blockSequenceStart).dropKey?
    return { (s.push .blockEntry).skip 1 with keyAllowed := true }

/-- A question mark before a key. -/
def key? (s : Scanner) : Option Scanner := do
  if !s.inFlow && !s.keyAllowed then none
  else
    let s ← (s.openBlock s.cursor.column s.tokens.size .blockMappingStart).dropKey?
    return { (s.push .key).skip 1 with keyAllowed := !s.inFlow }

/-- A colon before a value. What was pending is its key. -/
def value? (s : Scanner) : Option Scanner :=
  match s.pending with
  | some k =>
    let s := { s with tokens := s.tokens.insertIdxIfInBounds k.token .key, pending := none }
    let s := s.openBlock k.column k.token .blockMappingStart
    some { (s.push .value).skip 1 with keyAllowed := false }
  | none =>
    if !s.inFlow && !s.keyAllowed then none
    else
      let s := s.openBlock s.cursor.column s.tokens.size .blockMappingStart
      some { (s.push .value).skip 1 with keyAllowed := !s.inFlow }

/-- The name of an alias or an anchor. Behind it comes a gap or one of a few indicators. -/
def name? (c : Cursor) : Option (String × Cursor) :=
  let (name, c) := (c.skip 1).span isNameChar
  let ended := c.gapAt 0 || c.rest.head?.any fun x => "?:,]\x7d%@\x60".toList.contains x
  if name.isEmpty || !ended then none else some (String.ofList name, c)

/-- An alias or an anchor. -/
def named? (s : Scanner) (t : String → Token) : Option Scanner := do
  let s ← s.saveKey?
  let (name, cursor) ← name? s.cursor
  return { s.push (t name) with cursor, keyAllowed := false }

/-- A tag. -/
def tag? (s : Scanner) : Option Scanner := do
  let s ← s.saveKey?
  let (t, cursor) ← Yaml.tag? s.inFlow s.cursor
  return { s.push (.tag t) with cursor, keyAllowed := false }

/-- A block scalar. -/
def block? (s : Scanner) (style : ScalarStyle) : Option Scanner := do
  let s ← s.dropKey?
  let (text, cursor) ← blockText? (style == .literal) s.indent s.cursor
  return { s.push (.scalar style (String.ofList text)) with cursor, keyAllowed := true }

/-- A quoted scalar. -/
def quoted? (s : Scanner) (style : ScalarStyle) : Option Scanner := do
  let s ← s.saveKey?
  let (text, cursor) ← quotedText? (style == .doubleQuoted) s.cursor
  return { s.push (.scalar style (String.ofList text)) with cursor, keyAllowed := false }

/-- A plain scalar. One that ended behind a line break leaves room for a key. -/
def plain? (s : Scanner) : Option Scanner := do
  let s ← s.saveKey?
  let (text, cursor, broken) ← plainText? s.inFlow s.indent s.cursor
  return { s.push (.scalar .plain (String.ofList text)) with cursor, keyAllowed := broken }

/-- A plain scalar may begin with the character that stands here: any but an indicator, or a dash
before something, or in a block a question mark or a colon before something. -/
def plainStarts (s : Scanner) (x : Char) : Bool :=
  let c := s.cursor
  !(isBlank x || isBreak x || "-?:,[]\x7b\x7d#&*!|>'\"%@\x60".toList.contains x)
    || (x = '-' && !c.blankAt 1)
    || (!s.inFlow && (x = '?' || x = ':') && !c.gapAt 1)

/-- The next token, which opens with the given character; the cursor stands on it. -/
def token? (s : Scanner) (x : Char) : Option Scanner :=
  let c := s.cursor
  if c.column = 0 && x = '%' then do
    let s ← s.leaveBlocks?
    let (d, cursor) ← directive? c
    return { s.push (.directive d) with cursor }
  else if c.marker '-' then do return ((← s.leaveBlocks?).push .documentStart).skip 3
  else if c.marker '.' then do return ((← s.leaveBlocks?).push .documentEnd).skip 3
  else if x = '[' then s.openFlow? .flowSequenceStart
  else if x = '\x7b' then s.openFlow? .flowMappingStart
  else if x = ']' then s.closeFlow? .flowSequenceEnd
  else if x = '\x7d' then s.closeFlow? .flowMappingEnd
  else if x = ',' then s.flowEntry?
  else if x = '-' && c.gapAt 1 then s.blockEntry?
  else if x = '?' && (s.inFlow || c.gapAt 1) then s.key?
  else if x = ':' && (s.inFlow || c.gapAt 1) then s.value?
  else if x = '*' then s.named? .alias
  else if x = '&' then s.named? .anchor
  else if x = '!' then s.tag?
  else if x = '|' && !s.inFlow then s.block? .literal
  else if x = '>' && !s.inFlow then s.block? .folded
  else if x = '\'' then s.quoted? .singleQuoted
  else if x = '"' then s.quoted? .doubleQuoted
  else if s.plainStarts x then s.plain?
  else none

/-- All tokens to the end. Each step takes at least one character. -/
def scanAll? : (fuel : Nat) → Scanner → Option (Array Token)
  | 0, _ => none
  | fuel + 1, s => do
    let s ← (s.skipGap (s.cursor.rest.length + 1)).dropStale?
    let s := s.closeBlocks s.cursor.column
    match s.cursor.rest with
    | [] => return (← s.leaveBlocks?).tokens
    | x :: _ => scanAll? fuel (← s.token? x)

end Scanner

/-- The characters of a document: none of the control characters other than tabs and line breaks. -/
def isDocumentChar (c : Char) : Bool :=
  let n := c.toNat
  n = 0x09 || n = 0x0A || n = 0x0D || (0x20 ≤ n && n ≤ 0x7E) || n = 0x85
    || (0xA0 ≤ n && n ≤ 0xFFFD) || 0x10000 ≤ n

/-- The tokens of a document, if it has no mistake that shows in them. -/
def Token.scan? (text : String) : Option (List Token) :=
  let cs := text.toList
  if cs.all isDocumentChar then (Scanner.scanAll? (cs.length + 1) (.start cs)).map Array.toList
  else none

end HeuristicEvolution.Yaml

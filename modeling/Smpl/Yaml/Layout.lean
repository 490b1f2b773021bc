import Smpl.Yaml.Lexeme

/-!
# Layout

From the text of a document to its tokens. Two things are not written in the text and have to be
found:
* **Indentation.** `indent` is the column of the innermost block collection. A key or an item
  further to the right starts a new collection; a token further to the left ends those it has left.
* **Keys.** A key shows only by the colon behind it. Where a key may start, its place is remembered;
  when the colon comes on the same line and within 1024 characters, the token of the key is put in
  at that place. Where the indentation calls for a key (`required`) and no colon comes, the text is
  malformed.

Inside brackets indentation has no meaning, and each pair of brackets has keys of its own.
-/

namespace Smpl.Yaml

/-- A place where a key may have started. -/
structure KeyStart where
  /-- The number of tokens before the key. -/
  place : Nat
  index : Nat
  line : Nat
  column : Nat
  /-- Whether the text is malformed if this is no key. -/
  required : Bool

/-- The state of the layout: what is read so far, and what it may still become. -/
structure Layout where
  cursor : Cursor
  tokens : Array Token := #[]
  /-- The column of the innermost block collection; `-1` outside of all. -/
  indent : Int := -1
  /-- The columns of the collections around it, innermost first. -/
  outer : List Int := []
  /-- The key start of the innermost pair of brackets or of the block. -/
  keyStart : Option KeyStart := none
  /-- The key starts around it, innermost first: one for each open bracket. -/
  outerKeys : List (Option KeyStart) := []
  /-- Whether a key may start here. -/
  keyAllowed : Bool := true

namespace Layout

/-- The deepest nesting of brackets or of block collections. -/
def maxNesting : Nat := 10000

/-- Whether the position is inside brackets. -/
def inFlow (l : Layout) : Bool := !l.outerKeys.isEmpty

/-- Adds a token that starts on the current line. -/
def push (l : Layout) (kind : TokenKind) : Layout :=
  { l with tokens := l.tokens.push ⟨kind, l.cursor.line + 1⟩ }

/-- Adds a token and moves the cursor. -/
def emit (l : Layout) (kind : TokenKind) (cursor : Cursor) : Layout :=
  { l.push kind with cursor := cursor }

/-- Whether a key that started there may still end here. -/
def reachable (l : Layout) (key : KeyStart) : Bool :=
  key.line = l.cursor.line && l.cursor.index ≤ key.index + 1024

/-- Gives up the key start; a required one makes the text malformed. -/
def dropKey (l : Layout) : Option Layout :=
  match l.keyStart with
  | some key => if key.required then none else some { l with keyStart := none }
  | none => some l

/-- Remembers that a key may start here. -/
def saveKey (l : Layout) : Option Layout :=
  if l.keyAllowed then do
    let l' ← l.dropKey
    let c := l.cursor
    pure { l' with
      keyStart := some
        { place := l.tokens.size, index := c.index, line := c.line, column := c.column,
          required := !l.inFlow && l.indent = c.column } }
  else some l

/-- Ends the collections to the right of a column. -/
def unrollTo (column : Int) : List Int → Layout → Layout
  | [], l => l
  | around :: rest, l =>
    if column < l.indent then
      unrollTo column rest { l.push .blockEnd with indent := around, outer := rest }
    else l

/-- Ends the collections to the right of a column, outside of brackets. -/
def unroll (l : Layout) (column : Int) : Layout :=
  if l.inFlow then l else unrollTo column l.outer l

/-- Starts a collection at a column, outside of brackets and to the right of the innermost one. Its
token goes to a given place. -/
def roll (l : Layout) (column place line : Nat) (kind : TokenKind) : Option Layout :=
  if l.inFlow || column ≤ l.indent then some l
  else if maxNesting < l.outer.length + 1 then none
  else some { l with
    indent := column
    outer := l.indent :: l.outer
    tokens := l.tokens.insertIdxIfInBounds place ⟨kind, line⟩ }

/-- Starts a collection here. -/
def rollHere (l : Layout) (kind : TokenKind) : Option Layout :=
  l.roll l.cursor.column l.tokens.size (l.cursor.line + 1) kind

/-! ## Between tokens -/

/-- The cursor behind the comment lines that follow a comment directly. -/
def skipComments : Nat → Cursor → Cursor
  | 0, c => c
  | fuel + 1, c =>
    let ahead := c.skipWhile isGap
    if ahead.isAt '#' then skipComments fuel ahead.toLineEnd else c

/-- Skips blanks, breaks and comments before a token. A tab is a blank only where no key may start.
After a break outside of brackets a key may start. -/
def skipGap : Nat → Layout → Layout
  | 0, l => l
  | fuel + 1, l =>
    let c := l.cursor
    let c := if c.column = 0 && c.isAt byteOrderMark then c.advance else c
    let tabs := l.inFlow || !l.keyAllowed
    let c := c.skipWhile fun x => x = ' ' || (tabs && x = '\t')
    let c := if c.isAt '#' then skipComments c.rest.length c.toLineEnd else c
    if c.peek.any isBreak then
      skipGap fuel { l with cursor := c.advance, keyAllowed := l.keyAllowed || !l.inFlow }
    else { l with cursor := c }

/-- Skips the comment that follows a token on its line. -/
def skipLineComment (l : Layout) : Layout :=
  if l.cursor.fresh then l
  else
    let c := l.cursor.skipWhile isBlank
    if c.isAt '#' then { l with cursor := c.toLineEnd } else l

/-! ## Tokens -/

/-- Leaves all block collections, for a directive or a document mark. -/
def leaveBlocks (l : Layout) : Option Layout := do
  let l ← (l.unroll (-1)).dropKey
  pure { l with keyAllowed := false }

/-- Reads an opening bracket. -/
def openBracket (l : Layout) (kind : TokenKind) : Option Layout := do
  let l ← l.saveKey
  if maxNesting < l.outerKeys.length + 1 then none
  else
    pure
      { l.emit kind l.cursor.advance with
        keyStart := none, outerKeys := l.keyStart :: l.outerKeys, keyAllowed := true }

/-- Reads a closing bracket. -/
def closeBracket (l : Layout) (kind : TokenKind) : Option Layout := do
  let l ← l.dropKey
  let (keyStart, outerKeys) := match l.outerKeys with
    | [] => (l.keyStart, [])
    | key :: rest => (key, rest)
  pure { l.emit kind l.cursor.advance with keyStart, outerKeys, keyAllowed := false }

/-- Reads a comma. -/
def comma (l : Layout) : Option Layout := do
  let l ← l.dropKey
  pure { l.emit .flowEntry l.cursor.advance with keyAllowed := true }

/-- Reads the hyphen of an item. -/
def hyphen (l : Layout) : Option Layout := do
  let l ←
    if l.inFlow then some l
    else if l.keyAllowed then l.rollHere .blockSequenceStart
    else none
  let l ← l.dropKey
  pure { l.emit .blockEntry l.cursor.advance with keyAllowed := true }

/-- Reads the question mark of a key. -/
def question (l : Layout) : Option Layout := do
  let l ←
    if l.inFlow then some l
    else if l.keyAllowed then l.rollHere .blockMappingStart
    else none
  let l ← l.dropKey
  pure { l.emit .key l.cursor.advance with keyAllowed := !l.inFlow }

/-- Reads a colon that has no key start. -/
def bareColon (l : Layout) : Option Layout := do
  let l ←
    if l.inFlow then some l
    else if l.keyAllowed then l.rollHere .blockMappingStart
    else none
  pure { l.emit .value l.cursor.advance with keyAllowed := !l.inFlow }

/-- Reads the colon of a value. If a key start is within reach, the tokens of the key are put in at
its place. -/
def colon (l : Layout) : Option Layout := do
  match l.keyStart with
  | some key =>
    if l.reachable key then
      let l := { l with tokens := l.tokens.insertIdxIfInBounds key.place ⟨.key, key.line + 1⟩ }
      let l ← l.roll key.column key.place (key.line + 1) .blockMappingStart
      pure { l.emit .value l.cursor.advance with keyStart := none, keyAllowed := false }
    else if key.required then none
    else bareColon { l with keyStart := none }
  | none => l.bareColon

/-- Reads a piece that may be a key. -/
def keyPiece (l : Layout) (read : Cursor → Option (TokenKind × Cursor)) : Option Layout := do
  let l ← l.saveKey
  let (kind, c) ← read l.cursor
  pure { l.emit kind c with keyAllowed := false }

/-- Reads a block scalar. -/
def blockScalar (l : Layout) (folded : Bool) : Option Layout := do
  let l ← l.dropKey
  let (text, c) ← readBlock folded l.indent l.cursor
  pure { l.emit (.scalar (String.ofList text) false) c with keyAllowed := true }

/-- Reads a plain scalar. -/
def plainScalar (l : Layout) : Option Layout := do
  let l ← l.saveKey
  let read ← readPlain l.inFlow (l.indent + 1).toNat l.cursor
  pure { l.emit (.scalar (String.ofList read.text) true) read.cursor with
    keyAllowed := read.endsOnNewLine }

/-- A character that starts no plain scalar, whatever follows it. -/
def isIndicator (c : Char) : Bool :=
  c ∈ [',', '[', ']', '\x7b', '\x7d', '#', '&', '*', '!', '|', '>', '\'', '"', '%', '@', '\x60']

/-- Whether a plain scalar may start with a character, given the next one. -/
def startsPlain (l : Layout) (c : Char) (next : Option Char) : Bool :=
  if c = '-' then !next.any isBlank
  else if c = '?' || c = ':' then !l.inFlow && !endsWord next
  else !isGap c && !isIndicator c

/-- Reads the token at hand, which starts with `c`. -/
def readToken (l : Layout) (c : Char) : Option Layout :=
  let next := l.cursor.peekAt 1
  let alone := l.inFlow || endsWord next
  match c with
  | '[' => l.openBracket .flowSequenceStart
  | '\x7b' => l.openBracket .flowMappingStart
  | ']' => l.closeBracket .flowSequenceEnd
  | '\x7d' => l.closeBracket .flowMappingEnd
  | ',' => l.comma
  | '*' => l.keyPiece fun c => do
    let (name, c) ← readAnchorName c
    pure (.alias name, c)
  | '&' => l.keyPiece fun c => do
    let (name, c) ← readAnchorName c
    pure (.anchor name, c)
  | '!' => l.keyPiece fun c => do
    let (handle, suffix, c) ← readTag c
    pure (.tag handle suffix, c)
  | '"' => l.keyPiece fun c => do
    let (text, c) ← readQuoted true c
    pure (.scalar (String.ofList text) false, c)
  | '\'' => l.keyPiece fun c => do
    let (text, c) ← readQuoted false c
    pure (.scalar (String.ofList text) false, c)
  | _ =>
    if c = '-' && endsWord next then l.hyphen
    else if c = '?' && alone then l.question
    else if c = ':' && alone then l.colon
    else if c = '|' && !l.inFlow then l.blockScalar false
    else if c = '>' && !l.inFlow then l.blockScalar true
    else if l.startsPlain c next then l.plainScalar
    else none

/-- Skips the comment behind a token; the hyphen of an item keeps its line for what follows. -/
def afterToken (l : Layout) : Layout :=
  if (l.tokens.back?.map Token.kind) = some .blockEntry then l else l.skipLineComment

/-- What comes of reading one more token. -/
inductive Outcome where
  /-- There is more. -/
  | more (layout : Layout)
  /-- The text has ended. -/
  | finished (tokens : Array Token)
  /-- The text is malformed. -/
  | malformed

/-- Goes on, unless the text is malformed. -/
def Outcome.ofOption : Option Layout → Outcome
  | some l => .more l
  | none => .malformed

/-- Reads one more token. -/
def step (l : Layout) : Outcome :=
  let l := skipGap (l.cursor.rest.length + 1) l
  let l := l.unroll l.cursor.column
  match l.cursor.peek with
  | none =>
    match l.leaveBlocks with
    | some l => .finished (l.push .streamEnd).tokens
    | none => .malformed
  | some c =>
    if l.cursor.column = 0 && c = '%' then .ofOption do
      let l ← l.leaveBlocks
      let (kind, cursor) ← readDirective l.cursor
      pure (l.emit kind cursor)
    else if l.cursor.atTriple '-' then .ofOption do
      let l ← l.leaveBlocks
      pure (l.emit .documentStart (l.cursor.skip 3))
    else if l.cursor.atTriple '.' then .ofOption do
      let l ← l.leaveBlocks
      pure (l.emit .documentEnd (l.cursor.skip 3))
    else .ofOption ((l.readToken c).map afterToken)

/-- Reads tokens to the end of the text, or up to where it is malformed. -/
def run : Nat → Layout → Array Token × Bool
  | 0, l => (l.tokens, false)
  | fuel + 1, l =>
    match l.step with
    | .more l' => run fuel l'
    | .finished tokens => (tokens, true)
    | .malformed => (l.tokens, false)

end Layout

/-- The tokens of a text, up to where it is malformed. -/
structure Tokens where
  tokens : Array Token
  /-- Whether the text is well formed to its end. -/
  complete : Bool

/-- The tokens of a text. -/
def Tokens.ofText (text : String) : Tokens :=
  match Cursor.ofText? text with
  | none => ⟨#[], false⟩
  | some cursor =>
    let (tokens, complete) := Layout.run (cursor.rest.length + 1) { cursor := cursor }
    ⟨tokens, complete⟩

end Smpl.Yaml

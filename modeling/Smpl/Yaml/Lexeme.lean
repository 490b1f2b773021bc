import Smpl.Yaml.Source
import Smpl.Yaml.Token

/-!
# Scalars, names and tags

Reading one of the pieces of a document that are made of characters. Every function starts at a
cursor and gives what it read and the cursor behind it, or nothing when the text is malformed.

Inside a scalar of several lines the run of blanks and breaks between two words is folded
(`foldGap`): blanks within a line stay; a single line feed is a space; of several line breaks all
but the first stay.
-/

namespace Smpl.Yaml

/-- A run of blanks and breaks as it stands in a folded scalar. -/
def foldGap (gap : List Char) : List Char :=
  match gap.filter isBreak with
  | [] => gap
  | ['\n'] => [' ']
  | '\n' :: more => more
  | more => more

/-- Whether a run of blanks and breaks has a tab before a column on a line of its own. -/
def tabBefore (indent : Nat) : Bool → Nat → List Char → Bool
  | _, _, [] => false
  | onNewLine, column, c :: rest =>
    if isBreak c then tabBefore indent true 0 rest
    else (onNewLine && column < indent && c = '\t') || tabBefore indent onNewLine (column + 1) rest

/-! ## Plain scalars -/

/-- A character that ends a plain scalar inside brackets. -/
def endsFlowWord (c : Char) : Bool :=
  c = ',' || c = '?' || c = '[' || c = ']' || c = '\x7b' || c = '\x7d'

/-- The length of the word of a plain scalar at hand. -/
def plainWordLength (inFlow : Bool) : List Char → Nat
  | [] => 0
  | c :: rest =>
    if isGap c || (c = ':' && endsWord rest.head?) || (inFlow && endsFlowWord c) then 0
    else plainWordLength inFlow rest + 1

/-- A plain scalar: its text, the cursor behind it, and whether a line break follows it. Its lines
after the first are indented by at least `indent`. -/
structure PlainRead where
  text : List Char
  cursor : Cursor
  endsOnNewLine : Bool

/-- Reads the words of a plain scalar after some text and a run of blanks. -/
def readPlainWords (inFlow : Bool) (indent : Nat) :
    Nat → List Char → List Char → Cursor → Option PlainRead
  | 0, _, _, _ => none
  | fuel + 1, text, gap, c =>
    let stop : PlainRead := ⟨text, c, gap.any isBreak⟩
    if c.atDocumentMark || c.isAt '#' then some stop
    else
      let length := plainWordLength inFlow c.rest
      let text' := if length = 0 then text else text ++ foldGap gap ++ c.rest.take length
      let c' := c.skip length
      let (gap', c'') := c'.span isGap
      if gap'.isEmpty then some ⟨text', c', length = 0 && gap.any isBreak⟩
      else if tabBefore indent false c'.column gap' then none
      else if !inFlow && c''.column < indent then some ⟨text', c'', gap'.any isBreak⟩
      else readPlainWords inFlow indent fuel text' gap' c''

/-- Reads a plain scalar. -/
def readPlain (inFlow : Bool) (indent : Nat) (c : Cursor) : Option PlainRead :=
  readPlainWords inFlow indent (c.rest.length + 1) [] [] c

/-! ## Quoted scalars -/

/-- The character that an escape of one letter stands for. -/
def shortEscape? : Char → Option Char
  | '0' => some '\x00'
  | 'a' => some '\x07'
  | 'b' => some '\x08'
  | 't' => some '\t'
  | '\t' => some '\t'
  | 'n' => some '\n'
  | 'v' => some '\x0b'
  | 'f' => some '\x0c'
  | 'r' => some '\r'
  | 'e' => some '\x1b'
  | ' ' => some ' '
  | '"' => some '"'
  | '\'' => some '\''
  | '\\' => some '\\'
  | 'N' => some '\u0085'
  | '_' => some '\u00a0'
  | 'L' => some '\u2028'
  | 'P' => some '\u2029'
  | _ => none

/-- The number of hexadecimal digits that an escape letter asks for. -/
def escapeLength? : Char → Option Nat
  | 'x' => some 2
  | 'u' => some 4
  | 'U' => some 8
  | _ => none

/-- The value of a hexadecimal digit. -/
def hexValue? (c : Char) : Option Nat :=
  if '0' ≤ c && c ≤ '9' then some (c.toNat - 48)
  else if 'a' ≤ c && c ≤ 'f' then some (c.toNat - 87)
  else if 'A' ≤ c && c ≤ 'F' then some (c.toNat - 55)
  else none

/-- The number that hexadecimal digits write. -/
def hexNumber? (digits : List Char) : Option Nat :=
  digits.foldl (fun n c => do pure ((← n) * 16 + (← hexValue? c))) (some 0)

/-- The character of a number, unless it is none. -/
def charOfNumber? (n : Nat) : Option Char := if n.isValidChar then some (Char.ofNat n) else none

/-- What a piece of a quoted scalar ends with. -/
inductive PieceEnd where
  /-- The closing quote, a blank, a break or the end of the text. -/
  | plain
  /-- An escaped line break. -/
  | escapedBreak
  deriving DecidableEq

/-- Reads a piece of a quoted scalar without blanks. -/
def readPiece (double : Bool) :
    Nat → List Char → Cursor → Option (List Char × PieceEnd × Cursor)
  | 0, _, _ => none
  | fuel + 1, text, c =>
    match c.peek with
    | none => some (text, .plain, c)
    | some x =>
      if isGap x then some (text, .plain, c)
      else if double then
        if x = '"' then some (text, .plain, c)
        else if x = '\\' then
          match c.peekAt 1 with
          | none => none
          | some y =>
            if isBreak y then some (text, .escapedBreak, c.skip 2)
            else
              match shortEscape? y, escapeLength? y with
              | some z, _ => readPiece double fuel (text ++ [z]) (c.skip 2)
              | none, some length => do
                let digits := (c.rest.drop 2).take length
                if digits.length < length then none
                else
                  let z ← charOfNumber? (← hexNumber? digits)
                  readPiece double fuel (text ++ [z]) (c.skip (length + 2))
              | none, none => none
        else readPiece double fuel (text ++ [x]) c.advance
      else if x = '\'' then
        if c.peekAt 1 = some '\'' then readPiece double fuel (text ++ ['\'']) (c.skip 2)
        else some (text, .plain, c)
      else readPiece double fuel (text ++ [x]) c.advance

/-- Reads the pieces of a quoted scalar up to its closing quote. -/
def readPieces (double : Bool) : Nat → List Char → Cursor → Option (List Char × Cursor)
  | 0, _, _ => none
  | fuel + 1, text, c =>
    if c.atDocumentMark || c.rest.isEmpty then none
    else do
      let (text', ending, c') ← readPiece double (c.rest.length + 1) text c
      if c'.isAt (if double then '"' else '\'') then pure (text', c'.advance)
      else
        let (gap, c'') := c'.span isGap
        let folded := match ending with
          | .plain => foldGap gap
          | .escapedBreak => gap.filter isBreak
        readPieces double fuel (text' ++ folded) c''

/-- Reads a quoted scalar from its opening quote on. -/
def readQuoted (double : Bool) (c : Cursor) : Option (List Char × Cursor) :=
  readPieces double (c.rest.length + 1) [] c.advance

/-! ## Block scalars -/

/-- What becomes of the line breaks at the end of a block scalar. -/
inductive Chomping where
  /-- All are dropped. -/
  | strip
  /-- One stays. -/
  | clip
  /-- All stay. -/
  | keep
  deriving DecidableEq

/-- The chomping that a mark asks for. -/
def chompingOf? : Char → Option Chomping
  | '+' => some .keep
  | '-' => some .strip
  | _ => none

/-- Reads the marks behind the indicator of a block scalar: the chomping and the indentation, in
either order. An indentation of zero is malformed. -/
def readBlockMarks (c : Cursor) : Option (Chomping × Nat × Cursor) :=
  let digitOf (x : Char) : Option Nat := if '1' ≤ x && x ≤ '9' then some (x.toNat - 48) else none
  match c.peek with
  | none => some (.clip, 0, c)
  | some x =>
    match chompingOf? x with
    | some chomping =>
      match c.peekAt 1 with
      | none => some (chomping, 0, c.skip 1)
      | some y =>
        if y = '0' then none
        else
          match digitOf y with
          | some n => some (chomping, n, c.skip 2)
          | none => some (chomping, 0, c.skip 1)
    | none =>
      if x = '0' then none
      else
        match digitOf x with
        | none => some (.clip, 0, c)
        | some n =>
          match (c.peekAt 1).bind chompingOf? with
          | some chomping => some (chomping, n, c.skip 2)
          | none => some (.clip, n, c.skip 1)

/-- Reads the indentation and the empty lines before a line of a block scalar. While the indentation
is unknown (`0`) all spaces are read. Gives the line breaks and the deepest column. -/
def readBlockGap (indent : Nat) : Nat → List Char → Nat → Cursor → Option (List Char × Nat × Cursor)
  | 0, _, _, _ => none
  | fuel + 1, breaks, deepest, c =>
    let spaces := c.rest.takeWhile (· = ' ')
    let count := if indent = 0 then spaces.length else min spaces.length (indent - c.column)
    let c' := c.skip count
    let deepest' := max deepest c'.column
    match c'.peek with
    | none => some (breaks, deepest', c')
    | some x =>
      if x = '\t' && (indent = 0 || c'.column < indent) then none
      else if isBreak x then readBlockGap indent fuel (breaks ++ [x]) deepest' c'.advance
      else some (breaks, deepest', c')

/-- Reads the lines of a block scalar. `ending` is the break at the end of the line before, and
`breaks` the empty lines after it; `indented` says whether that line began with a blank. -/
def readBlockLines (folded : Bool) (indent : Nat) :
    Nat → List Char → List Char → List Char → Bool → Cursor →
      Option (List Char × List Char × List Char × Cursor)
  | 0, _, _, _, _, _ => none
  | fuel + 1, text, ending, breaks, indented, c =>
    if c.column ≠ indent || c.rest.isEmpty then some (text, ending, breaks, c)
    else do
      let blank := c.peek.any isBlank
      let joined :=
        if folded && !indented && !blank && ending = ['\n'] then
          if breaks.isEmpty then [' '] else []
        else ending
      let (line, c') := c.span fun x => !isBreak x
      let ending' := c'.rest.take 1
      let c'' := c'.advance
      let (breaks', _, c''') ← readBlockGap indent (c''.rest.length + 1) [] 0 c''
      readBlockLines folded indent fuel (text ++ joined ++ breaks ++ line) ending' breaks' blank
        c'''

/-- Reads a block scalar from its indicator on; `parent` is the indentation around it. -/
def readBlock (folded : Bool) (parent : Int) (c : Cursor) : Option (List Char × Cursor) := do
  let (chomping, increment, c) ← readBlockMarks c.advance
  let c := c.skipWhile isBlank
  let c := if c.isAt '#' then c.toLineEnd else c
  if !endsLine c.peek then none
  else
    let c := c.advance
    let least := (parent + 1).toNat
    let declared := if increment = 0 then 0 else parent.toNat + increment
    let (breaks, deepest, c) ← readBlockGap declared (c.rest.length + 1) [] 0 c
    let indent := if declared = 0 then max deepest (max least 1) else declared
    let (text, ending, trailing, c) ←
      readBlockLines folded indent (c.rest.length + 1) [] [] breaks false c
    let kept := match chomping with
      | .strip => []
      | .clip => ending
      | .keep => ending ++ trailing
    pure (text ++ kept, c)

/-! ## Anchors, tags and directives -/

/-- Reads the name of an anchor or an alias behind its indicator. -/
def readAnchorName (c : Cursor) : Option (String × Cursor) :=
  let (name, c') := c.advance.span isWordChar
  let closed := match c'.peek with
    | none => true
    | some x => isGap x || x ∈ ['?', ':', ',', ']', '\x7d', '%', '@', '\x60']
  if name.isEmpty || !closed then none else some (String.ofList name, c')

/-- The characters of a tag. -/
def isTagChar (c : Char) : Bool :=
  isWordChar c ||
    c ∈ [';', '/', '?', ':', '@', '&', '=', '+', '$', ',', '.', '!', '~', '*', '\'', '(', ')', '[',
      ']', '%']

/-- The bytes that escapes with a percent sign stand for, at the start of a text. -/
def readPercentBytes : List Char → List UInt8
  | '%' :: x :: y :: rest =>
    match hexValue? x, hexValue? y with
    | some h, some l => UInt8.ofNat (h * 16 + l) :: readPercentBytes rest
    | _, _ => []
  | _ => []

/-- The name that the characters of a tag write; escapes must form characters. -/
def tagText? : Nat → List Char → Option (List Char)
  | 0, _ => none
  | _, [] => some []
  | fuel + 1, '%' :: rest =>
    match readPercentBytes ('%' :: rest) with
    | [] => none
    | bytes => do
      let decoded ← String.fromUTF8? ⟨bytes.toArray⟩
      let more ← tagText? fuel (('%' :: rest).drop (3 * bytes.length))
      pure (decoded.toList ++ more)
  | fuel + 1, c :: rest => do pure (c :: (← tagText? fuel rest))

/-- Reads the rest of a tag. -/
def readTagRest (c : Cursor) : Option (List Char × Cursor) := do
  let (raw, c') := c.span isTagChar
  pure (← tagText? (raw.length + 1) raw, c')

/-- Reads a tag from its exclamation mark on: handle and suffix. -/
def readTag (c : Cursor) : Option (String × String × Cursor) := do
  let (handle, suffix, c') ←
    if c.peekAt 1 = some '<' then do
      let (suffix, c') ← readTagRest (c.skip 2)
      if suffix.isEmpty || !c'.isAt '>' then none else pure ([], suffix, c'.advance)
    else do
      let (word, c') := c.advance.span isWordChar
      if c'.isAt '!' then do
        let (suffix, c'') ← readTagRest c'.advance
        if suffix.isEmpty then none else pure ('!' :: word ++ ['!'], suffix, c'')
      else do
        let (more, c'') ← readTagRest c'
        match word ++ more with
        | [] => pure ([], ['!'], c'')
        | suffix => pure (['!'], suffix, c'')
  if endsWord c'.peek then pure (String.ofList handle, String.ofList suffix, c') else none

/-- Reads a number of at most nine digits. -/
def readVersionNumber (c : Cursor) : Option (Nat × Cursor) :=
  let (digits, c') := c.span Char.isDigit
  if digits.isEmpty || 9 < digits.length then none
  else some (digits.foldl (fun n d => n * 10 + (d.toNat - 48)) 0, c')

/-- Reads the value of a version directive. -/
def readVersion (c : Cursor) : Option (TokenKind × Cursor) := do
  let (major, c) ← readVersionNumber (c.skipWhile isBlank)
  if !c.isAt '.' then none
  else do
    let (minor, c) ← readVersionNumber c.advance
    pure (.versionDirective (major = 1 && minor = 1), c)

/-- Reads the value of a tag directive. -/
def readTagDirective (c : Cursor) : Option (TokenKind × Cursor) := do
  let c := c.skipWhile isBlank
  if !c.isAt '!' then none
  else do
    let (word, c) := c.advance.span isWordChar
    let (handle, c) ←
      if c.isAt '!' then some ('!' :: word ++ ['!'], c.advance)
      else if word.isEmpty then some (['!'], c)
      else none
    if !c.peek.any isBlank then none
    else do
      let (start, c) ← readTagRest (c.skipWhile isBlank)
      if start.isEmpty || !endsWord c.peek then none
      else pure (.tagDirective (String.ofList handle) (String.ofList start), c)

/-- Reads a directive from its percent sign on, with its line. -/
def readDirective (c : Cursor) : Option (TokenKind × Cursor) := do
  let (name, c) := c.advance.span isWordChar
  if !endsWord c.peek then none
  else do
    let (kind, c) ←
      if name = "YAML".toList then readVersion c
      else if name = "TAG".toList then readTagDirective c
      else none
    let c := c.skipWhile isBlank
    let c := if c.isAt '#' then c.toLineEnd else c
    if endsLine c.peek then pure (kind, c.advance) else none

end Smpl.Yaml

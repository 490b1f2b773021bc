/-!
# The text of a document

A cursor walks over the characters of a document and knows its line and column. Line breaks are made
uniform first: a carriage return, with or without a line feed, and a next-line character count as a
line feed. The two Unicode separators are line breaks as well, but keep their character.
-/

namespace Smpl.Yaml

/-- A blank within a line. -/
def isBlank (c : Char) : Bool := c = ' ' || c = '\t'

/-- A line break, in a text whose breaks are uniform. -/
def isBreak (c : Char) : Bool := c = '\n' || c = '\u2028' || c = '\u2029'

/-- A blank or a line break. -/
def isGap (c : Char) : Bool := isBlank c || isBreak c

/-- A letter, digit, underscore or hyphen of the ASCII range. -/
def isWordChar (c : Char) : Bool := c.isAlphanum || c = '_' || c = '-'

/-- Whether a blank, a line break or the end of the text is at hand. -/
def endsWord : Option Char → Bool
  | none => true
  | some c => isGap c

/-- Whether a line break or the end of the text is at hand. -/
def endsLine : Option Char → Bool
  | none => true
  | some c => isBreak c

/-- The characters that a document may hold. -/
def isAllowed (c : Char) : Bool :=
  let n := c.toNat
  n = 0x09 || n = 0x0A || n = 0x0D || (0x20 ≤ n && n ≤ 0x7E) || n = 0x85 ||
    (0xA0 ≤ n && n ≤ 0xD7FF) || (0xE000 ≤ n && n ≤ 0xFFFD) || 0x10000 ≤ n

/-- The same text with uniform line breaks. -/
def uniformBreaks : List Char → List Char
  | [] => []
  | '\r' :: '\n' :: rest => '\n' :: uniformBreaks rest
  | '\r' :: rest => '\n' :: uniformBreaks rest
  | '\u0085' :: rest => '\n' :: uniformBreaks rest
  | c :: rest => c :: uniformBreaks rest

/-- The byte order mark. -/
def byteOrderMark : Char := '\ufeff'

/-- A position in a text, with what follows it. -/
structure Cursor where
  rest : List Char
  /-- The number of characters before the position. -/
  index : Nat := 0
  /-- The line, from zero. -/
  line : Nat := 0
  /-- The column, from zero. -/
  column : Nat := 0
  /-- Whether a line break precedes, with nothing but blanks in between. -/
  fresh : Bool := false

namespace Cursor

/-- The character at hand. -/
def peek (c : Cursor) : Option Char := c.rest.head?

/-- The character some places ahead. -/
def peekAt (c : Cursor) (n : Nat) : Option Char := c.rest[n]?

/-- The position behind the character at hand. -/
def advance (c : Cursor) : Cursor :=
  match c.rest with
  | [] => c
  | x :: rest =>
    if isBreak x then
      { rest := rest, index := c.index + 1, line := c.line + 1, column := 0, fresh := true }
    else
      { rest := rest, index := c.index + 1, line := c.line, column := c.column + 1,
        fresh := c.fresh && isBlank x }

/-- The position some characters ahead. -/
def skip : Nat → Cursor → Cursor
  | 0, c => c
  | n + 1, c => skip n c.advance

/-- The longest run of characters of a class, and the position behind it. -/
def span (p : Char → Bool) (c : Cursor) : List Char × Cursor :=
  let taken := c.rest.takeWhile p
  (taken, c.skip taken.length)

/-- The position behind the longest run of characters of a class. -/
def skipWhile (p : Char → Bool) (c : Cursor) : Cursor := (c.span p).2

/-- The position at the end of the line. -/
def toLineEnd (c : Cursor) : Cursor := c.skipWhile fun x => !isBreak x

/-- Whether the line starts with three times a character, and no more. -/
def atTriple (x : Char) (c : Cursor) : Bool :=
  c.column = 0 && c.rest.take 3 = [x, x, x] && endsWord (c.peekAt 3)

/-- Whether a line that separates documents starts here. -/
def atDocumentMark (c : Cursor) : Bool := c.atTriple '-' || c.atTriple '.'

/-- Whether a given character is at hand. -/
def isAt (x : Char) (c : Cursor) : Bool := c.peek = some x

end Cursor

/-- A cursor at the start of a text; a byte order mark is left out. Some texts hold characters that
no document may hold. -/
def Cursor.ofText? (text : String) : Option Cursor :=
  let chars := match text.toList with
    | c :: rest => if c = byteOrderMark then rest else c :: rest
    | [] => []
  if chars.all isAllowed then some { rest := uniformBreaks chars } else none

end Smpl.Yaml

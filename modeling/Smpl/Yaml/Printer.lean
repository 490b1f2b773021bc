import Smpl.Text.Quoted
import Smpl.Yaml.Implicit

/-!
# Writing strings

A string is written as simply as it can be read back (`styleOf`).
* Text of several lines is a literal block, unless a line ends in a space or holds a character that
  only an escape can write; then it is in double quotes.
* Other text is plain if it reads as a string and does not look like structure. If it would read as
  another type it is in double quotes; if its form is the only obstacle it is in single quotes; if
  it needs escapes it is in double quotes.

No line is folded.
-/

namespace Smpl.Yaml

/-- How a string is written. -/
inductive Style where
  | plain
  | singleQuoted
  | doubleQuoted
  | literal
  deriving DecidableEq, Repr

/-- A character that can stand in a document as it is; tabs are apart. -/
def isWritable (c : Char) : Bool :=
  let n := c.toNat
  n = 0x0A || (0x20 ≤ n && n ≤ 0x7E) || (0xA0 ≤ n && n ≤ 0xD7FF) ||
    (0xE000 ≤ n && n ≤ 0xFFFD && n ≠ 0xFEFF)

/-- A character that readers take for a line break. -/
def isWrittenBreak (c : Char) : Bool :=
  c = '\n' || c = '\r' || c = '\u0085' || c = '\u2028' || c = '\u2029'

/-- A character that only an escape can write. -/
def needsEscape (c : Char) : Bool := c ≠ '\t' && !isWritable c

/-- Whether a space or the end follows. -/
def spaceFollows : List Char → Bool
  | [] => true
  | c :: _ => c = ' ' || c = '\t'

/-- Whether the beginning of a text looks like structure. -/
def startLooksStructural : List Char → Bool
  | [] => false
  | c :: rest =>
    if c ∈ ['#', ',', '[', ']', '\x7b', '\x7d', '&', '*', '!', '|', '>', '\'', '"', '%', '@',
      '\x60']
    then true
    else if c ∈ ['?', ':', '-'] then spaceFollows rest
    else false

/-- Whether a later part of a text looks like structure: a colon before a space, or a hash sign
after one. `spaced` says whether a space precedes. -/
def restLooksStructural : Bool → List Char → Bool
  | _, [] => false
  | spaced, c :: rest =>
    (c = ':' && spaceFollows rest) || (c = '#' && spaced) ||
      restLooksStructural (c = ' ' || c = '\t' || isWrittenBreak c) rest

/-- Whether a text looks like structure. -/
def looksStructural (cs : List Char) : Bool :=
  cs.take 3 = ['-', '-', '-'] || cs.take 3 = ['.', '.', '.'] || startLooksStructural cs ||
    restLooksStructural (cs.head?.any fun c => c = ' ' || c = '\t' || isWrittenBreak c) (cs.drop 1)

/-- Whether a character of one class is followed by one of another somewhere. -/
def hasAdjacent (p q : Char → Bool) : List Char → Bool
  | a :: b :: rest => (p a && q b) || hasAdjacent p q (b :: rest)
  | _ => false

/-- Whether a text starts or ends with a space or a line break. -/
def hasLooseEnds (cs : List Char) : Bool :=
  let loose (c : Char) := c = ' ' || isWrittenBreak c
  cs.head?.any loose || cs.getLast?.any loose

/-- Whether a space stands before a line break. -/
def spaceBeforeBreak : List Char → Bool := hasAdjacent (· = ' ') isWrittenBreak

/-- Whether a space stands after a line break. -/
def spaceAfterBreak : List Char → Bool := hasAdjacent isWrittenBreak (· = ' ')

/-- Whether a text can be a literal block. -/
def fitsLiteral (cs : List Char) : Bool :=
  cs.getLast? ≠ some ' ' && !spaceBeforeBreak cs && !cs.any needsEscape

/-- Whether a text can stand in single quotes. -/
def fitsSingleQuotes (cs : List Char) : Bool :=
  !spaceBeforeBreak cs && !spaceAfterBreak cs && !cs.any needsEscape && !cs.contains '\t'

/-- Whether a text can stand without quotes, as far as its form goes. -/
def fitsPlain (cs : List Char) : Bool :=
  fitsSingleQuotes cs && !hasLooseEnds cs && !cs.any isWrittenBreak && !looksStructural cs

/-- Whether readers take a plain text for a string. -/
def readsAsString (text : String) : Bool :=
  implicitTag text = strTag && !isSixtyNumber text && !isOldBoolean text

/-- The style of a string. -/
def styleOf (text : String) : Style :=
  let cs := text.toList
  if cs.contains '\n' then if fitsLiteral cs then .literal else .doubleQuoted
  else if !readsAsString text then .doubleQuoted
  else if fitsPlain cs then .plain
  else if fitsSingleQuotes cs then .singleQuoted
  else .doubleQuoted

/-- A character in double quotes. -/
def doubleQuotedChar (c : Char) : List Char :=
  let code (mark : Char) (width : Nat) : List Char :=
    '\\' :: mark :: (Text.hexDigits width c.toNat).map Char.toUpper
  match c with
  | '\x00' => ['\\', '0']
  | '\x07' => ['\\', 'a']
  | '\x08' => ['\\', 'b']
  | '\t' => ['\\', 't']
  | '\n' => ['\\', 'n']
  | '\x0b' => ['\\', 'v']
  | '\x0c' => ['\\', 'f']
  | '\r' => ['\\', 'r']
  | '\x1b' => ['\\', 'e']
  | '"' => ['\\', '"']
  | '\\' => ['\\', '\\']
  | '\u0085' => ['\\', 'N']
  | '\u2028' => ['\\', 'L']
  | '\u2029' => ['\\', 'P']
  | _ =>
    if isWritable c then [c]
    else if c.toNat ≤ 0xFF then code 'x' 2
    else if c.toNat ≤ 0xFFFF then code 'u' 4
    else code 'U' 8

/-- A text in double quotes. -/
def doubleQuoted (cs : List Char) : List Char := '"' :: cs.flatMap doubleQuotedChar ++ ['"']

/-- The lines of a text with an indentation before each line that is not empty; `started` says
whether a line has just begun. -/
def indentLines (indent : Nat) : Bool → List Char → List Char
  | _, [] => []
  | started, c :: rest =>
    if isWrittenBreak c then c :: indentLines indent true rest
    else if started then List.replicate indent ' ' ++ c :: indentLines indent false rest
    else c :: indentLines indent false rest

/-- A text in single quotes; lines after the first are indented. -/
def singleQuoted (indent : Nat) (cs : List Char) : List Char :=
  let doubled := cs.flatMap fun c => if c = '\'' then ['\'', '\''] else [c]
  '\'' :: indentLines indent false doubled ++ ['\'']

/-- What the head of a literal block says of the line breaks at its end. -/
def chompMark (cs : List Char) : List Char :=
  match cs.reverse with
  | [] => ['-']
  | [c] => if isWrittenBreak c then ['+'] else ['-']
  | c :: d :: _ =>
    if !isWrittenBreak c then ['-'] else if isWrittenBreak d then ['+'] else []

/-- What the head of a literal block says of its indentation: it must, if the text starts with a
space or a line break. -/
def indentMark (step : Nat) (cs : List Char) : List Char :=
  if cs.head?.any fun c => c = ' ' || isWrittenBreak c then (toString step).toList else []

/-- A text as a literal block. -/
def literalBlock (step indent : Nat) (cs : List Char) : List Char :=
  let lines := indentLines indent true cs
  let lineEnd := if cs.head?.any isWrittenBreak then [] else ['\n']
  '|' :: indentMark step cs ++ chompMark cs ++ lineEnd ++ lines

/-- The number of columns of one step of indentation. -/
def indentStep : Nat := 2

/-- A string at the end of a line that has begun, with its line end. Lines after the first are
indented by `indent`. -/
def endLine (indent : Nat) (text : String) : String :=
  let cs := text.toList
  match styleOf text with
  | .plain => text ++ "\n"
  | .singleQuoted => String.ofList (singleQuoted indent cs ++ ['\n'])
  | .doubleQuoted => String.ofList (doubleQuoted cs ++ ['\n'])
  | .literal =>
    let ended := cs.getLast?.any isWrittenBreak
    String.ofList (literalBlock indentStep indent cs ++ if ended then [] else ['\n'])

end Smpl.Yaml

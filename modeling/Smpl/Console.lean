import Smpl.Numeric.IntegerText
import Smpl.Text.Space

/-!
# The console

Input is read by lines and by integers. A line ends at a line feed; a carriage return before it does
not belong to the line. The two ways of reading share the rest of the current line:
* reading an integer takes the next token, over blank lines if need be, and leaves the rest of the
  line pending; a token that is no integer stays where it is;
* reading a line gives the pending rest from its first character that is no blank, and a new line
  when nothing but blanks is pending.
-/

namespace Smpl

/-- The rest of the current line, and the lines after it. -/
structure Console where
  pending : List Char
  lines : List (List Char)
  deriving DecidableEq, Repr

namespace Console

/-- A line without the carriage return at its end. -/
def dropReturn (line : List Char) : List Char :=
  if line.getLast? = some '\r' then line.dropLast else line

/-- The lines of a text after the beginning of a line, which is given last character first. -/
def splitLines : List Char → List Char → List (List Char)
  | [], [] => []
  | started, [] => [dropReturn started.reverse]
  | started, c :: rest =>
    if c = '\n' then dropReturn started.reverse :: splitLines [] rest
    else splitLines (c :: started) rest

/-- A console over a text. -/
def ofText (text : String) : Console := ⟨[], splitLines [] text.toList⟩

/-- Reads a line; at the end of input there is none. -/
def readLine (c : Console) : Option (List Char) × Console :=
  match Text.trimLeft c.pending, c.lines with
  | [], [] => (none, ⟨[], []⟩)
  | [], line :: rest => (some line, ⟨[], rest⟩)
  | rest, lines => (some rest, ⟨[], lines⟩)

/-- The first of the pending text and the lines after it that is not blank, from its first character
that is no blank, and the lines behind it. -/
def nextInk? : List Char → List (List Char) → Option (List Char × List (List Char))
  | pending, lines =>
    match Text.trimLeft pending, lines with
    | [], [] => none
    | [], line :: rest => nextInk? line rest
    | text, _ => some (text, lines)
termination_by structural _ lines => lines

/-- What reading an integer gives. -/
inductive IntegerInput where
  | value (n : Int64)
  /-- The next token is no integer. -/
  | rejected (token : List Char)
  | endOfInput
  deriving DecidableEq, Repr

/-- Reads an integer. -/
def readInteger (c : Console) : IntegerInput × Console :=
  match nextInk? c.pending c.lines with
  | none => (.endOfInput, ⟨[], []⟩)
  | some (text, lines) =>
    let token := text.takeWhile fun x => !Text.isSpace x
    match Numeric.readInt64 token with
    | .ok n => (.value n, ⟨text.dropWhile fun x => !Text.isSpace x, lines⟩)
    | .error _ => (.rejected token, ⟨text, lines⟩)

end Console

end Smpl

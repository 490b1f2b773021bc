/-!
# White space

The white-space characters of text and manifests, and trimming over `List Char` and `String`.
A blank line, a trimmed field and the gap between two integers on the console all use this class.
-/

namespace Smpl.Text

/-- White space: tab to carriage return, space, next line, and the Unicode spaces and separators. -/
def isSpace (c : Char) : Bool :=
  let n := c.toNat
  (0x09 ≤ n && n ≤ 0x0D) || n == 0x20 || n == 0x85 || n == 0xA0 || n == 0x1680 ||
    (0x2000 ≤ n && n ≤ 0x200A) || n == 0x2028 || n == 0x2029 || n == 0x202F || n == 0x205F ||
    n == 0x3000

/-- The text from its first character that is not white space. -/
def trimLeft (cs : List Char) : List Char := cs.dropWhile isSpace

/-- The text up to its last character that is not white space. -/
def trimRight (cs : List Char) : List Char := (cs.reverse.dropWhile isSpace).reverse

/-- The text without white space at either end. -/
def trimChars (cs : List Char) : List Char := trimRight (trimLeft cs)

/-- The string without white space at either end. -/
def trim (s : String) : String := String.ofList (trimChars s.toList)

/-- Whether every character is white space. -/
def isBlank (cs : List Char) : Bool := cs.all isSpace

/-- The characters that are not white space, in order. -/
def inked (cs : List Char) : List Char := cs.filter fun c => !isSpace c

end Smpl.Text

import Smpl.Json.Basic

/-!
# Reading JSON

`Json.read?` reads the first JSON value of a text and ignores what follows it. The grammar is that
of JSON with these particulars:
* blanks are space, tab, line feed and carriage return;
* a number keeps its text, and a number at the end of its grammar ends there (`01` is `0`);
* a surrogate escape without its partner stands for `U+FFFD`;
* more than ten thousand open brackets are refused.

Each reader returns what it read and the text that is left, or nothing when the text is malformed.
The readers of nested values take a bound on their steps; every step consumes a character, so the
length of the text is bound enough.
-/

namespace Smpl.Json

/-- The greatest number of brackets that may be open at once. -/
def maxDepth : Nat := 10000

/-- A blank between JSON tokens. -/
def isBlank (c : Char) : Bool := c = ' ' || c = '\t' || c = '\n' || c = '\r'

/-- The text from its first character that is no blank. -/
def skipBlanks (cs : List Char) : List Char := cs.dropWhile isBlank

/-- The value of a hexadecimal digit. -/
def hexValue? (c : Char) : Option Nat :=
  if '0' ≤ c ∧ c ≤ '9' then some (c.toNat - 48)
  else if 'a' ≤ c ∧ c ≤ 'f' then some (c.toNat - 87)
  else if 'A' ≤ c ∧ c ≤ 'F' then some (c.toNat - 55)
  else none

/-- Reads four hexadecimal digits. -/
def readHex4? : List Char → Option (Nat × List Char)
  | a :: b :: c :: d :: rest => do
    let w ← hexValue? a
    let x ← hexValue? b
    let y ← hexValue? c
    let z ← hexValue? d
    pure (((w * 16 + x) * 16 + y) * 16 + z, rest)
  | _ => none

/-- The character of a UTF-16 unit outside the surrogates, and `U+FFFD` for a surrogate. -/
def charOfUnit (n : Nat) : Char :=
  if 0xD800 ≤ n ∧ n ≤ 0xDFFF then Char.ofNat 0xFFFD else Char.ofNat n

/-- The character that the units after `\u` stand for: a pair of surrogates is one character. -/
def decodeUnit (n : Nat) (rest : List Char) : Char × List Char :=
  if 0xD800 ≤ n ∧ n ≤ 0xDBFF then
    match rest with
    | '\\' :: 'u' :: more =>
      match readHex4? more with
      | some (low, left) =>
        if 0xDC00 ≤ low ∧ low ≤ 0xDFFF then
          (Char.ofNat (0x10000 + (n - 0xD800) * 0x400 + (low - 0xDC00)), left)
        else (charOfUnit n, rest)
      | none => (charOfUnit n, rest)
    | _ => (charOfUnit n, rest)
  else (charOfUnit n, rest)

/-- The character of a one-letter escape. -/
def escaped? : Char → Option Char
  | '"' => some '"'
  | '\\' => some '\\'
  | '/' => some '/'
  | 'b' => some (Char.ofNat 8)
  | 'f' => some (Char.ofNat 12)
  | 'n' => some '\n'
  | 'r' => some '\r'
  | 't' => some '\t'
  | _ => none

/-- Reads the rest of a string after its opening quote; `read` holds the characters so far, last
first. -/
def readString? : Nat → List Char → List Char → Option (String × List Char)
  | 0, _, _ => none
  | _ + 1, _, [] => none
  | bound + 1, read, c :: rest =>
    if c = '"' then some (String.ofList read.reverse, rest)
    else if c = '\\' then
      match rest with
      | 'u' :: more =>
        match readHex4? more with
        | some (n, left) =>
          let (d, after) := decodeUnit n left
          readString? bound (d :: read) after
        | none => none
      | e :: more =>
        match escaped? e with
        | some d => readString? bound (d :: read) more
        | none => none
      | [] => none
    else if c.toNat < 0x20 then none
    else readString? bound (c :: read) rest

/-- Splits off the decimal digits at the start of a text. -/
def spanDigits (cs : List Char) : List Char × List Char := cs.span Char.isDigit

/-- Reads the digits of a number before its point: a zero, or digits that start with none. -/
def readWhole? (cs : List Char) : Option (List Char × List Char) :=
  match cs with
  | '0' :: rest => some (['0'], rest)
  | _ => match spanDigits cs with
    | ([], _) => none
    | read => some read

/-- Reads a point with its digits, if there is one. -/
def readFraction? (cs : List Char) : Option (List Char × List Char) :=
  match cs with
  | '.' :: rest => match spanDigits rest with
    | ([], _) => none
    | (ds, left) => some ('.' :: ds, left)
  | _ => some ([], cs)

/-- Reads an exponent, if there is one. -/
def readExponent? (cs : List Char) : Option (List Char × List Char) :=
  match cs with
  | e :: rest =>
    if e = 'e' ∨ e = 'E' then
      let (sign, more) : List Char × List Char := match rest with
        | '+' :: more => (['+'], more)
        | '-' :: more => (['-'], more)
        | _ => ([], rest)
      match spanDigits more with
      | ([], _) => none
      | (ds, left) => some (e :: (sign ++ ds), left)
    else some ([], cs)
  | [] => some ([], [])

/-- Reads a number and keeps its text. -/
def readNumber? (cs : List Char) : Option (Json × List Char) := do
  let (sign, body) : List Char × List Char := match cs with
    | '-' :: rest => (['-'], rest)
    | _ => ([], cs)
  let (whole, afterWhole) ← readWhole? body
  let (fraction, afterFraction) ← readFraction? afterWhole
  let (exponent, rest) ← readExponent? afterFraction
  pure (.number (String.ofList (sign ++ whole ++ fraction ++ exponent)), rest)

/-- Removes a word from the start of a text. -/
def dropWord? : List Char → List Char → Option (List Char)
  | [], cs => some cs
  | _ :: _, [] => none
  | w :: ws, c :: cs => if w = c then dropWord? ws cs else none

/-- Reads a literal name. -/
def readWord? (word : String) (value : Json) (cs : List Char) : Option (Json × List Char) :=
  (dropWord? word.toList cs).map fun rest => (value, rest)

mutual

/-- Reads a value; `depth` brackets are open around it. -/
def readValue? : Nat → Nat → List Char → Option (Json × List Char)
  | 0, _, _ => none
  | bound + 1, depth, cs =>
    match skipBlanks cs with
    | '"' :: rest => (readString? bound [] rest).map fun r => (.string r.1, r.2)
    | '[' :: rest =>
      if maxDepth ≤ depth then none
      else match skipBlanks rest with
        | ']' :: left => some (.array [], left)
        | left => readItems? bound (depth + 1) [] left
    | '\x7b' :: rest =>
      if maxDepth ≤ depth then none
      else match skipBlanks rest with
        | '\x7d' :: left => some (.object [], left)
        | left => readMembers? bound (depth + 1) [] left
    | 't' :: rest => readWord? "rue" (.bool true) rest
    | 'f' :: rest => readWord? "alse" (.bool false) rest
    | 'n' :: rest => readWord? "ull" .null rest
    | left => readNumber? left

/-- Reads the items of an array from the next one on; `read` holds those before, last first. -/
def readItems? : Nat → Nat → List Json → List Char → Option (Json × List Char)
  | 0, _, _, _ => none
  | bound + 1, depth, read, cs =>
    match readValue? bound depth cs with
    | none => none
    | some (item, rest) =>
      match skipBlanks rest with
      | ',' :: left => readItems? bound depth (item :: read) left
      | ']' :: left => some (.array (item :: read).reverse, left)
      | _ => none

/-- Reads the members of an object from the next one on; `read` holds those before, last first. -/
def readMembers? : Nat → Nat → List (String × Json) → List Char → Option (Json × List Char)
  | 0, _, _, _ => none
  | bound + 1, depth, read, cs =>
    match skipBlanks cs with
    | '"' :: rest =>
      match readString? bound [] rest with
      | none => none
      | some (name, afterName) =>
        match skipBlanks afterName with
        | ':' :: afterColon =>
          match readValue? bound depth afterColon with
          | none => none
          | some (value, afterValue) =>
            match skipBlanks afterValue with
            | ',' :: left => readMembers? bound depth ((name, value) :: read) left
            | '\x7d' :: left => some (.object ((name, value) :: read).reverse, left)
            | _ => none
        | _ => none
    | _ => none

end

/-- The first JSON value of a text; what follows it is ignored. -/
def read? (source : String) : Option Json :=
  let cs := source.toList
  (readValue? (2 * cs.length + 2) 0 cs).map (·.1)

end Smpl.Json

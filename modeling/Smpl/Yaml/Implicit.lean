import Smpl.Numeric.RealText

/-!
# Implicit types

A plain scalar has a type by the way it is written: null, a boolean, an integer, a real number, a
point in time, or else a string. `implicitTag` gives the tag of that type.

* Integers are decimal, or binary, octal or hexadecimal with a mark or a leading zero; underscores
  do not count. They go from the least signed to the greatest unsigned 64-bit integer.
* A point in time is a date, or a date and a time of day. Months and days may have one digit. After
  a `T` the time of day has a zone, after blanks it has none.
-/

namespace Smpl.Yaml

/-! ## Tags -/

/-- The beginning of the tags that have a short form. -/
def longTagStart : String := "tag:yaml.org,2002:"

/-- The short form of a tag. -/
def shortTag (tag : String) : String :=
  if longTagStart.toList <+: tag.toList then
    "!!" ++ String.ofList (tag.toList.drop longTagStart.length)
  else tag

/-- The tag of strings. -/
def strTag : String := "!!str"
/-- The tag of the null value. -/
def nullTag : String := "!!null"
/-- The tag of booleans. -/
def boolTag : String := "!!bool"
/-- The tag of integers. -/
def intTag : String := "!!int"
/-- The tag of real numbers. -/
def floatTag : String := "!!float"
/-- The tag of points in time. -/
def timestampTag : String := "!!timestamp"
/-- The tag of a key that merges another mapping. -/
def mergeTag : String := "!!merge"
/-- The tag of sequences. -/
def seqTag : String := "!!seq"
/-- The tag of mappings. -/
def mapTag : String := "!!map"

/-! ## Words -/

/-- The type of a scalar that is one of a few words. -/
def wordTag? (text : String) : Option String :=
  if text ∈ ["true", "True", "TRUE", "false", "False", "FALSE"] then some boolTag
  else if text ∈ ["", "~", "null", "Null", "NULL"] then some nullTag
  else if text ∈ [".nan", ".NaN", ".NAN", ".inf", ".Inf", ".INF", "+.inf", "+.Inf", "+.INF",
    "-.inf", "-.Inf", "-.INF"] then some floatTag
  else none

/-! ## Points in time -/

/-- Reads a number of one or two digits. -/
def readTwoDigits : List Char → Option (Nat × List Char)
  | a :: b :: rest =>
    if a.isDigit then
      if b.isDigit then some ((a.toNat - 48) * 10 + (b.toNat - 48), rest)
      else some (a.toNat - 48, b :: rest)
    else none
  | [a] => if a.isDigit then some (a.toNat - 48, []) else none
  | [] => none

/-- The text behind a given character. -/
def dropChar? (c : Char) : List Char → Option (List Char)
  | x :: rest => if x = c then some rest else none
  | [] => none

/-- Whether a year has a 29th of February. -/
def isLeapYear (year : Nat) : Bool := year % 4 = 0 && (year % 100 ≠ 0 || year % 400 = 0)

/-- The number of days of a month. -/
def daysIn (year month : Nat) : Nat :=
  if month = 2 then if isLeapYear year then 29 else 28
  else if month ∈ [4, 6, 9, 11] then 30
  else 31

/-- Reads a date; the year has four digits. -/
def readDate (cs : List Char) : Option (List Char) := do
  let digits := cs.takeWhile Char.isDigit
  if digits.length ≠ 4 then none
  else
    let year := digits.foldl (fun n d => n * 10 + (d.toNat - 48)) 0
    let (month, cs) ← readTwoDigits (← dropChar? '-' (cs.drop 4))
    let (day, cs) ← readTwoDigits (← dropChar? '-' cs)
    if 1 ≤ month && month ≤ 12 && 1 ≤ day && day ≤ daysIn year month then some cs else none

/-- The text behind the fraction of a second, if there is one. -/
def dropFraction : List Char → List Char
  | a :: b :: rest =>
    if (a = '.' || a = ',') && b.isDigit then rest.dropWhile Char.isDigit else a :: b :: rest
  | cs => cs

/-- Reads a time of day. -/
def readTimeOfDay (cs : List Char) : Option (List Char) := do
  let (hour, cs) ← readTwoDigits cs
  let (minute, cs) ← readTwoDigits (← dropChar? ':' cs)
  let (second, cs) ← readTwoDigits (← dropChar? ':' cs)
  if hour < 24 && minute < 60 && second < 60 then some (dropFraction cs) else none

/-- Whether a text is a time zone. -/
def isZone : List Char → Bool
  | ['Z'] => true
  | [s, h, h', ':', m, m'] =>
    (s = '+' || s = '-') && [h, h', m, m'].all Char.isDigit &&
      (h.toNat - 48) * 10 + (h'.toNat - 48) ≤ 24 && (m.toNat - 48) * 10 + (m'.toNat - 48) ≤ 60
  | _ => false

/-- Whether a text is a point in time. -/
def isTimestamp (cs : List Char) : Bool :=
  match readDate cs with
  | none => false
  | some [] => true
  | some (c :: rest) =>
    if c = 'T' || c = 't' then (readTimeOfDay rest).any isZone
    else if c = ' ' then (readTimeOfDay (rest.dropWhile (· = ' '))) = some []
    else false

/-! ## Numbers -/

/-- The value of a digit in a base up to sixteen. -/
def digitIn? (base : Nat) (c : Char) : Option Nat := do
  let value ←
    if '0' ≤ c && c ≤ '9' then some (c.toNat - 48)
    else if 'a' ≤ c && c ≤ 'f' then some (c.toNat - 87)
    else if 'A' ≤ c && c ≤ 'F' then some (c.toNat - 55)
    else none
  if value < base then some value else none

/-- The number that digits write in a base. -/
def numberIn? (base : Nat) (cs : List Char) : Option Nat :=
  if cs.isEmpty then none
  else cs.foldl (fun n c => do pure ((← n) * base + (← digitIn? base c))) (some 0)

/-- The number that digits write, in the base that their beginning marks. -/
def markedNumber? : List Char → Option Nat
  | '0' :: c :: rest =>
    if c = 'b' || c = 'B' then numberIn? 2 rest
    else if c = 'o' || c = 'O' then numberIn? 8 rest
    else if c = 'x' || c = 'X' then numberIn? 16 rest
    else numberIn? 8 (c :: rest)
  | cs => numberIn? 10 cs

/-- Whether a text is an integer within range, where `number?` reads its digits. -/
def isSigned (number? : List Char → Option Nat) (cs : List Char) : Bool :=
  match cs with
  | '-' :: rest => (number? rest).any (· ≤ Numeric.int64Bound)
  | '+' :: rest => (number? rest).any (· < Numeric.int64Bound)
  | _ => (number? cs).any (· < Numeric.wordBound)

/-- Whether a text without underscores is an integer. The sign may also stand behind the mark of a
binary or octal one. -/
def isInteger (cs : List Char) : Bool :=
  match cs with
  | '0' :: 'b' :: rest => isSigned (numberIn? 2) rest
  | '0' :: 'o' :: rest => isSigned (numberIn? 8) rest
  | _ => isSigned markedNumber? cs

/-- Whether a text has the form of a decimal real number. -/
def hasRealForm (cs : List Char) : Bool :=
  let cs := match cs with
    | '+' :: rest => rest
    | '-' :: rest => rest
    | _ => cs
  let whole := cs.takeWhile Char.isDigit
  let cs := cs.dropWhile Char.isDigit
  let (dotted, fraction, cs) := match cs with
    | '.' :: rest => (true, rest.takeWhile Char.isDigit, rest.dropWhile Char.isDigit)
    | _ => (false, [], cs)
  let exponentFits := match cs with
    | [] => true
    | e :: rest =>
      let rest := match rest with
        | '+' :: more => more
        | '-' :: more => more
        | _ => rest
      (e = 'e' || e = 'E') && !rest.isEmpty && rest.all Char.isDigit
  (!whole.isEmpty || (dotted && !fraction.isEmpty)) && exponentFits

/-- Whether a text is a real number within range. -/
def isReal (cs : List Char) : Bool := (Numeric.readReal cs).isOk

/-- The type of a scalar that starts with a sign or a digit; a point in time only where one may
stand. -/
def numberTag? (withTimestamps : Bool) (cs : List Char) : Option String :=
  let bare := cs.filter (· ≠ '_')
  if withTimestamps && isTimestamp cs then some timestampTag
  else if isInteger bare then some intTag
  else if hasRealForm bare && isReal bare then some floatTag
  else none

/-- The type of a scalar by the way it is written. -/
def writtenTag (withTimestamps : Bool) (text : String) : String :=
  let found := match text.toList with
    | [] => wordTag? text
    | c :: rest =>
      if c = '+' || c = '-' || c.isDigit then
        (wordTag? text).or (numberTag? withTimestamps (c :: rest))
      else if c = '.' then
        (wordTag? text).or (if isReal (c :: rest) then some floatTag else none)
      else wordTag? text
  found.getD strTag

/-- The type of a plain scalar. -/
def implicitTag (text : String) : String := writtenTag true text

/-- Whether the text of a scalar fits the tag that it carries. -/
def fitsTag (tag text : String) : Bool :=
  let written := writtenTag (tag = timestampTag) text
  tag = strTag || tag = written || (tag = floatTag && written = intTag)

/-! ## Old spellings -/

/-- The words that older readers take for booleans. -/
def isOldBoolean (text : String) : Bool :=
  text ∈ ["y", "Y", "yes", "Yes", "YES", "on", "On", "ON", "n", "N", "no", "No", "NO", "off", "Off",
    "OFF"]

/-- Whether groups of base sixty follow each other to the end, or up to a fraction. `after` says
whether a group precedes. -/
def areSixtyGroups : Bool → List Char → Bool
  | after, [] => after
  | after, '.' :: rest => after && rest.all fun c => c.isDigit || c = '_'
  | _, ':' :: a :: b :: rest =>
    if a.isDigit && b.isDigit then a ≤ '5' && areSixtyGroups true rest
    else a.isDigit && areSixtyGroups true (b :: rest)
  | _, [':', a] => a.isDigit
  | _, _ => false

/-- Whether older readers take a text for a number of base sixty. -/
def isSixtyNumber (text : String) : Bool :=
  let cs := match text.toList with
    | '+' :: rest => rest
    | '-' :: rest => rest
    | cs => cs
  match cs with
  | c :: rest =>
    c.isDigit && areSixtyGroups false (rest.dropWhile fun d => d.isDigit || d = '_')
  | [] => false

end Smpl.Yaml

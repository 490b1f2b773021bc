import Smpl.Numeric.IntegerText
import Smpl.Numeric.Shortest

/-!
# Reals as text

Writing: the shortest digits that read back, laid out by a `Layout`. Two layouts are in use: the
printed form of a real (`Layout.printed`) and the form of a number in JSON (`Layout.json`).

Reading: decimal and hexadecimal reals, with single underscores between digits, and the names of the
infinities and of NaN. The value is the double nearest to the real that the text denotes; a text
beyond the largest double is out of range.
-/

namespace Smpl.Numeric

/-! ## Writing -/

/-- Where positional notation ends and how an exponent is written. -/
structure Layout where
  /-- The least exponent of the first digit that is written positionally. -/
  leastPositional : Int
  /-- The least exponent above it that is written with an exponent again. -/
  leastScientific : Int
  /-- The least number of digits of an exponent. -/
  exponentWidth : Nat

/-- Printed reals are positional from `10^-4` to below `10^6`; exponents have two digits or more. -/
def Layout.printed : Layout := ⟨-4, 6, 2⟩

/-- JSON numbers are positional from `10^-6` to below `10^21`; exponents are as short as possible.
-/
def Layout.json : Layout := ⟨-6, 21, 1⟩

/-- The characters of decimal digits. -/
def digitChars (ds : List Nat) : List Char := ds.map fun d => Char.ofNat (48 + d)

/-- Positional notation: zeros fill up to the point on either side. -/
def positional (d : Decimal) : List Char :=
  if d.exponent < 0 then
    '0' :: '.' :: (List.replicate ((-d.exponent).toNat - 1) '0' ++ digitChars d.digits)
  else
    let whole := d.exponent.toNat + 1
    let left := d.digits.take whole
    let right := d.digits.drop whole
    digitChars left ++ List.replicate (whole - left.length) '0' ++
      (if right.isEmpty then [] else '.' :: digitChars right)

/-- Scientific notation: one digit, a point before further ones, and the signed exponent. -/
def scientific (width : Nat) (d : Decimal) : List Char :=
  let magnitude := Nat.toDigits 10 d.exponent.natAbs
  digitChars (d.digits.take 1) ++
    (if d.digits.length ≤ 1 then [] else '.' :: digitChars (d.digits.drop 1)) ++
    'e' :: (if d.exponent < 0 then '-' else '+') ::
    (List.replicate (width - magnitude.length) '0' ++ magnitude)

/-- A decimal in positional or scientific notation, as the layout says. -/
def Layout.write (l : Layout) (d : Decimal) : List Char :=
  if d.exponent < l.leastPositional ∨ l.leastScientific ≤ d.exponent then
    scientific l.exponentWidth d
  else positional d

/-- The characters of a real: zero is one digit, the infinities always have their sign. -/
def Layout.realChars (l : Layout) (x : Float) : List Char :=
  match Parts.ofFloat x with
  | .nan => ['N', 'a', 'N']
  | .infinite negative => [if negative then '-' else '+', 'I', 'n', 'f']
  | .finite negative m q =>
    (if negative then ['-'] else []) ++ (if m == 0 then ['0'] else l.write (shortest m q))

/-- The printed form of a real. A real that would look like an integer ends in `.0`. -/
def realText (x : Float) : String :=
  let cs := Layout.printed.realChars x
  String.ofList (if cs.any (['.', 'e', 'I', 'N'].contains ·) then cs else cs ++ ['.', '0'])

/-- The form of a finite real as a JSON number; the others have none. -/
def jsonRealText? (x : Float) : Option String :=
  match Parts.ofFloat x with
  | .finite _ _ _ => some (String.ofList (Layout.json.realChars x))
  | _ => none

/-! ## Reading -/

/-- The lower-case form of an ASCII letter. -/
def lowerAscii (c : Char) : Char :=
  if 'A' ≤ c ∧ c ≤ 'Z' then Char.ofNat (c.toNat + 32) else c

/-- The value of a digit in base ten or sixteen. -/
def digitIn? (hexadecimal : Bool) (c : Char) : Option Nat :=
  match digitValue? c with
  | some d => some d
  | none =>
    let l := lowerAscii c
    if hexadecimal ∧ 'a' ≤ l ∧ l ≤ 'f' then some (l.toNat - 87) else none

/-- What was read of a significand: its digits as one number, how many of them stand after the
point, whether there was a point, a digit, an underscore, and the text that is left. -/
structure Significand where
  value : Nat := 0
  fractionDigits : Nat := 0
  sawPoint : Bool := false
  sawDigit : Bool := false
  sawUnderscore : Bool := false
  rest : List Char := []

/-- Reads digits, underscores and at most one point. -/
def readSignificand (hexadecimal : Bool) : Significand → List Char → Significand
  | s, [] => { s with rest := [] }
  | s, c :: cs =>
    if c = '_' then readSignificand hexadecimal { s with sawUnderscore := true } cs
    else if c = '.' ∧ !s.sawPoint then readSignificand hexadecimal { s with sawPoint := true } cs
    else match digitIn? hexadecimal c with
      | some d =>
        readSignificand hexadecimal
          { s with
            value := (if hexadecimal then 16 else 10) * s.value + d
            fractionDigits := if s.sawPoint then s.fractionDigits + 1 else s.fractionDigits
            sawDigit := true } cs
      | none => { s with rest := c :: cs }

/-- An exponent stops growing here: beyond it every real is zero or out of range. -/
def exponentCap : Nat := 10000

/-- Reads the digits of an exponent, and whether an underscore stands among them. -/
def readExponentDigits : Nat → Bool → List Char → Nat × Bool × List Char
  | e, u, [] => (e, u, [])
  | e, u, c :: cs =>
    if c = '_' then readExponentDigits e true cs
    else match digitValue? c with
      | some d => readExponentDigits (if e < exponentCap then 10 * e + d else e) u cs
      | none => (e, u, c :: cs)

/-- Reads an exponent after its letter: an optional sign and at least one digit. -/
def readExponent? (cs : List Char) : Option (Int × Bool × List Char) :=
  let negative := cs.head? = some '-'
  let ds := if negative ∨ cs.head? = some '+' then cs.tail else cs
  match ds with
  | [] => none
  | c :: _ =>
    if (digitValue? c).isNone then none
    else
      let (e, u, rest) := readExponentDigits 0 false ds
      some (if negative then -(e : Int) else e, u, rest)

/-- What stands before an underscore in a number. -/
inductive Before where
  | digit
  | underscore
  | other
  deriving DecidableEq

/-- Whether every underscore stands between two digits, or between a base mark and a digit. -/
def underscoresFit (hexadecimal : Bool) : Before → List Char → Bool
  | before, [] => before != .underscore
  | before, c :: cs =>
    if (digitIn? hexadecimal c).isSome then underscoresFit hexadecimal .digit cs
    else if c = '_' then before == .digit && underscoresFit hexadecimal .underscore cs
    else before != .underscore && underscoresFit hexadecimal .other cs

/-- Whether the underscores of a number fit, from its sign on; a base mark counts as a digit. -/
def underscoresAllowed (cs : List Char) : Bool :=
  let body := if cs.head? = some '-' ∨ cs.head? = some '+' then cs.tail else cs
  match body with
  | '0' :: m :: rest =>
    let mark := lowerAscii m
    if mark = 'b' ∨ mark = 'o' ∨ mark = 'x' then underscoresFit (mark = 'x') .digit rest
    else underscoresFit false .other body
  | _ => underscoresFit false .other body

/-- The real `value · base^exponent` as a double, for a base of two or ten. A decimal that is far
beyond all doubles on either side is settled without computing its power. -/
def scaledReal (negative : Bool) (base value : Nat) (exponent : Int) : Except NumberFault Float :=
  if value == 0 then .ok (ofMagnitude negative 0)
  else
    let span : Int := Nat.log2 value + 1
    if exponent < -2000 - span then .ok (ofMagnitude negative 0)
    else if 2000 < exponent then .error .outOfRange
    else
      let bits := nearestBits (value * base.pow exponent.toNat) (base.pow (-exponent).toNat)
      if infinityBits ≤ bits then .error .outOfRange else .ok (ofMagnitude negative bits)

/-- The names of the reals that are no decimals; only an infinity may have a sign. -/
def namedReal? (cs : List Char) : Option Float :=
  let l := cs.map lowerAscii
  let infinite := fun t : List Char => t == "inf".toList || t == "infinity".toList
  if l == "nan".toList then some (Float.ofBits 0x7FF8000000000001)
  else match l with
    | '+' :: t => if infinite t then some (ofMagnitude false infinityBits) else none
    | '-' :: t => if infinite t then some (ofMagnitude true infinityBits) else none
    | t => if infinite t then some (ofMagnitude false infinityBits) else none

/-- Reads a decimal or hexadecimal real. A hexadecimal one must have a binary exponent. -/
def readNumeral (cs : List Char) : Except NumberFault Float :=
  let negative := cs.head? = some '-'
  let body := if negative ∨ cs.head? = some '+' then cs.tail else cs
  let hexadecimal := match body with
    | '0' :: m :: _ :: _ => lowerAscii m = 'x'
    | _ => false
  let s := readSignificand hexadecimal {} (if hexadecimal then body.drop 2 else body)
  let finish (exponent : Int) (underscores : Bool) (rest : List Char) : Except NumberFault Float :=
    if !rest.isEmpty || ((s.sawUnderscore || underscores) && !underscoresAllowed cs) then
      .error .malformed
    else if hexadecimal then scaledReal negative 2 s.value (exponent - 4 * s.fractionDigits)
    else scaledReal negative 10 s.value (exponent - s.fractionDigits)
  if !s.sawDigit then .error .malformed
  else match s.rest with
    | c :: rest =>
      if lowerAscii c = (if hexadecimal then 'p' else 'e') then
        match readExponent? rest with
        | some (e, u, left) => finish e u left
        | none => .error .malformed
      else .error .malformed
    | [] => if hexadecimal then .error .malformed else finish 0 false []

/-- Reads a real. -/
def readReal (cs : List Char) : Except NumberFault Float :=
  match namedReal? cs with
  | some x => .ok x
  | none => readNumeral cs

end Smpl.Numeric

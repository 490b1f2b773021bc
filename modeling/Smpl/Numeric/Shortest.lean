import Smpl.Numeric.Binary64

/-!
# The shortest decimal that reads back

A finite positive double is the nearest double to every real of an interval around it. Of the
decimals in that interval, `shortest` takes one with the fewest digits, and of those the one nearest
to the double; two equally near ones are decided for the even last digit.

For one, two, … seventeen digits only the two neighbours of the double on that decimal grid are
tried: if any decimal of the grid lies in the interval, so does one of the two.
-/

namespace Smpl.Numeric

/-- A decimal `0.d₁d₂… · 10^(exponent + 1)`, that is `d₁.d₂… · 10^exponent`. -/
structure Decimal where
  digits : List Nat
  exponent : Int
  deriving DecidableEq, Repr

/-- A power of ten. -/
def tenTo (n : Nat) : Nat := Nat.pow 10 n

/-- Whether `10 ^ e ≤ num / den`. -/
def powerOfTenLe (e : Int) (num den : Nat) : Bool := den * tenTo e.toNat ≤ num * tenTo (-e).toNat

/-- The exponent `e` with `10 ^ e ≤ num / den < 10 ^ (e + 1)`, for positive `num` and `den`. -/
def decimalExponent (num den : Nat) : Int :=
  let guess := (binaryExponent num den * 30103) / 100000
  if powerOfTenLe (guess + 1) num den then guess + 1
  else if powerOfTenLe guess num den then guess
  else guess - 1

/-- The decimal digits of a natural number, most significant first. -/
def decimalDigits (n : Nat) : List Nat := (Nat.toDigits 10 n).map fun c => c.toNat - 48

/-- The digits without zeros at their end. -/
def dropTrailingZeros (ds : List Nat) : List Nat := (ds.reverse.dropWhile (· == 0)).reverse

/-- The interval of reals that round to `m · 2^q`, in quarters of `2^q`: its lower end, its upper
end, and whether the ends belong to it. Below a power of two the doubles are twice as dense. -/
structure Interval where
  low : Nat
  high : Nat
  closed : Bool

/-- The interval of the double `m · 2^q`. -/
def Interval.around (m : Nat) (q : Int) : Interval :=
  { low := if m == leastNormal && q != -1074 then 4 * m - 1 else 4 * m - 2
    high := 4 * m + 2
    closed := m % 2 == 0 }

/-- Whether `d · 10^k` lies in the interval, whose unit is `2^u`. -/
def Interval.holds (i : Interval) (u : Int) (d : Nat) (k : Int) : Bool :=
  let x := d * tenTo k.toNat * twoTo (-u).toNat
  let scale := tenTo (-k).toNat * twoTo u.toNat
  if i.closed then i.low * scale ≤ x && x ≤ i.high * scale
  else i.low * scale < x && x < i.high * scale

/-- Of the two neighbours of `4m · 2^u` on the grid of `10^k` that lie in the interval, the nearer;
an even one where both are equally near. -/
def neighbour (m : Nat) (i : Interval) (u k : Int) : Option Nat :=
  let num := 4 * m * twoTo u.toNat * tenTo (-k).toNat
  let den := twoTo (-u).toNat * tenTo k.toNat
  let below := num / den
  let rest := 2 * (num % den)
  let lowerIn := i.holds u below k
  let upperIn := i.holds u (below + 1) k
  if lowerIn && upperIn then
    if rest < den then some below
    else if den < rest then some (below + 1)
    else some (below + below % 2)
  else if lowerIn then some below
  else if upperIn then some (below + 1)
  else none

/-- Tries the grids of the next `tries` digit counts, coarsest first. -/
def searchGrids (m : Nat) (i : Interval) (u : Int) : Nat → Int → Nat × Int
  | 0, k => (4 * m * twoTo u.toNat * tenTo (-k).toNat / (twoTo (-u).toNat * tenTo k.toNat), k)
  | tries + 1, k =>
    match neighbour m i u k with
    | some d => (d, k)
    | none => searchGrids m i u tries (k - 1)

/-- The shortest decimal that reads back as the positive double `m · 2^q`. -/
def shortest (m : Nat) (q : Int) : Decimal :=
  let first := decimalExponent (m * twoTo q.toNat) (twoTo (-q).toNat)
  let (d, k) := searchGrids m (.around m q) (q - 2) 17 first
  let ds := decimalDigits d
  { digits := dropTrailingZeros ds, exponent := k + (ds.length - 1 : Nat) }

end Smpl.Numeric

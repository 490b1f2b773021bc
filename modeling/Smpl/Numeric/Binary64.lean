/-!
# Binary64 numbers as exact values

A finite double is `m · 2^q` for a natural significand `m` and an integer `q`. This module
* takes a double apart into sign, significand and exponent (`Parts`);
* rounds an exact quotient to the nearest double, ties to the even significand (`nearestBits`);
* gives the remainder of a division exactly (`remainder`).

Everything is computed on `Nat`, so the rounding is visible to a proof.
-/

namespace Smpl.Numeric

/-- A power of two. -/
def twoTo (n : Nat) : Nat := Nat.pow 2 n

/-- The least significand of fifty-three bits: `2^52`. Smaller ones belong to the doubles next to
zero, whose exponent is the least. -/
def leastNormal : Nat := 0x10000000000000

/-- The bit of the sign: `2^63`. -/
def signBit : Nat := 0x8000000000000000

/-- A double taken apart: `±m · 2^q`, an infinity, or no number. -/
inductive Parts where
  | finite (negative : Bool) (m : Nat) (q : Int)
  | infinite (negative : Bool)
  | nan
  deriving DecidableEq, Repr

/-- The parts of a double given by its bits: one sign bit, eleven exponent bits with bias 1075 for
an integral significand, fifty-two fraction bits. -/
def Parts.ofBits (bits : UInt64) : Parts :=
  let n := bits.toNat
  let negative := n / signBit == 1
  let field : Nat := n / leastNormal % 2048
  let fraction := n % leastNormal
  if field == 2047 then (if fraction == 0 then .infinite negative else .nan)
  else if field == 0 then .finite negative fraction (-1074)
  else .finite negative (leastNormal + fraction) ((field : Int) - 1075)

/-- The parts of a double. -/
def Parts.ofFloat (x : Float) : Parts := .ofBits x.toBits

/-- The bits of positive infinity, which are also the least bits that no finite double has. -/
def infinityBits : Nat := 2047 * leastNormal

/-- The quotient `num / (den · 2^q)` rounded to a natural number, ties to even. -/
def divideToEven (num den : Nat) (q : Int) : Nat :=
  let n := num * twoTo (-q).toNat
  let d := den * twoTo q.toNat
  let floor := n / d
  let rest := 2 * (n % d)
  if rest < d then floor else if d < rest then floor + 1 else floor + floor % 2

/-- Whether `2 ^ e ≤ num / den`. -/
def powerOfTwoLe (e : Int) (num den : Nat) : Bool := den * twoTo e.toNat ≤ num * twoTo (-e).toNat

/-- The exponent `e` with `2 ^ e ≤ num / den < 2 ^ (e + 1)`, for positive `num` and `den`. -/
def binaryExponent (num den : Nat) : Int :=
  let guess : Int := (Nat.log2 num : Int) - (Nat.log2 den : Int)
  if powerOfTwoLe guess num den then guess else guess - 1

/-- The bits of the positive double nearest to `num / den`; of two equally near doubles the one
with the even significand. A quotient too large for any double gives infinity. -/
def nearestBits (num den : Nat) : Nat :=
  if num == 0 || den == 0 then 0
  else
    let q := max (binaryExponent num den - 52) (-1074)
    let m := divideToEven num den q
    if m < leastNormal then m
    else min ((q + 1075).toNat * leastNormal + (m - leastNormal)) infinityBits

/-- The double with the given magnitude bits and sign. -/
def ofMagnitude (negative : Bool) (bits : Nat) : Float :=
  Float.ofBits (UInt64.ofNat (if negative then signBit + bits else bits))

/-- The remainder of a division truncated toward zero. It is exact, and it has the sign of the
dividend. An infinite dividend, a zero divisor and a missing number have no remainder; an infinite
divisor leaves the dividend as it is. -/
def remainder (x y : Float) : Float :=
  match Parts.ofFloat x, Parts.ofFloat y with
  | .finite negative m q, .finite _ k p =>
    if k == 0 then Float.ofBits 0x7FF8000000000001
    else
      let low := min q p
      let rest := (m * twoTo (q - low).toNat) % (k * twoTo (p - low).toNat)
      ofMagnitude negative (nearestBits (rest * twoTo low.toNat) (twoTo (-low).toNat))
  | .finite _ _ _, .infinite _ => x
  | _, _ => Float.ofBits 0x7FF8000000000001

/-- The integer part of a real as a 64-bit integer. A real whose integer part has no such form
gives the least integer. -/
def truncateToInt64 (x : Float) : Int64 :=
  match Parts.ofFloat x with
  | .finite negative m q =>
    let magnitude : Int := (m * twoTo q.toNat / twoTo (-q).toNat : Nat)
    let value := if negative then -magnitude else magnitude
    if Int64.minValue.toInt ≤ value ∧ value ≤ Int64.maxValue.toInt then Int64.ofInt value
    else Int64.minValue
  | _ => Int64.minValue

end Smpl.Numeric

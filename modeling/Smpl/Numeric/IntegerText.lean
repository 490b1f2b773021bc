/-!
# Integers as text

A 64-bit integer is read from an optional sign and at least one decimal digit. Text of another form
is malformed; text of this form whose value does not fit is out of range. The digits are read from
the left, and a value beyond all 64-bit words is out of range at once, whatever follows.
-/

namespace Smpl.Numeric

/-- Why a number could not be read. -/
inductive NumberFault where
  | malformed
  | outOfRange
  deriving DecidableEq, Repr

/-- The least natural number that is no 64-bit word: `2^64`. -/
def wordBound : Nat := 0x10000000000000000

/-- The magnitude of the least 64-bit integer: `2^63`. -/
def int64Bound : Nat := 0x8000000000000000

/-- The value of a decimal digit. -/
def digitValue? (c : Char) : Option Nat :=
  if '0' ≤ c ∧ c ≤ '9' then some (c.toNat - 48) else none

/-- Reads decimal digits after a value already read. -/
def readDigits : Nat → List Char → Except NumberFault Nat
  | n, [] => .ok n
  | n, c :: rest =>
    match digitValue? c with
    | none => .error .malformed
    | some d =>
      let next := 10 * n + d
      if wordBound ≤ next then .error .outOfRange else readDigits next rest

/-- Reads one or more decimal digits. -/
def readUnsigned (cs : List Char) : Except NumberFault Nat :=
  if cs.isEmpty then .error .malformed else readDigits 0 cs

/-- Reads a signed 64-bit integer in decimal. -/
def readInt64 (cs : List Char) : Except NumberFault Int64 :=
  match cs with
  | '-' :: rest => do
    let n ← readUnsigned rest
    if int64Bound < n then .error .outOfRange else .ok (Int64.ofInt (-(n : Int)))
  | _ => do
    let n ← readUnsigned (if cs.head? = some '+' then cs.tail else cs)
    if int64Bound ≤ n then .error .outOfRange else .ok (Int64.ofInt n)

/-- The decimal form of an integer. -/
def integerText (n : Int64) : String := toString n.toInt

end Smpl.Numeric

import Smpl.Numeric.Binary64
import Smpl.Value.Equality
import Smpl.Value.Failure

/-!
# Operators

Binary and unary operators on values. An operator gives the contents of a new value, or a failure:
* arithmetic on two integers wraps at 64 bits; with a real on either side both are reals;
* division of integers goes toward zero, and the remainder has the sign of the dividend;
* an integer to a non-negative integer power is an integer, every other power is a real;
* strings are ordered by code points, numbers as numbers, and NaN is in no order;
* `and` and `or` take booleans only, the bitwise operators integers only.

The left operand is examined before the right one.
-/

namespace Smpl

/-- A binary operator. -/
inductive BinaryOp where
  | add
  | sub
  | mul
  | div
  | mod
  | pow
  | equal
  | notEqual
  | less
  | lessEqual
  | greater
  | greaterEqual
  | and
  | or
  | bitAnd
  | bitOr
  deriving DecidableEq, Repr

/-- The symbol of a binary operator. -/
def BinaryOp.symbol : BinaryOp → String
  | .add => "+"
  | .sub => "-"
  | .mul => "*"
  | .div => "/"
  | .mod => "%"
  | .pow => "^"
  | .equal => "="
  | .notEqual => "!="
  | .less => "<"
  | .lessEqual => "<="
  | .greater => ">"
  | .greaterEqual => ">="
  | .and => "and"
  | .or => "or"
  | .bitAnd => "&"
  | .bitOr => "|"

/-- All binary operators. -/
def BinaryOp.all : List BinaryOp :=
  [.add, .sub, .mul, .div, .mod, .pow, .equal, .notEqual, .less, .lessEqual, .greater,
    .greaterEqual, .and, .or, .bitAnd, .bitOr]

/-- The binary operator of a symbol. -/
def BinaryOp.ofSymbol? (symbol : String) : Option BinaryOp :=
  BinaryOp.all.find? fun op => op.symbol == symbol

/-- Two numbers brought to a common form. -/
inductive Numbers where
  | integers (l r : Int64)
  | reals (x y : Float)

/-- One number of an operation. -/
inductive Number where
  | integer (n : Int64)
  | real (x : Float)

/-- A number as a real. -/
def Number.toReal : Number → Float
  | .integer n => n.toFloat
  | .real x => x

/-- The number that an operand holds. -/
def Value.number (operation : String) : Value → Except Failure Number
  | .scalar _ (.integer n) => .ok (.integer n)
  | .scalar _ (.real x) => .ok (.real x)
  | v => .error (.kindOf operation v [.integer, .real])

/-- The numbers of an operation; one real makes both reals. -/
def numbers (operation : String) (left right : Value) : Except Failure Numbers := do
  let l ← left.number operation
  let r ← right.number operation
  match l, r with
  | .integer m, .integer n => pure (.integers m n)
  | l, r => pure (.reals l.toReal r.toReal)

/-- An operation with one rule for integers and one for reals. -/
def arithmetic (operation : String) (onIntegers : Int64 → Int64 → Except Failure Scalar)
    (onReals : Float → Float → Except Failure Scalar) (left right : Value) :
    Except Failure Scalar := do
  match ← numbers operation left right with
  | .integers l r => onIntegers l r
  | .reals x y => onReals x y

/-- A power on its way: `result` is what is multiplied together so far, and `base` to the `exponent`
is still missing. -/
structure PowerLoop where
  result : Int64
  base : Int64
  exponent : Int64

namespace PowerLoop

/-- One turn: if the exponent is odd, the base goes into the result; then the base is squared and the
exponent is halved. -/
def turn (s : PowerLoop) : PowerLoop where
  result := if s.exponent &&& 1 = 1 then s.result * s.base else s.result
  base := s.base * s.base
  exponent := s.exponent >>> 1

theorem toInt_turn_exponent (s : PowerLoop) : s.turn.exponent.toInt = s.exponent.toInt / 2 := by
  have shifted : s.turn.exponent.toBitVec = s.exponent.toBitVec.sshiftRight 1 :=
    Int64.toBitVec_shiftRight s.exponent 1
  have halved := congrArg BitVec.toInt shifted
  rwa [BitVec.toInt_sshiftRight, Int.shiftRight_eq_div_pow] at halved

/-- Turns as long as the exponent is positive. -/
def run (s : PowerLoop) : Int64 :=
  if 0 < s.exponent then s.turn.run else s.result
termination_by s.exponent.toInt.toNat
decreasing_by
  next positive =>
    have halved := s.toInt_turn_exponent
    have : 0 < s.exponent.toInt := Int64.lt_iff_toInt_lt.mp positive
    omega

end PowerLoop

/-- A power of integers: an integer for a non-negative exponent, and a real otherwise. -/
def integerPower (base exponent : Int64) : Scalar :=
  if exponent < 0 then .real (base.toFloat ^ exponent.toFloat)
  else .integer (PowerLoop.run ⟨1, base, exponent⟩)

/-- How two reals are ordered; NaN is in no order. -/
def realOrder? (x y : Float) : Option Ordering :=
  if x < y then some .lt else if y < x then some .gt else if x == y then some .eq else none

/-- How two strings are ordered. -/
def textOrder (s t : String) : Ordering :=
  if s < t then .lt else if s = t then .eq else .gt

/-- How two integers are ordered. -/
def integerOrder (l r : Int64) : Ordering :=
  if l < r then .lt else if l = r then .eq else .gt

/-- How two strings or two numbers are ordered. -/
def order? (operation : String) (left right : Value) : Except Failure (Option Ordering) :=
  match left with
  | .scalar _ (.string s) =>
    match right with
    | .scalar _ (.string t) => .ok (some (textOrder s t))
    | v => .error (.kindOf operation v [.string])
  | _ => do
    match ← numbers operation left right with
    | .integers l r => pure (some (integerOrder l r))
    | .reals x y => pure (realOrder? x y)

/-- A relation given by the orders in which it holds. -/
def relation (operation : String) (holds : List Ordering) (left right : Value) :
    Except Failure Scalar := do
  match ← order? operation left right with
  | some o => pure (.boolean (holds.contains o))
  | none => pure (.boolean false)

/-- The boolean that an operand holds. -/
def Value.truth (operation : String) : Value → Except Failure Bool
  | .scalar _ (.boolean b) => .ok b
  | v => .error (.kindOf operation v [.boolean])

/-- The integer that an operand holds. -/
def Value.int (operation : String) : Value → Except Failure Int64
  | .scalar _ (.integer n) => .ok n
  | v => .error (.kindOf operation v [.integer])

/-- An operation on two booleans. -/
def logical (operation : String) (f : Bool → Bool → Bool) (left right : Value) :
    Except Failure Scalar := do
  let l ← left.truth operation
  let r ← right.truth operation
  pure (.boolean (f l r))

/-- An operation on the bits of two integers. -/
def bitwise (operation : String) (f : Int64 → Int64 → Int64) (left right : Value) :
    Except Failure Scalar := do
  let l ← left.int operation
  let r ← right.int operation
  pure (.integer (f l r))

/-- A quotient; the divisor must not be zero. -/
def quotient : Value → Value → Except Failure Scalar :=
  arithmetic "/"
    (fun l r => if r = 0 then .error .divisionByZero else .ok (.integer (l / r)))
    (fun x y => if y == 0 then .error .divisionByZero else .ok (.real (x / y)))

/-- A remainder; the divisor must not be zero. -/
def modulus : Value → Value → Except Failure Scalar :=
  arithmetic "%"
    (fun l r => if r = 0 then .error .moduloByZero else .ok (.integer (l % r)))
    (fun x y => if y == 0 then .error .moduloByZero else .ok (.real (Numeric.remainder x y)))

/-- Applies a binary operator. -/
def BinaryOp.apply (vectors : Vectors) (op : BinaryOp) (left right : Value) :
    Except Failure Scalar :=
  match op with
  | .add =>
    arithmetic "+" (fun l r => .ok (.integer (l + r))) (fun x y => .ok (.real (x + y))) left right
  | .sub =>
    arithmetic "-" (fun l r => .ok (.integer (l - r))) (fun x y => .ok (.real (x - y))) left right
  | .mul =>
    arithmetic "*" (fun l r => .ok (.integer (l * r))) (fun x y => .ok (.real (x * y))) left right
  | .div => quotient left right
  | .mod => modulus left right
  | .pow =>
    arithmetic "^" (fun l r => .ok (integerPower l r)) (fun x y => .ok (.real (x ^ y))) left right
  | .equal => .ok (.boolean (left.equal vectors right))
  | .notEqual => .ok (.boolean (!left.equal vectors right))
  | .less => relation "<" [.lt] left right
  | .lessEqual => relation "<=" [.lt, .eq] left right
  | .greater => relation ">" [.gt] left right
  | .greaterEqual => relation ">=" [.gt, .eq] left right
  | .and => logical "and" (· && ·) left right
  | .or => logical "or" (· || ·) left right
  | .bitAnd => bitwise "&" (· &&& ·) left right
  | .bitOr => bitwise "|" (· ||| ·) left right

/-- Applies the binary operator of a symbol. -/
def applyBinary (vectors : Vectors) (symbol : String) (left right : Value) :
    Except Failure Scalar :=
  match BinaryOp.ofSymbol? symbol with
  | some op => op.apply vectors left right
  | none => .error (.unknownBinary symbol)

/-- Applies the unary operator of a symbol. -/
def applyUnary (symbol : String) (operand : Value) : Except Failure Scalar :=
  if symbol = notSymbol then do
    let b ← operand.truth notSymbol
    pure (.boolean (!b))
  else if symbol = complementSymbol then do
    let n ← operand.int complementSymbol
    pure (.integer (~~~n))
  else .error (.unknownUnary symbol)

end Smpl

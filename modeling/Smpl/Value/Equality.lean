import Smpl.Value.Basic

/-!
# Equality of values

Scalars are equal by their contents, pairs and lists by their parts, vectors by their slots;
closures and generators are equal only to themselves. Values of different kinds are never equal.

A vector may hold itself, so a comparison keeps the pairs of vectors that it is comparing
(`Comparing`). Reaching such a pair again, it takes the two for equal. The pair is struck off when
its comparison ends, whatever the outcome.

The comparison takes a bound on how deep vectors are nested in it, and gives no answer when the
bound is too small. Each level puts a new pair of vectors into the table, so the square of the
number of vectors, and one more, is bound enough (`equalBound`).
-/

namespace Smpl

/-- The pairs of vectors that are being compared. -/
abbrev Comparing := List (VectorId × VectorId)

/-- The outcome of a comparison: the answer and the table after it, or nothing when the bound was
too small. -/
abbrev EqualOutcome := Option (Bool × Comparing)

/-- Whether two scalars have the same contents. Reals are compared as numbers. -/
def Scalar.equal : Scalar → Scalar → Bool
  | .integer m, .integer n => m == n
  | .real x, .real y => x == y
  | .boolean a, .boolean b => a == b
  | .string s, .string t => s == t
  | _, _ => false

namespace Value

/-- Compares two values; `visit` compares two vectors. -/
def equalBy (visit : VectorId → VectorId → Comparing → EqualOutcome) :
    Value → Value → Comparing → EqualOutcome
  | .scalar _ a, .scalar _ b, table => some (a.equal b, table)
  | .pair _ a b, .pair _ c d, table =>
    match equalBy visit a c table with
    | some (true, table') => equalBy visit b d table'
    | outcome => outcome
  | .cell _ a b, .cell _ c d, table =>
    match equalBy visit a c table with
    | some (true, table') => equalBy visit b d table'
    | outcome => outcome
  | .vector l, .vector r, table => visit l r table
  | v, w, table => some (v.identical w, table)

/-- Compares values slot by slot and stops at the first difference. -/
def equalAll (compare : Value → Value → Comparing → EqualOutcome) :
    List Value → List Value → Comparing → EqualOutcome
  | [], [], table => some (true, table)
  | v :: vs, w :: ws, table =>
    match compare v w table with
    | some (true, table') => equalAll compare vs ws table'
    | outcome => outcome
  | _, _, table => some (false, table)

/-- Compares two vectors; `compare` compares their slots. -/
def equalVectors (vectors : Vectors) (compare : Value → Value → Comparing → EqualOutcome)
    (l r : VectorId) (table : Comparing) : EqualOutcome :=
  let left := (vectors.slots l).toList
  let right := (vectors.slots r).toList
  if left.length ≠ right.length then some (false, table)
  else if l = r then some (true, table)
  else if (l, r) ∈ table then some (true, table)
  else
    match equalAll compare left right ((l, r) :: table) with
    | some (answer, table') => some (answer, table'.erase (l, r))
    | none => none

/-- Compares two values with at most `bound` vectors nested in each other. -/
def equalWithin (vectors : Vectors) : Nat → Value → Value → Comparing → EqualOutcome
  | 0 => equalBy fun _ _ _ => none
  | bound + 1 => equalBy (equalVectors vectors (equalWithin vectors bound))

/-- A depth of nesting that no comparison over these vectors exceeds. -/
def equalBound (vectors : Vectors) : Nat := vectors.size * vectors.size + 1

/-- Whether two values are equal. -/
def equal (vectors : Vectors) (v w : Value) : Bool :=
  match equalWithin vectors (equalBound vectors) v w [] with
  | some (answer, _) => answer
  | none => false

end Value

end Smpl

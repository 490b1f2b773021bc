import Smpl.Program.Render
import Smpl.Value.Basic

/-!
# Printed values

Numbers, booleans and strings print as they are; `(a . b)` is a pair, `(a b c)` a list, `[a, b]` a
vector; closures and generators print in brackets with their name.

A vector may hold itself, so printing keeps the vectors that it is inside of. A vector reached again
inside itself prints as `[...]`. The vector is struck off when its own printing ends, so a vector
that is merely shared prints in full each time.

As in the comparison of values, a bound on the nesting of vectors makes printing total; there are no
more levels than vectors (`formatBound`).
-/

namespace Smpl

/-- The vectors that are being printed. -/
abbrev Printing := List VectorId

/-- The outcome of printing: the text and the table after it, or nothing when the bound was too
small. -/
abbrev FormatOutcome := Option (String × Printing)

/-- The printed form of a scalar. -/
def Scalar.format : Scalar → String
  | .integer n => Numeric.integerText n
  | .real x => Numeric.realText x
  | .boolean b => if b then "true" else "false"
  | .string s => s

/-- The printed form of a closure: its parameters and its body. -/
def Procedure.format (p : Procedure) : String :=
  "[Procedure: (" ++ renderParameters p.parameters p.restName? ++ ") -> " ++
    (match p.declaration with
      | some d => d.body.render
      | none => "") ++ "]"

namespace Value

/-- The end of a list that is no list stands after a dot. -/
def dotted (inTail : Bool) (text : String) : String := if inTail then " . " ++ text else text

/-- Prints a value; `visit` prints a vector. As the tail of a list (`inTail`) a value prints as the
list goes on: further elements after a blank, the end as nothing, anything else after a dot. -/
def formatBy (visit : VectorId → Printing → FormatOutcome) :
    Bool → Value → Printing → FormatOutcome
  | inTail, .cell _ head tail, table =>
    match formatBy visit false head table with
    | none => none
    | some (h, table') =>
      match formatBy visit true tail table' with
      | none => none
      | some (t, table'') =>
        some (if inTail then " " ++ h ++ t else "(" ++ h ++ t ++ ")", table'')
  | inTail, .empty, table => some (if inTail then "" else "()", table)
  | inTail, .pair _ first second, table =>
    match formatBy visit false first table with
    | none => none
    | some (f, table') =>
      match formatBy visit false second table' with
      | none => none
      | some (s, table'') => some (dotted inTail ("(" ++ f ++ " . " ++ s ++ ")"), table'')
  | inTail, .vector id, table =>
    match visit id table with
    | none => none
    | some (t, table') => some (dotted inTail t, table')
  | inTail, .nothing, table => some (dotted inTail "<nil>", table)
  | inTail, .scalar _ contents, table => some (dotted inTail contents.format, table)
  | inTail, .generator _ count _, table =>
    some (dotted inTail ("[VectorGenerator: " ++ Numeric.integerText count ++ "]"), table)
  | inTail, .procedure p, table => some (dotted inTail p.format, table)

/-- Prints values in order. -/
def formatAll (print : Value → Printing → FormatOutcome) :
    List Value → Printing → Option (List String × Printing)
  | [], table => some ([], table)
  | v :: vs, table =>
    match print v table with
    | none => none
    | some (t, table') =>
      match formatAll print vs table' with
      | none => none
      | some (ts, table'') => some (t :: ts, table'')

/-- Prints a vector; `print` prints its slots. -/
def formatVector (vectors : Vectors) (print : Value → Printing → FormatOutcome)
    (id : VectorId) (table : Printing) : FormatOutcome :=
  if id ∈ table then some ("[...]", table)
  else
    match formatAll print (vectors.slots id).toList (id :: table) with
    | some (texts, table') => some ("[" ++ ", ".intercalate texts ++ "]", table'.erase id)
    | none => none

/-- Prints a value with at most `bound` vectors nested in each other. -/
def formatWithin (vectors : Vectors) : Nat → Value → Printing → FormatOutcome
  | 0 => formatBy (fun _ _ => none) false
  | bound + 1 => formatBy (formatVector vectors (formatWithin vectors bound)) false

/-- A depth of nesting that no value over these vectors exceeds. -/
def formatBound (vectors : Vectors) : Nat := vectors.size + 2

/-- The printed form of a value. -/
def format (vectors : Vectors) (v : Value) : String :=
  match formatWithin vectors (formatBound vectors) v [] with
  | some (text, _) => text
  | none => ""

end Value

end Smpl

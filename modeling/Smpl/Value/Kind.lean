/-!
# Kinds of values

Every value has one of ten kinds. Messages name a kind by its word; a number that stands for no kind
has a word of its own.
-/

namespace Smpl

/-- The kind of a value. -/
inductive Kind where
  | integer
  | real
  | boolean
  | string
  | pair
  | list
  | emptyList
  | vector
  | generator
  | procedure
  deriving DecidableEq, Repr

/-- The word for a kind. -/
def Kind.text : Kind → String
  | .integer => "integer"
  | .real => "real"
  | .boolean => "boolean"
  | .string => "string"
  | .pair => "pair"
  | .list => "list"
  | .emptyList => "empty_list"
  | .vector => "vector"
  | .generator => "vector_generator"
  | .procedure => "procedure"

/-- The kinds in the order of their numbers. -/
def Kind.all : List Kind :=
  [.integer, .real, .boolean, .string, .pair, .list, .emptyList, .vector, .generator, .procedure]

/-- The word for the kind of a number, counted from zero. -/
def Kind.textOfNumber (n : Int64) : String :=
  match if n < 0 then none else Kind.all[n.toInt.toNat]? with
  | some kind => kind.text
  | none => "unknown_kind_" ++ toString n.toInt

end Smpl

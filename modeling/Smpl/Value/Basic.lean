import Smpl.Program.Basic
import Smpl.Value.Kind

/-!
# Values

Values are objects: two values with the same contents may be different objects, and programs can
tell them apart. So every value carries the number of the object that it is, except the empty list,
of which there is one, and a vector, which is the number of its place in the vector store. `nothing`
is the absence of a value; programs read from text never get hold of it.

Pairs and list cells cannot change, so a value is a finite tree down to its vectors. Vectors can
change and can hold themselves; their slots are in the store (`Vectors`), not in the value.
-/

namespace Smpl

/-- The number of an object. -/
abbrev ObjectId := Nat

/-- The number of a scope. -/
abbrev ScopeId := Nat

/-- The place of a vector in the vector store. -/
abbrev VectorId := Nat

/-- What a procedure was declared as. -/
structure Declaration where
  parameters : List String
  rest : Option String
  body : Expr
  deriving Inhabited

/-- The name of the rest parameter; an empty name counts as none. -/
def Declaration.restName? (d : Declaration) : Option String :=
  match d.rest with
  | some name => if name = "" then none else some name
  | none => none

/-- A closure: a declaration and the scope it was made in. One made by hand may lack either. -/
structure Procedure where
  id : ObjectId
  declaration : Option Declaration
  scope : Option ScopeId
  deriving Inhabited

/-- The names of the parameters of a procedure. -/
def Procedure.parameters (p : Procedure) : List String :=
  match p.declaration with
  | some d => d.parameters
  | none => []

/-- The name of the rest parameter of a procedure, if it has one. -/
def Procedure.restName? (p : Procedure) : Option String :=
  match p.declaration with
  | some d => d.restName?
  | none => none

/-- A value. -/
inductive Value where
  /-- No value. -/
  | nothing
  /-- An integer, real, boolean or string. -/
  | scalar (id : ObjectId) (contents : Scalar)
  /-- The empty list. -/
  | empty
  /-- Two values that form no list. -/
  | pair (id : ObjectId) (first second : Value)
  /-- A list: its head and its tail. -/
  | cell (id : ObjectId) (head tail : Value)
  /-- A vector of the store. -/
  | vector (id : VectorId)
  /-- A number of vector elements still to be made by a procedure. -/
  | generator (id : ObjectId) (count : Int64) (source : Option Procedure)
  /-- A closure. -/
  | procedure (closure : Procedure)
  deriving Inhabited

/-- The kind of a scalar. -/
def Scalar.kind : Scalar → Kind
  | .integer _ => .integer
  | .real _ => .real
  | .boolean _ => .boolean
  | .string _ => .string

namespace Value

/-- The kind of a value; the absence of a value has none. -/
def kind? : Value → Option Kind
  | .nothing => none
  | .scalar _ contents => some contents.kind
  | .empty => some .emptyList
  | .pair _ _ _ => some .pair
  | .cell _ _ _ => some .list
  | .vector _ => some .vector
  | .generator _ _ _ => some .generator
  | .procedure _ => some .procedure

/-- Whether two values are the same object. -/
def identical : Value → Value → Bool
  | .nothing, .nothing => true
  | .scalar i _, .scalar j _ => i == j
  | .empty, .empty => true
  | .pair i _ _, .pair j _ _ => i == j
  | .cell i _ _, .cell j _ _ => i == j
  | .vector i, .vector j => i == j
  | .generator i _ _, .generator j _ _ => i == j
  | .procedure p, .procedure q => p.id == q.id
  | _, _ => false

/-- Whether a value is a list, empty or not. -/
def isListLike : Value → Bool
  | .cell _ _ _ => true
  | .empty => true
  | _ => false

/-- The list of some values; its cells are numbered from `id` on. -/
def listFrom : ObjectId → List Value → Value
  | _, [] => .empty
  | id, v :: rest => .cell id v (listFrom (id + 1) rest)

/-- A head before a tail: a list when the tail is one, and a pair otherwise. -/
def cons (id : ObjectId) (head tail : Value) : Value :=
  if tail.isListLike then .cell id head tail else .pair id head tail

/-- The elements of a list, or what stands in place of a list at the end of the tails. -/
def elements : Value → Except Value (List Value)
  | .empty => .ok []
  | .cell _ head tail =>
    match tail.elements with
    | .ok rest => .ok (head :: rest)
    | .error v => .error v
  | v => .error v

end Value

/-- The slots of every vector, by the place of the vector. -/
abbrev Vectors := Array (Array Value)

/-- The slots of a vector; a place that holds none has no slots. -/
def Vectors.slots (vectors : Vectors) (id : VectorId) : Array Value := vectors.getD id #[]

end Smpl

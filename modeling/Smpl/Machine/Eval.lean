import Smpl.Machine.Basic

/-!
# Evaluation

`step` says how each expression is evaluated when its parts can be: one rule for each form, in terms
of an evaluator for the parts. `evalWithin` ties the knot with a bound on the depth of nesting, and
fails with `Failure.tooDeep` when the bound is reached; any larger bound gives the same outcome as
one that sufficed.

Rules that hold throughout:
* parts are evaluated from left to right, and the first failure ends the evaluation;
* a definition computes all its values before it binds a name;
* a call evaluates and checks the callee, then the arguments; the body runs in a new scope under the
  scope of the closure;
* an assignment to a slot finds the slot before it computes the value.
-/

namespace Smpl

/-- How expressions are evaluated in a scope. -/
abbrev Evaluator := Expr → ScopeId → Machine Value

namespace Eval

/-! ## Parts -/

/-- Evaluates expressions in order. -/
def evalAll (eval : Evaluator) (env : ScopeId) : List Expr → Machine (List Value)
  | [] => pure []
  | e :: rest => do
    let v ← eval e env
    let vs ← evalAll eval env rest
    pure (v :: vs)

/-- Evaluates a condition, which must be a boolean. -/
def condition (eval : Evaluator) (operation : String) (e : Expr) (env : ScopeId) :
    Machine Bool := do
  let v ← eval e env
  Machine.lift (v.truth operation)

/-- Evaluates an operand that must be an integer. -/
def integer (eval : Evaluator) (operation : String) (e : Expr) (env : ScopeId) : Machine Int64 := do
  let v ← eval e env
  Machine.lift (v.int operation)

/-- The position that an index stands for; reals are cut off toward zero. -/
def slotPosition : Value → Except Failure Int64
  | .scalar _ (.integer n) => .ok n
  | .scalar _ (.real x) => .ok (Numeric.truncateToInt64 x)
  | v => .error (.kindOf "vector index" v [.integer, .real])

/-- The vector that a value is. -/
def vectorOf (operation : String) : Value → Except Failure VectorId
  | .vector id => .ok id
  | v => .error (.kindOf operation v [.vector])

/-- Evaluates an index, then finds the slot of the vector bound to the name. -/
def findSlot (eval : Evaluator) (name : String) (index : Expr) (env : ScopeId) :
    Machine (VectorId × Nat) := do
  let indexValue ← eval index env
  let position ← Machine.lift (slotPosition indexValue)
  let target ← Machine.lookup env name
  let id ← Machine.lift (vectorOf "vector index" target)
  let size ← Machine.vectorSize id
  if position < 0 ∨ size ≤ position.toInt.toNat then throw (.slotBounds position size name)
  else pure (id, position.toInt.toNat)

/-! ## Calls -/

/-- The log line of a call. -/
def callNote (d : Declaration) (count : Nat) : String :=
  "call procedure with " ++ toString count ++ " args (params=[" ++
    " ".intercalate d.parameters ++ "] rest=" ++ Text.quote (d.restName?.getD "") ++ ")"

/-- The scope of a call: leading parameters are bound to the arguments there are, and the rest
parameter to the list of the arguments beyond the parameters. -/
def callScope (d : Declaration) (scope : Option ScopeId) (arguments : List Value) :
    Machine ScopeId := do
  let bound := min arguments.length d.parameters.length
  let names := d.parameters.take bound
  let values := arguments.take bound
  match d.restName? with
  | none => Machine.newScope names values scope
  | some rest => do
    let surplus ← Machine.newList (arguments.drop bound)
    Machine.newScope (names ++ [rest]) (values ++ [surplus]) scope

/-- Calls a procedure. Without a rest parameter there must be no surplus arguments; missing ones
leave their parameters unbound. -/
def callProcedure (eval : Evaluator) (callee : Option Procedure) (arguments : List Value) :
    Machine Value :=
  match callee with
  | none => throw .noProcedure
  | some p =>
    match p.declaration with
    | none => throw .noProcedure
    | some d =>
      if d.parameters.length < arguments.length ∧ d.restName? = none then
        throw (.arity .procedureCall d.parameters.length arguments.length)
      else do
        let env ← callScope d p.scope arguments
        Machine.note .verbose (callNote d arguments.length)
        eval d.body env

/-- The procedure that a value is. -/
def procedureOf (operation : String) : Value → Except Failure Procedure
  | .procedure p => .ok p
  | v => .error (.kindOf operation v [.procedure])

/-- The arguments that a value holds. -/
def argumentsOf (v : Value) : Except Failure (List Value) :=
  v.elements.mapError fun other => .kindOf "list" other [.list, .emptyList]

/-! ## Vectors -/

/-- What the procedure of a generator is given for one element: the index, if it has a parameter. -/
def generatorArguments (d : Declaration) (index : Nat) : Machine (List Value) :=
  if d.parameters.length = 1 then do
    let i ← Machine.newScalar (.integer (Int64.ofNat index))
    pure [i]
  else pure []

/-- Makes the next `remaining` elements of a generator, from index `index` on. -/
def generate (eval : Evaluator) (d : Declaration) (scope : Option ScopeId) :
    Nat → Nat → Array Value → Machine (Array Value)
  | 0, _, made => pure made
  | remaining + 1, index, made => do
    let arguments ← generatorArguments d index
    let env ← Machine.newScope d.parameters arguments scope
    let v ← eval d.body env
    generate eval d scope remaining (index + 1) (made.push v)

/-- The elements of a generator after those made already. Its procedure takes the index or
nothing. There must be a procedure, and a declaration of it if there are elements to make. Room for
all of them is set aside before the first is made. -/
def expand (eval : Evaluator) (count : Int64) (source : Option Procedure) (made : Array Value) :
    Machine (Array Value) :=
  match source with
  | none => throw .outOfRange
  | some p =>
    if p.restName? ≠ none then throw (.arity .generatorRest 0 1)
    else if 1 < p.parameters.length then
      throw (.arity .generatorParameters 1 p.parameters.length)
    else if count < 0 ∨ roomLimit < count then throw (.noRoom count)
    else
      match p.declaration with
      | some d => generate eval d p.scope count.toInt.toNat 0 made
      | none => if count = 0 then pure made else throw .outOfRange

/-- Evaluates the elements of a vector, and expands generators in place. -/
def evalElements (eval : Evaluator) (env : ScopeId) :
    List Expr → Array Value → Machine (Array Value)
  | [], made => pure made
  | e :: rest, made => do
    let v ← eval e env
    match v with
    | .generator _ count source => do
      let made' ← expand eval count source made
      evalElements eval env rest made'
    | v => evalElements eval env rest (made.push v)

/-! ## Statements -/

/-- The values in the cells of a list, up to a tail that is no list. -/
def spine : Value → List Value
  | .cell _ head tail => head :: spine tail
  | _ => []

/-- A definition of names. One value for several names must be a list: its elements are bound to the
names in order, and surplus elements and names are left alone. -/
def defineNames (eval : Evaluator) (env : ScopeId) (names : List String) (values : List Expr) :
    Machine Unit :=
  match names, values with
  | _ :: _ :: _, [value] => do
    let v ← eval value env
    if v.isListLike then Machine.putAll env names (spine v)
    else throw (.arity .definition names.length 1)
  | _, _ =>
    if names.length = values.length then do
      let vs ← evalAll eval env values
      Machine.putAll env names vs
    else throw (.arity .definition names.length values.length)

/-- An assignment to a slot. -/
def assignSlot (eval : Evaluator) (env : ScopeId) (name : String) (position : Expr)
    (values : List Expr) : Machine Unit :=
  match values with
  | [value] => do
    let (id, index) ← findSlot eval name position env
    let v ← eval value env
    Machine.setSlot id index v
  | _ => throw (.arity .slotAssignment 1 values.length)

/-- Evaluates a statement. -/
def statement (eval : Evaluator) (env : ScopeId) : Stmt → Machine Value
  | .define names values => do
    defineNames eval env names values
    Machine.newScalar (.boolean true)
  | .assign name position values => do
    assignSlot eval env name position values
    Machine.newScalar (.boolean true)
  | .print value terminator => do
    let v ← eval value env
    let text ← Machine.format v
    Machine.write (text ++ terminator)
    Machine.setRegister v
    pure v
  | .eval e => eval e env

/-- Evaluates statements in order and keeps the value of each in the register. -/
def statements (eval : Evaluator) (env : ScopeId) : List Stmt → Machine Value
  | [] => Machine.register
  | s :: rest => do
    let v ← statement eval env s
    Machine.setRegister v
    statements eval env rest

/-- Evaluates a block. The register starts at an integer zero. -/
def block (eval : Evaluator) (env : ScopeId) (body : List Stmt) : Machine Value := do
  let zero ← Machine.newScalar (.integer 0)
  Machine.setRegister zero
  statements eval env body

/-! ## Expressions -/

/-- Whether the value of a condition selects its clause: a boolean says so itself, and the string
`else` always does. -/
def selects : Value → Except Failure Bool
  | .scalar _ (.boolean b) => .ok b
  | .scalar id (.string s) =>
    if s = elseCondition then .ok true
    else .error (.kindOf "case" (.scalar id (.string s)) [.boolean])
  | v => .error (.kindOf "case" v [.boolean])

/-- Evaluates a branch and keeps its value in the register. -/
def branch (eval : Evaluator) (e : Expr) (env : ScopeId) : Machine Value := do
  let v ← eval e env
  Machine.setRegister v
  pure v

/-- Tries clauses in order; when none is selected, the register is the value. -/
def select (eval : Evaluator) (env : ScopeId) : List (Expr × Expr) → Machine Value
  | [] => Machine.register
  | (condition, result) :: rest => do
    let v ← eval condition env
    let chosen ← Machine.lift (selects v)
    if chosen then branch eval result env else select eval env rest

/-- Evaluates a lazy expression: the memo of the scope if there is one, else the body, whose value
becomes the memo. -/
def lazy (eval : Evaluator) (body : Expr) (env : ScopeId) : Machine Value := do
  match ← Machine.memo? env with
  | some memo => do
    let text ← Machine.format memo
    Machine.note .debug ("lazy memo hit: " ++ text)
    Machine.setRegister memo
    pure memo
  | none => do
    let v ← eval body env
    Machine.setMemo env v
    pure v

/-- The string that an operand is. -/
def textOf (operation : String) : Value → Except Failure String
  | .scalar _ (.string s) => .ok s
  | v => .error (.kindOf operation v [.string])

/-- The characters of a string from a first position up to a last one. There must be as many. -/
def characters (s : String) (first last : Nat) : Except Failure String :=
  if first ≤ last ∧ last ≤ s.length then
    .ok (String.ofList ((s.toList.drop first).take (last - first)))
  else .error .outOfRange

/-- The characters of a string from a start, which must lie in the string or at its end, up to an
end, which must not lie behind it. -/
def slice (s : String) (start stop : Int64) : Except Failure String :=
  let size := s.length
  if start < 0 ∨ (size : Int) < start.toInt then .error (.substringStart start size)
  else if (size : Int) < stop.toInt then .error (.substringEnd stop size)
  else if stop < start then .ok ""
  else characters s start.toInt.toNat stop.toInt.toNat

/-- The first part of a pair or list; the empty list is its own part. -/
def first : Value → Except Failure Value
  | .pair _ a _ => .ok a
  | .cell _ head _ => .ok head
  | .empty => .ok .empty
  | v => .error (.kindOf "car" v [.pair])

/-- The second part of a pair or list; the empty list is its own part. -/
def second : Value → Except Failure Value
  | .pair _ _ b => .ok b
  | .cell _ _ tail => .ok tail
  | .empty => .ok .empty
  | v => .error (.kindOf "cdr" v [.pair])

/-- Pairs and lists pass the test for them; any other value fails. -/
def pairTest : Value → Except Failure Bool
  | .pair _ _ _ => .ok true
  | .cell _ _ _ => .ok true
  | .empty => .ok true
  | v => .error (.kindOf "pair?" v [.pair])

/-- Evaluates an expression; `eval` evaluates its parts. -/
def step (eval : Evaluator) (e : Expr) (env : ScopeId) : Machine Value :=
  match e with
  | .missing => throw .missingNode
  | .block body => block eval env body
  | .letIn bindings body => do
    let values ← evalAll eval env (bindings.map (·.2))
    let inner ← Machine.newScope (bindings.map (·.1)) values (some env)
    eval body inner
  | .identifier name => Machine.lookup env name
  | .literal value => Machine.newScalar value
  | .emptyList => pure .empty
  | .procedure parameters rest body => do
    let id ← Machine.newObject
    pure (.procedure ⟨id, some ⟨parameters, rest, body⟩, some env⟩)
  | .call callee arguments => do
    let calleeValue ← eval callee env
    let p ← Machine.lift (procedureOf "call" calleeValue)
    let argumentsValue ← eval arguments env
    let args ← Machine.lift (argumentsOf argumentsValue)
    callProcedure eval (some p) args
  | .conditional test yes no => do
    let holds ← condition eval "if" test env
    if holds then branch eval yes env
    else match no with
      | some other => branch eval other env
      | none => Machine.register
  | .select clauses => select eval env clauses
  | .lazy body => lazy eval body env
  | .define name body => do
    let v ← eval body env
    Machine.put env name v
    pure v
  | .read => do
    let line ← Machine.readLine
    Machine.newScalar (.string line)
  | .readInteger => do
    let n ← Machine.readInteger
    Machine.newScalar (.integer n)
  | .substring text start stop => do
    let v ← eval text env
    let s ← Machine.lift (textOf "substr" v)
    let a ← integer eval "substr" start env
    let b ← integer eval "substr" stop env
    let part ← Machine.lift (slice s a b)
    Machine.newScalar (.string part)
  | .pair left right => do
    let l ← eval left env
    let r ← eval right env
    Machine.newCons l r
  | .list elements => do
    let values ← evalAll eval env elements
    Machine.newList values
  | .vector elements => do
    let slots ← evalElements eval env elements #[]
    Machine.newVector slots
  | .generator count procedure => do
    let n ← integer eval "vector generator" count env
    if n < 0 then throw (.generatorCount n)
    else do
      let v ← eval procedure env
      let p ← Machine.lift (procedureOf "vector generator" v)
      let id ← Machine.newObject
      pure (.generator id n (some p))
  | .index name position => do
    let (id, i) ← findSlot eval name position env
    Machine.slot id i
  | .size operand => do
    let v ← eval operand env
    let id ← Machine.lift (vectorOf "size" v)
    let size ← Machine.vectorSize id
    Machine.newScalar (.integer (Int64.ofNat size))
  | .car operand => do
    let v ← eval operand env
    Machine.lift (first v)
  | .cdr operand => do
    let v ← eval operand env
    Machine.lift (second v)
  | .isPair operand => do
    let v ← eval operand env
    let holds ← Machine.lift (pairTest v)
    Machine.newScalar (.boolean holds)
  | .identical left right => do
    let l ← eval left env
    let r ← eval right env
    Machine.newScalar (.boolean (l.identical r))
  | .binary operator left right => do
    let l ← eval left env
    let r ← eval right env
    let result ← Machine.binary operator l r
    Machine.newScalar result
  | .unary operator operand => do
    let v ← eval operand env
    let result ← Machine.lift (applyUnary operator v)
    Machine.newScalar result

end Eval

/-- Evaluates an expression with at most `bound` expressions nested in each other. -/
def evalWithin : Nat → Evaluator
  | 0 => fun _ _ => throw .tooDeep
  | bound + 1 => fun e env => Eval.step (evalWithin bound) e env

/-- The depth of nesting that a run allows. It is far beyond what the memory of any machine
holds. -/
def nestingLimit : Nat := 0x1000000000000000

/-- Evaluates an expression. -/
def eval : Evaluator := evalWithin nestingLimit

end Smpl

import Smpl.Json.Basic
import Smpl.Numeric.RealText
import Smpl.Program.Basic

/-!
# Programs as JSON

Every node is an object with its `type` and its parts. A part that is optional and absent is left
out: the names of an assignment to a slot, the index of a plain definition, a rest parameter, a
second branch. A real that is no finite number has no JSON form, and then neither has the program.
-/

namespace Smpl

/-- A node object: its type and its parts. -/
def nodeObject (type : String) (parts : List (String × Json)) : Json :=
  .object (("type", .string type) :: parts)

/-- The node of an identifier. -/
def encodeIdentifier (name : String) : Json := nodeObject "Identifier" [("name", .string name)]

/-- The node of a literal. -/
def Scalar.encode? (value : Scalar) : Option Json := do
  let payload ← match value with
    | .integer n => some (.number (Numeric.integerText n))
    | .real x => (Numeric.jsonRealText? x).map .number
    | .boolean b => some (.bool b)
    | .string s => some (.string s)
  pure (nodeObject value.nodeName [("value", payload)])

mutual

/-- The node of an expression; an empty position is `null`. -/
def Expr.encode? : Expr → Option Json
  | .missing => some .null
  | .block body => do
    let statements ← encodeStatements? body
    pure (nodeObject "Sequence" [("statements", .array statements)])
  | .letIn bindings body => do
    let bs ← encodeBindings? bindings
    let b ← body.encode?
    pure (nodeObject "Let" [("bindings", .array bs), ("body", b)])
  | .identifier name => some (encodeIdentifier name)
  | .literal value => value.encode?
  | .emptyList => some (nodeObject "EmptyListLiteral" [])
  | .procedure parameters rest body => do
    let b ← body.encode?
    let tail := match rest with
      | none => []
      | some name => [("rest", encodeIdentifier name)]
    pure (nodeObject "ProcedureExpression"
      (("parameters", .array (parameters.map encodeIdentifier)) :: tail ++ [("body", b)]))
  | .call callee arguments => do
    let c ← callee.encode?
    let a ← arguments.encode?
    pure (nodeObject "Call" [("callee", c), ("arguments", a)])
  | .conditional test yes no => do
    let t ← test.encode?
    let y ← yes.encode?
    let tail ← match no with
      | none => some []
      | some other => do
        let o ← other.encode?
        pure [("else", o)]
    pure (nodeObject "IfExpression" (("condition", t) :: ("then", y) :: tail))
  | .select clauses => do
    let cs ← encodeClauses? clauses
    pure (nodeObject "CaseExpression" [("clauses", .array cs)])
  | .lazy body => do
    let b ← body.encode?
    pure (nodeObject "LazyExpression" [("body", b)])
  | .define name body => do
    let b ← body.encode?
    pure (nodeObject "DefineExpression" [("name", encodeIdentifier name), ("body", b)])
  | .read => some (nodeObject "ReadExpression" [])
  | .readInteger => some (nodeObject "ReadIntegerExpression" [])
  | .substring text start stop => do
    let t ← text.encode?
    let a ← start.encode?
    let b ← stop.encode?
    pure (nodeObject "SubstringExpression" [("string", t), ("start", a), ("end", b)])
  | .pair left right => do
    let l ← left.encode?
    let r ← right.encode?
    pure (nodeObject "PairExpression" [("left", l), ("right", r)])
  | .list elements => do
    let es ← encodeAll? elements
    pure (nodeObject "ListExpression" [("elements", .array es)])
  | .vector elements => do
    let es ← encodeAll? elements
    pure (nodeObject "VectorExpression" [("elements", .array es)])
  | .generator count procedure => do
    let c ← count.encode?
    let p ← procedure.encode?
    pure (nodeObject "VectorGenerator" [("count", c), ("procedure", p)])
  | .index name position => do
    let i ← position.encode?
    pure (nodeObject "VectorIndex" [("name", encodeIdentifier name), ("index", i)])
  | .size operand => do
    let e ← operand.encode?
    pure (nodeObject "SizeExpression" [("expression", e)])
  | .car operand => do
    let e ← operand.encode?
    pure (nodeObject "CarExpression" [("expression", e)])
  | .cdr operand => do
    let e ← operand.encode?
    pure (nodeObject "CdrExpression" [("expression", e)])
  | .isPair operand => do
    let e ← operand.encode?
    pure (nodeObject "PairCheckExpression" [("expression", e)])
  | .identical left right => do
    let l ← left.encode?
    let r ← right.encode?
    pure (nodeObject "EqualvExpression" [("left", l), ("right", r)])
  | .binary operator left right => do
    let l ← left.encode?
    let r ← right.encode?
    pure (nodeObject "BinaryExpression" [("operator", .string operator), ("left", l), ("right", r)])
  | .unary operator operand => do
    let e ← operand.encode?
    pure (nodeObject "UnaryExpression" [("operator", .string operator), ("operand", e)])

/-- The node of a statement. -/
def Stmt.encode? : Stmt → Option Json
  | .define names values => do
    let vs ← encodeAll? values
    let head := if names.isEmpty then [] else [("names", .array (names.map encodeIdentifier))]
    pure (nodeObject "Definition" (head ++ [("values", .array vs)]))
  | .assign name position values => do
    let vs ← encodeAll? values
    let i ← position.encode?
    let slot := nodeObject "VectorIndex" [("name", encodeIdentifier name), ("index", i)]
    pure (nodeObject "Definition" [("values", .array vs), ("index", slot)])
  | .print value terminator => do
    let e ← value.encode?
    pure (nodeObject "Print" [("expression", e), ("terminator", .string terminator)])
  | .eval e => e.encode?

/-- The nodes of expressions. -/
def encodeAll? : List Expr → Option (List Json)
  | [] => some []
  | e :: rest => do
    let j ← e.encode?
    let js ← encodeAll? rest
    pure (j :: js)

/-- The nodes of statements. -/
def encodeStatements? : List Stmt → Option (List Json)
  | [] => some []
  | s :: rest => do
    let j ← s.encode?
    let js ← encodeStatements? rest
    pure (j :: js)

/-- The nodes of the bindings of a `let`. -/
def encodeBindings? : List (String × Expr) → Option (List Json)
  | [] => some []
  | (name, value) :: rest => do
    let v ← value.encode?
    let js ← encodeBindings? rest
    pure (nodeObject "Binding" [("name", encodeIdentifier name), ("value", v)] :: js)

/-- The nodes of the clauses of a `case`. -/
def encodeClauses? : List (Expr × Expr) → Option (List Json)
  | [] => some []
  | (condition, result) :: rest => do
    let c ← condition.encode?
    let r ← result.encode?
    let js ← encodeClauses? rest
    pure (nodeObject "CaseClause" [("condition", c), ("result", r)] :: js)

end

/-- The JSON form of a program. -/
def Program.encode? (p : Program) : Option Json := do
  match p.body with
  | none => pure (nodeObject "Program" [("body", .null)])
  | some body =>
    let b ← (Expr.block body).encode?
    pure (nodeObject "Program" [("body", b)])

end Smpl

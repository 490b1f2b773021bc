import Smpl.Numeric.RealText
import Smpl.Program.Basic
import Smpl.Text.Quoted

/-!
# Programs on one line

The compact surface form of a program: statements are separated by `; `, a block stands in braces,
most forms look like a call of their name, and an empty position shows as `<nil>`.
-/

namespace Smpl

/-- The surface form of a literal. -/
def Scalar.render : Scalar → String
  | .integer n => Numeric.integerText n
  | .real x => Numeric.realText x
  | .boolean b => if b then "#t" else "#f"
  | .string s => Text.quote s

/-- A name applied to rendered arguments. -/
def renderCall (name : String) (arguments : List String) : String :=
  name ++ "(" ++ ", ".intercalate arguments ++ ")"

/-- The parameters of a procedure; a rest parameter stands last, after a dot. -/
def renderParameters (parameters : List String) (rest : Option String) : String :=
  ", ".intercalate parameters ++
    match rest with
    | none => ""
    | some name => (if parameters.isEmpty then "" else " ") ++ ". " ++ name

mutual

/-- An expression on one line. -/
def Expr.render : Expr → String
  | .missing => "<nil>"
  | .block body => "\x7b" ++ "; ".intercalate (renderStatements body) ++ "\x7d"
  | .letIn bindings body =>
    "let (" ++ ", ".intercalate (renderBindings bindings) ++ ") " ++ body.render
  | .identifier name => name
  | .literal value => value.render
  | .emptyList => "#e"
  | .procedure parameters rest body =>
    "proc(" ++ renderParameters parameters rest ++ ") " ++ body.render
  | .call callee arguments => renderCall "call" [callee.render, arguments.render]
  | .conditional test yes no =>
    "if " ++ test.render ++ " then " ++ yes.render ++
      match no with
      | none => ""
      | some other => " else " ++ other.render
  | .select clauses => "case \x7b" ++ ", ".intercalate (renderClauses clauses) ++ "\x7d"
  | .lazy body => renderCall "lazy" [body.render]
  | .define name body => renderCall "def" [name, body.render]
  | .read => "read()"
  | .readInteger => "readint()"
  | .substring text start stop => renderCall "substr" [text.render, start.render, stop.render]
  | .pair left right => renderCall "pair" [left.render, right.render]
  | .list elements => renderCall "list" (renderAll elements)
  | .vector elements => "[" ++ ", ".intercalate (renderAll elements) ++ "]"
  | .generator count procedure => count.render ++ ": " ++ procedure.render
  | .index name position => name ++ "[" ++ position.render ++ "]"
  | .size operand => renderCall "size" [operand.render]
  | .car operand => renderCall "car" [operand.render]
  | .cdr operand => renderCall "cdr" [operand.render]
  | .isPair operand => renderCall "pair?" [operand.render]
  | .identical left right => renderCall "eqv" [left.render, right.render]
  | .binary operator left right =>
    "(" ++ left.render ++ " " ++ operator ++ " " ++ right.render ++ ")"
  | .unary operator operand =>
    (if operator = notSymbol then "not " else operator) ++ operand.render

/-- A statement on one line. -/
def Stmt.render : Stmt → String
  | .define names values =>
    ", ".intercalate names ++ " := " ++ ", ".intercalate (renderAll values)
  | .assign name position values =>
    name ++ "[" ++ position.render ++ "] := " ++ ", ".intercalate (renderAll values)
  | .print value terminator =>
    renderCall (if terminator = "\n" then "println" else "print") [value.render]
  | .eval e => e.render

/-- Expressions, each on its own. -/
def renderAll : List Expr → List String
  | [] => []
  | e :: rest => e.render :: renderAll rest

/-- Statements, each on its own. -/
def renderStatements : List Stmt → List String
  | [] => []
  | s :: rest => s.render :: renderStatements rest

/-- The bindings of a `let`. -/
def renderBindings : List (String × Expr) → List String
  | [] => []
  | (name, value) :: rest => (name ++ " = " ++ value.render) :: renderBindings rest

/-- The clauses of a `case`; the condition that always holds stands without quotes. -/
def renderClauses : List (Expr × Expr) → List String
  | [] => []
  | (condition, result) :: rest =>
    let shown := match condition with
      | .literal (.string s) => if s = elseCondition then elseCondition else condition.render
      | _ => condition.render
    (shown ++ ": " ++ result.render) :: renderClauses rest

end

/-- A program on one line. -/
def Program.render (p : Program) : String := "; ".intercalate (renderStatements p.statements)

/-- A node on one line; a part that stands only inside an expression shows its name. -/
def Node.render : Node → String
  | .program p => p.render
  | .statement s => s.render
  | n => "<" ++ n.nodeName ++ ">"

end Smpl

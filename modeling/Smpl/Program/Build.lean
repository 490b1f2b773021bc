import Smpl.Program.Basic

/-!
# Putting programs together

Shorthands for nodes that are made of smaller ones.
-/

namespace Smpl

/-- A call with the given arguments. -/
def Expr.apply (callee : Expr) (arguments : List Expr) : Expr := .call callee (.list arguments)

/-- A call of the procedure bound to a name. -/
def Expr.callNamed (name : String) (arguments : List Expr) : Expr :=
  .apply (.identifier name) arguments

/-- The negation of a truth value. -/
def Expr.not (operand : Expr) : Expr := .unary notSymbol operand

/-- The bitwise complement of an integer. -/
def Expr.complement (operand : Expr) : Expr := .unary complementSymbol operand

/-- A conditional with a second branch; an empty one counts as none. -/
def Expr.choose (test yes no : Expr) : Expr :=
  .conditional test yes (match no with | .missing => none | e => some e)

/-- The clause that is selected in any case. -/
def otherwise (result : Expr) : Expr × Expr := (.literal (.string elseCondition), result)

/-- Binds one name. -/
def Stmt.bind (name : String) (value : Expr) : Stmt := .define [name] [value]

/-- Writes a value on a line of its own. -/
def Stmt.printLine (value : Expr) : Stmt := .print value "\n"

/-- A program of some statements. -/
def Program.ofStatements (statements : List Stmt) : Program := ⟨some statements⟩

end Smpl

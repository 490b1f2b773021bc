/-!
# Programs

A program is a sequence of statements. Expressions may stand wherever a statement may
(`Stmt.eval`); the other statements are definitions, assignments to a vector slot and printing.

An expression position may be empty (`Expr.missing`): a program put together in memory can leave one
out, and evaluating it is an error. A program read from text never holds one.
-/

namespace Smpl

/-- The contents of a literal, and of a value without parts. -/
inductive Scalar where
  | integer (n : Int64)
  | real (x : Float)
  | boolean (b : Bool)
  | string (s : String)
  deriving Inhabited

mutual

/-- An expression. -/
inductive Expr where
  /-- No expression at all. -/
  | missing
  /-- Statements in order; the value is that of the last one. -/
  | block (body : List Stmt)
  /-- A child scope that holds the bindings, for the body. -/
  | letIn (bindings : List (String × Expr)) (body : Expr)
  /-- The value bound to a name. -/
  | identifier (name : String)
  /-- A scalar. -/
  | literal (value : Scalar)
  /-- The empty list. -/
  | emptyList
  /-- A closure over the current scope. -/
  | procedure (parameters : List String) (rest : Option String) (body : Expr)
  /-- The callee applied to the elements of the list that `arguments` gives. -/
  | call (callee arguments : Expr)
  /-- One of two branches; without the second one, the value of the statement before. -/
  | conditional (test yes : Expr) (no : Option Expr)
  /-- The result of the first clause whose condition holds. -/
  | select (clauses : List (Expr × Expr))
  /-- Evaluated at most once in each scope. -/
  | lazy (body : Expr)
  /-- Binds a name in the current scope; the value is the value bound. -/
  | define (name : String) (body : Expr)
  /-- A line of input. -/
  | read
  /-- An integer of input. -/
  | readInteger
  /-- The characters of a string from `start` up to `stop`. -/
  | substring (text start stop : Expr)
  /-- A pair, or a longer list when the right side is a list. -/
  | pair (left right : Expr)
  /-- A proper list. -/
  | list (elements : List Expr)
  /-- A vector; generators among the elements are expanded in place. -/
  | vector (elements : List Expr)
  /-- A number of vector elements made by a procedure from their indices. -/
  | generator (count procedure : Expr)
  /-- A slot of the vector bound to a name. -/
  | index (name : String) (position : Expr)
  /-- The length of a vector. -/
  | size (operand : Expr)
  /-- The first part of a pair or list. -/
  | car (operand : Expr)
  /-- The second part of a pair or list. -/
  | cdr (operand : Expr)
  /-- Whether the operand is a pair or a list. -/
  | isPair (operand : Expr)
  /-- Whether both sides are the same object. -/
  | identical (left right : Expr)
  /-- A binary operator by its symbol. -/
  | binary (operator : String) (left right : Expr)
  /-- A unary operator by its symbol. -/
  | unary (operator : String) (operand : Expr)

/-- A statement. -/
inductive Stmt where
  /-- Binds one name per value, or the elements of one list to several names. -/
  | define (names : List String) (values : List Expr)
  /-- Overwrites a slot of the vector bound to a name. -/
  | assign (name : String) (position : Expr) (values : List Expr)
  /-- Writes a value and a terminator. -/
  | print (value : Expr) (terminator : String)
  /-- An expression. -/
  | eval (expr : Expr)

end

instance : Inhabited Expr := ⟨.missing⟩
instance : Inhabited Stmt := ⟨.eval .missing⟩

/-- A program; it may lack a body altogether. -/
structure Program where
  body : Option (List Stmt)
  deriving Inhabited

/-- The statements of a program. -/
def Program.statements (p : Program) : List Stmt := p.body.getD []

/-- Whatever a program is put together from: a program, a statement, or a part that stands only
inside an expression. -/
inductive Node where
  | program (program : Program)
  | statement (statement : Stmt)
  | binding (name : String) (value : Expr)
  | clause (condition result : Expr)
  deriving Inhabited

/-- The condition text that selects a clause in any case. -/
def elseCondition : String := "else"

/-- The symbols of the unary operators. -/
def notSymbol : String := "not"

/-- The symbol of the bitwise complement. -/
def complementSymbol : String := "~"

/-- The name of a literal's node. -/
def Scalar.nodeName : Scalar → String
  | .integer _ => "IntegerLiteral"
  | .real _ => "RealLiteral"
  | .boolean _ => "BooleanLiteral"
  | .string _ => "StringLiteral"

/-- The name of an expression's node; an empty position has none. -/
def Expr.nodeName : Expr → String
  | .missing => ""
  | .block _ => "Sequence"
  | .letIn _ _ => "Let"
  | .identifier _ => "Identifier"
  | .literal value => value.nodeName
  | .emptyList => "EmptyListLiteral"
  | .procedure _ _ _ => "ProcedureExpression"
  | .call _ _ => "Call"
  | .conditional _ _ _ => "IfExpression"
  | .select _ => "CaseExpression"
  | .lazy _ => "LazyExpression"
  | .define _ _ => "DefineExpression"
  | .read => "ReadExpression"
  | .readInteger => "ReadIntegerExpression"
  | .substring _ _ _ => "SubstringExpression"
  | .pair _ _ => "PairExpression"
  | .list _ => "ListExpression"
  | .vector _ => "VectorExpression"
  | .generator _ _ => "VectorGenerator"
  | .index _ _ => "VectorIndex"
  | .size _ => "SizeExpression"
  | .car _ => "CarExpression"
  | .cdr _ => "CdrExpression"
  | .isPair _ => "PairCheckExpression"
  | .identical _ _ => "EqualvExpression"
  | .binary _ _ _ => "BinaryExpression"
  | .unary _ _ => "UnaryExpression"

/-- The name of a statement's node. -/
def Stmt.nodeName : Stmt → String
  | .define _ _ => "Definition"
  | .assign _ _ _ => "Definition"
  | .print _ _ => "Print"
  | .eval e => e.nodeName

/-- The name of a node. -/
def Node.nodeName : Node → String
  | .program _ => "Program"
  | .statement s => s.nodeName
  | .binding _ _ => "Binding"
  | .clause _ _ => "CaseClause"

end Smpl

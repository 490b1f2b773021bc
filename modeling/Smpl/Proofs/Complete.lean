import Smpl.Value.Failure

/-!
# Complete programs and sound values

A program read from text has no empty position, no binary operator without a symbol, no unary
operator that does not exist, and no assignment to a slot with anything but one value. Such programs
are *complete* (`Expr.Complete`, `Stmt.Complete`).

The values of a run of complete programs are *sound* (`Value.Sound`): nothing in them is absent,
lists are proper, generators have a count and a procedure, and closures have a complete body and a
scope. The failures of such a run are *expected* (`Failure.expected`).
-/

namespace Smpl

/-! ## Programs -/

mutual

/-- An expression that has all its parts. There is no rule for an empty position. -/
inductive Expr.Complete : Expr → Prop
  | block {body : List Stmt} : (∀ s ∈ body, Stmt.Complete s) → Expr.Complete (.block body)
  | letIn {bindings : List (String × Expr)} {body : Expr} :
      (∀ b ∈ bindings, Expr.Complete b.2) → Expr.Complete body → Expr.Complete (.letIn bindings body)
  | identifier {name : String} : Expr.Complete (.identifier name)
  | literal {value : Scalar} : Expr.Complete (.literal value)
  | emptyList : Expr.Complete .emptyList
  | procedure {parameters : List String} {rest : Option String} {body : Expr} :
      Expr.Complete body → Expr.Complete (.procedure parameters rest body)
  | call {callee arguments : Expr} :
      Expr.Complete callee → Expr.Complete arguments → Expr.Complete (.call callee arguments)
  | conditional {test yes : Expr} {no : Option Expr} :
      Expr.Complete test → Expr.Complete yes → (∀ e ∈ no, Expr.Complete e) →
      Expr.Complete (.conditional test yes no)
  | select {clauses : List (Expr × Expr)} :
      (∀ c ∈ clauses, Expr.Complete c.1) → (∀ c ∈ clauses, Expr.Complete c.2) →
      Expr.Complete (.select clauses)
  | lazy {body : Expr} : Expr.Complete body → Expr.Complete (.lazy body)
  | define {name : String} {body : Expr} : Expr.Complete body → Expr.Complete (.define name body)
  | read : Expr.Complete .read
  | readInteger : Expr.Complete .readInteger
  | substring {text start stop : Expr} :
      Expr.Complete text → Expr.Complete start → Expr.Complete stop →
      Expr.Complete (.substring text start stop)
  | pair {left right : Expr} :
      Expr.Complete left → Expr.Complete right → Expr.Complete (.pair left right)
  | list {elements : List Expr} : (∀ e ∈ elements, Expr.Complete e) → Expr.Complete (.list elements)
  | vector {elements : List Expr} :
      (∀ e ∈ elements, Expr.Complete e) → Expr.Complete (.vector elements)
  | generator {count procedure : Expr} :
      Expr.Complete count → Expr.Complete procedure → Expr.Complete (.generator count procedure)
  | index {name : String} {position : Expr} :
      Expr.Complete position → Expr.Complete (.index name position)
  | size {operand : Expr} : Expr.Complete operand → Expr.Complete (.size operand)
  | car {operand : Expr} : Expr.Complete operand → Expr.Complete (.car operand)
  | cdr {operand : Expr} : Expr.Complete operand → Expr.Complete (.cdr operand)
  | isPair {operand : Expr} : Expr.Complete operand → Expr.Complete (.isPair operand)
  | identical {left right : Expr} :
      Expr.Complete left → Expr.Complete right → Expr.Complete (.identical left right)
  | binary {operator : String} {left right : Expr} :
      operator ≠ "" → Expr.Complete left → Expr.Complete right →
      Expr.Complete (.binary operator left right)
  | unary {operator : String} {operand : Expr} :
      operator = notSymbol ∨ operator = complementSymbol → Expr.Complete operand →
      Expr.Complete (.unary operator operand)

/-- A statement that has all its parts. An assignment has one value. -/
inductive Stmt.Complete : Stmt → Prop
  | define {names : List String} {values : List Expr} :
      (∀ e ∈ values, Expr.Complete e) → Stmt.Complete (.define names values)
  | assign {name : String} {position value : Expr} :
      Expr.Complete position → Expr.Complete value → Stmt.Complete (.assign name position [value])
  | print {value : Expr} {terminator : String} :
      Expr.Complete value → Stmt.Complete (.print value terminator)
  | eval {e : Expr} : Expr.Complete e → Stmt.Complete (.eval e)

end

/-- A program of complete statements. -/
def Program.Complete (p : Program) : Prop := ∀ s ∈ p.statements, s.Complete

/-! ## Values -/

/-- A closure with a complete body and a scope. -/
structure Procedure.Sound (p : Procedure) : Prop where
  declared : ∃ d, p.declaration = some d ∧ d.body.Complete
  closed : p.scope.isSome

/-- A value of a run. -/
def Value.Sound : Value → Prop
  | .nothing => False
  | .scalar _ _ => True
  | .empty => True
  | .pair _ first second => first.Sound ∧ second.Sound
  | .cell _ head tail => head.Sound ∧ tail.Sound ∧ tail.isListLike
  | .vector _ => True
  | .generator _ count source => 0 ≤ count ∧ ∃ p, source = some p ∧ p.Sound
  | .procedure p => p.Sound

theorem Value.Sound.kind {v : Value} (h : v.Sound) : v.kind?.isSome := by
  cases v with
  | nothing => exact h.elim
  | _ => rfl

/-! ## Failures -/

/-- Whether a failure is one that a complete program can run into: an error of one of the five
kinds, a console that gives nothing, or a binary operator that does not exist. Among the errors of
the five kinds, an operand is never absent, and a scope or a slot is never given a wrong number of
values. -/
def Failure.expected : Failure → Bool
  | .unbound _ => true
  | .wrongKind _ _ actual => actual.isSome
  | .divisionByZero => true
  | .moduloByZero => true
  | .slotBounds _ _ _ => true
  | .substringStart _ _ => true
  | .substringEnd _ _ => true
  | .generatorCount _ => true
  | .arity context _ _ => context ≠ .scopeBindings ∧ context ≠ .slotAssignment
  | .endOfInput _ => true
  | .noConsole _ => true
  | .unknownBinary _ => true
  | _ => false

/-- Whether a failure says that a run has outgrown what a machine can do: the depth of nesting, or
the room for elements. -/
def Failure.outgrown : Failure → Bool
  | .tooDeep => true
  | .noRoom count => roomLimit < count
  | _ => false

theorem Value.Sound.expected_kindOf {v : Value} (h : v.Sound) (operation : String)
    (kinds : List Kind) : (Failure.kindOf operation v kinds).expected := h.kind

end Smpl

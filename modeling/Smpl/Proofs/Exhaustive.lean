import Smpl.Proofs.Complete

/-!
# Programs that cannot fall through

A conditional without a second branch, and a selection whose last clause need not be chosen, can
*fall through*: their value is then the one in the register. A program is *exhaustive* if no
expression in it can fall through (`Expr.Exhaustive`), and a value is if the bodies of all closures
in it are (`Value.Exhaustive`).
-/

namespace Smpl

/-! ## Parts -/

/-- The expressions directly inside a statement. -/
def Stmt.parts : Stmt → List Expr
  | .define _ values => values
  | .assign _ position values => position :: values
  | .print value _ => [value]
  | .eval e => [e]

/-- The expressions directly inside an expression. -/
def Expr.parts : Expr → List Expr
  | .missing => []
  | .block body => body.flatMap Stmt.parts
  | .letIn bindings body => body :: bindings.map (·.2)
  | .identifier _ => []
  | .literal _ => []
  | .emptyList => []
  | .procedure _ _ body => [body]
  | .call callee arguments => [callee, arguments]
  | .conditional test yes no => test :: yes :: no.toList
  | .select clauses => clauses.map (·.1) ++ clauses.map (·.2)
  | .lazy body => [body]
  | .define _ body => [body]
  | .read => []
  | .readInteger => []
  | .substring text start stop => [text, start, stop]
  | .pair left right => [left, right]
  | .list elements => elements
  | .vector elements => elements
  | .generator count source => [count, source]
  | .index _ position => [position]
  | .size operand => [operand]
  | .car operand => [operand]
  | .cdr operand => [operand]
  | .isPair operand => [operand]
  | .identical left right => [left, right]
  | .binary _ left right => [left, right]
  | .unary _ operand => [operand]

/-- The expressions directly inside a node. -/
def Node.parts : Node → List Expr
  | .program p => p.statements.flatMap Stmt.parts
  | .statement s => s.parts
  | .binding _ value => [value]
  | .clause condition result => [condition, result]

theorem Stmt.Complete.part {s : Stmt} (h : s.Complete) {p : Expr} (inside : p ∈ s.parts) :
    p.Complete := by
  cases h with
  | define values => exact values p inside
  | assign position value =>
    rcases List.mem_cons.mp inside with rfl | later
    · exact position
    · cases List.mem_singleton.mp later
      exact value
  | print value =>
    cases List.mem_singleton.mp inside
    exact value
  | eval e =>
    cases List.mem_singleton.mp inside
    exact e

theorem Expr.Complete.part {e : Expr} (h : e.Complete) {p : Expr} (inside : p ∈ e.parts) :
    p.Complete := by
  cases h with
  | block body =>
    obtain ⟨s, member, inside⟩ := List.mem_flatMap.mp inside
    exact (body s member).part inside
  | letIn bindings body =>
    rcases List.mem_cons.mp inside with rfl | bound
    · exact body
    · obtain ⟨b, member, rfl⟩ := List.mem_map.mp bound
      exact bindings b member
  | conditional test yes no =>
    simp only [Expr.parts, List.mem_cons, Option.mem_toList] at inside
    rcases inside with rfl | rfl | other
    · exact test
    · exact yes
    · exact no p other
  | select conditions results =>
    rcases List.mem_append.mp inside with condition | result
    · obtain ⟨c, member, rfl⟩ := List.mem_map.mp condition
      exact conditions c member
    · obtain ⟨c, member, rfl⟩ := List.mem_map.mp result
      exact results c member
  | list elements => exact elements p inside
  | vector elements => exact elements p inside
  -- The other forms have at most three parts, each with a condition of its own.
  | _ => grind [Expr.parts]

/-! ## Falling through -/

/-- Whether a condition is the literal text that selects its clause in any case. -/
def Expr.isElse : Expr → Bool
  | .literal (.string s) => s = elseCondition
  | _ => false

/-- Whether an expression can fall through itself. A selection cannot if its last clause is for all
other cases; one without clauses always does. -/
def Expr.canFallThrough : Expr → Bool
  | .conditional _ _ no => no.isNone
  | .select clauses => !clauses.getLast?.any (·.1.isElse)
  | _ => false

/-- An expression that cannot fall through, nor can any expression in it. -/
inductive Expr.Exhaustive : Expr → Prop
  | intro {e : Expr} :
      e.canFallThrough = false → (∀ p ∈ e.parts, Expr.Exhaustive p) → Expr.Exhaustive e

/-- A node in which no expression can fall through. -/
def Node.Exhaustive (n : Node) : Prop := ∀ p ∈ n.parts, p.Exhaustive

namespace Expr.Exhaustive

theorem part {e : Expr} (h : e.Exhaustive) {p : Expr} (inside : p ∈ e.parts) : p.Exhaustive := by
  cases h with
  | intro _ parts => exact parts p inside

/-- An expression without parts. -/
theorem single {e : Expr} (here : e.canFallThrough = false) (alone : e.parts = []) :
    e.Exhaustive := .intro here (by simp [alone])

theorem conditional_isSome {test yes : Expr} {no : Option Expr}
    (h : (Expr.conditional test yes no).Exhaustive) : no.isSome := by
  cases h with
  | intro here _ => simpa [canFallThrough] using here

theorem select_last {clauses : List (Expr × Expr)} (h : (Expr.select clauses).Exhaustive) :
    clauses.getLast?.any (·.1.isElse) := by
  cases h with
  | intro here _ => simpa [canFallThrough] using here

end Expr.Exhaustive

theorem Expr.eq_of_isElse {e : Expr} (h : e.isElse) : e = .literal (.string elseCondition) := by
  unfold isElse at h
  split at h
  · rw [of_decide_eq_true h]
  · cases h

/-! ## Values -/

/-- A closure whose body, if it has one, is exhaustive. -/
def Procedure.Exhaustive (p : Procedure) : Prop := ∀ d ∈ p.declaration, d.body.Exhaustive

/-- A value in which the bodies of all closures are exhaustive. -/
def Value.Exhaustive : Value → Prop
  | .nothing => True
  | .scalar _ _ => True
  | .empty => True
  | .pair _ first second => first.Exhaustive ∧ second.Exhaustive
  | .cell _ head tail => head.Exhaustive ∧ tail.Exhaustive
  | .vector _ => True
  | .generator _ _ source => ∀ p ∈ source, p.Exhaustive
  | .procedure p => p.Exhaustive

end Smpl

import Smpl.Proofs.PairedRuns

/-!
# Selections and nested conditionals

A selection tries its clauses in order and gives the result of the first one whose condition holds.
Conditionals in each other do the same (`nestedConditional`): the first branch of each is the result of
a clause, and the second branch is the conditional for the clauses after it. As long as no condition is
a string, which only a selection knows what to do with, there is no difference but for the name under
which a condition is refused (`selection_is_nested_conditional`):

* Both come down to one machine (`Eval.firstHolding`). A selection without strings ends like it, unless
  both refuse the same condition (`Eval.select_eq_or_unfit`).
* A conditional leaves its value in the register, so a conditional around it has nothing to add
  (`branch_nestedConditional`).
* Nested conditionals evaluate the parts of later clauses further inside. So they reach the bound on
  nesting where the selection does not, and have to be given the number of clauses more.
-/

namespace Smpl

/-- The conditionals that stand for clauses. -/
def nestedConditional : Expr × Expr → List (Expr × Expr) → Expr
  | (test, result), [] => .conditional test result none
  | (test, result), next :: rest => .conditional test result (some (nestedConditional next rest))

namespace Eval

/-! ## Conditions -/

/-- The conditions that are evaluated when clauses are tried from a state on, each with the state in
which its evaluation starts. A later one is evaluated only if those before it are false. -/
inductive Tried (eval : Evaluator) (env : ScopeId) :
    List (Expr × Expr) → State → Expr → State → Prop
  | here {test result : Expr} {rest : List (Expr × Expr)} {s : State} :
      Tried eval env ((test, result) :: rest) s test s
  | later {test result other : Expr} {rest : List (Expr × Expr)} {id : ObjectId} {s t u : State} :
      eval test env s = .ok (.scalar id (.boolean false)) t → Tried eval env rest t other u →
      Tried eval env ((test, result) :: rest) s other u

/-- A condition that is tried has a value that is no boolean; `u` is the state after it. -/
def Unfit (eval : Evaluator) (env : ScopeId) (clauses : List (Expr × Expr)) (s : State) (v : Value)
    (u : State) : Prop :=
  ∃ test t, Tried eval env clauses s test t ∧ eval test env t = .ok v u ∧ v.kind? ≠ some .boolean

/-- Evaluates the result of the first clause whose condition holds, with every condition evaluated as a
conditional does it; when there is none, the register is the value. -/
def firstHolding (eval : Evaluator) (env : ScopeId) : List (Expr × Expr) → Machine Value
  | [] => Machine.register
  | (test, result) :: rest => do
    let holds ← condition eval "if" test env
    if holds then branch eval result env else firstHolding eval env rest

variable {eval : Evaluator} {env : ScopeId} {clauses rest : List (Expr × Expr)} {test result : Expr}
  {s t u : State} {v : Value}

theorem Unfit.later {id : ObjectId} (run : eval test env s = .ok (.scalar id (.boolean false)) t)
    (unfit : Unfit eval env rest t v u) : Unfit eval env ((test, result) :: rest) s v u := by
  obtain ⟨other, start, tried, evaluated, kind⟩ := unfit
  exact ⟨other, start, .later run tried, evaluated, kind⟩

/-- A value that is no string is a boolean, or a selection and a conditional refuse it as a condition. -/
theorem boolean_or_refused (textless : v.kind? ≠ some .string) :
    (∃ id b, v = .scalar id (.boolean b)) ∨
      (v.kind? ≠ some .boolean ∧ selects v = .error (.kindOf "case" v [.boolean]) ∧
        v.truth "if" = .error (.kindOf "if" v [.boolean])) := by
  cases v with
  | scalar id contents =>
    cases contents with
    | boolean b => exact .inl ⟨id, b, rfl⟩
    | string text => exact absurd rfl textless
    | _ => exact .inr ⟨nofun, rfl, rfl⟩
  | _ => exact .inr ⟨nofun, rfl, rfl⟩

/-! ## Clauses -/

theorem firstHolding_cons (s : State) :
    firstHolding eval env ((test, result) :: rest) s =
      match eval test env s with
      | .error e t => .error e t
      | .ok v t =>
        match v.truth "if" with
        | .error e => .error e t
        | .ok true => branch eval result env t
        | .ok false => firstHolding eval env rest t := by
  simp only [firstHolding, condition, bind, EStateM.bind]
  cases eval test env s with
  | error e t => rfl
  | ok v t =>
    dsimp only
    cases v.truth "if" with
    | error e => rfl
    | ok holds => cases holds <;> rfl

theorem select_cons (s : State) :
    select eval env ((test, result) :: rest) s =
      match eval test env s with
      | .error e t => .error e t
      | .ok v t =>
        match selects v with
        | .error e => .error e t
        | .ok true => branch eval result env t
        | .ok false => select eval env rest t := by
  simp only [select, bind, EStateM.bind]
  cases eval test env s with
  | error e t => rfl
  | ok v t =>
    dsimp only
    cases selects v with
    | error e => rfl
    | ok chosen => cases chosen <;> rfl

/-- Without strings a selection gives what the first clause that holds gives, or both refuse the same
condition. -/
theorem select_eq_or_unfit
    (textless : ∀ test t v u, Tried eval env clauses s test t → eval test env t = .ok v u →
      v.kind? ≠ some .string) :
    select eval env clauses s = firstHolding eval env clauses s ∨
      ∃ v u, Unfit eval env clauses s v u ∧
        select eval env clauses s = .error (.kindOf "case" v [.boolean]) u ∧
        firstHolding eval env clauses s = .error (.kindOf "if" v [.boolean]) u := by
  induction clauses generalizing s with
  | nil => exact .inl rfl
  | cons clause rest ih =>
    obtain ⟨test, result⟩ := clause
    rw [select_cons, firstHolding_cons]
    cases run : eval test env s with
    | error e t => exact .inl rfl
    | ok v t =>
      dsimp only
      rcases boolean_or_refused (textless test s v t .here run) with
        ⟨id, b, rfl⟩ | ⟨kind, first, second⟩
      · cases b with
        | true => exact .inl rfl
        | false =>
          -- The later conditions are tried from the state that this one leaves.
          rcases ih fun other start w u tried => textless other start w u (.later run tried) with
            same | ⟨w, u, unfit, first, second⟩
          · exact .inl same
          · exact .inr ⟨w, u, unfit.later run, first, second⟩
      · rw [first, second]
        exact .inr ⟨v, t, ⟨test, s, .here, run, kind⟩, rfl, rfl⟩

end Eval

/-! ## Nested conditionals -/

theorem Eval.branch_register {eval : Evaluator} {e : Expr} {env : ScopeId} {s t : State} {v : Value}
    (run : Eval.branch eval e env s = .ok v t) : t.register = v := by
  obtain ⟨_, _, _, later⟩ := Machine.bind_eq_ok.mp run
  cases later
  rfl

/-- The value of a conditional is in the register at its end. -/
theorem evalWithin_conditional_register {bound : Nat} {test yes : Expr} {no : Option Expr}
    {env : ScopeId} {s t : State} {v : Value}
    (run : evalWithin bound (.conditional test yes no) env s = .ok v t) : t.register = v := by
  cases bound with
  | zero => cases run
  | succ bound =>
    obtain ⟨holds, _, _, later⟩ := Machine.bind_eq_ok.mp run
    split at later
    · exact Eval.branch_register later
    · cases no with
      | some other => exact Eval.branch_register later
      | none =>
        cases later
        rfl

theorem branch_nestedConditional (bound : Nat) (first : Expr × Expr) (rest : List (Expr × Expr))
    (env : ScopeId) :
    Eval.branch (evalWithin bound) (nestedConditional first rest) env =
      evalWithin bound (nestedConditional first rest) env := by
  obtain ⟨no, shape⟩ : ∃ no, nestedConditional first rest = .conditional first.1 first.2 no := by
    cases rest <;> exact ⟨_, rfl⟩
  funext s
  rw [shape]
  simp only [Eval.branch, bind, EStateM.bind]
  cases run : evalWithin bound (.conditional first.1 first.2 no) env s with
  | error e t => rfl
  | ok v t =>
    have held := evalWithin_conditional_register run
    subst held
    rfl

theorem evalWithin_nestedConditional_cons (depth : Nat) (first next : Expr × Expr)
    (rest : List (Expr × Expr)) (env : ScopeId) :
    evalWithin (depth + 1) (nestedConditional first (next :: rest)) env = (do
      let holds ← Eval.condition (evalWithin depth) "if" first.1 env
      if holds then Eval.branch (evalWithin depth) first.2 env
      else evalWithin depth (nestedConditional next rest) env) := by
  rw [← branch_nestedConditional depth next rest]
  rfl

/-- What the first clause that holds gives, the nested conditionals give too, unless they reach their
bound. -/
theorem firstHolding_follows_nested (bound : Nat) {depth : Nat} (shallow : depth ≤ bound)
    (first : Expr × Expr) (rest : List (Expr × Expr)) (env : ScopeId) :
    Machine.Follows sameObjectsWithin (Eval.firstHolding (evalWithin bound) env (first :: rest))
      (evalWithin (depth + 1) (nestedConditional first rest) env) (Value.Paired sameObjectsWithin) := by
  -- The conditionals for the remaining clauses are evaluated with one less each time.
  induction rest generalizing depth first with
  | nil =>
    obtain ⟨extra, rfl⟩ := Nat.exists_eq_add_of_le shallow
    have parts := evalWithin_follows extra (c := sameObjectsWithin) (.inl trivial) depth
    exact parts.conditional first.1 first.2 none env
  | cons next rest ih =>
    obtain ⟨extra, rfl⟩ := Nat.exists_eq_add_of_le shallow
    have parts := evalWithin_follows extra (c := sameObjectsWithin) (.inl trivial) depth
    rw [evalWithin_nestedConditional_cons]
    refine .bind (parts.condition "if" first.1 env) fun holds _ same => ?_
    subst same
    split
    · exact parts.branch first.2 env
    · cases depth with
      | zero => exact fun _ _ _ => .tooDeep trivial
      | succ depth => exact ih (by omega) next

/-- What the nested conditionals give, with enough room for all clauses, the first clause that holds
gives too, unless it reaches its bound. -/
theorem nested_follows_firstHolding (bound : Nat) {depth : Nat} (first : Expr × Expr)
    (rest : List (Expr × Expr)) (room : bound + rest.length ≤ depth) (env : ScopeId) :
    Machine.Follows sameObjectsWithin (evalWithin (depth + 1) (nestedConditional first rest) env)
      (Eval.firstHolding (evalWithin bound) env (first :: rest))
      (Value.Paired sameObjectsWithin) := by
  have parts (extra : Nat) : Evaluator.Follows sameObjectsWithin (evalWithin (bound + extra))
      (evalWithin bound) := evalWithin_follows extra (.inl trivial) bound
  induction rest generalizing depth first with
  | nil =>
    obtain ⟨extra, rfl⟩ := Nat.exists_eq_add_of_le room
    exact (parts extra).conditional first.1 first.2 none env
  | cons next rest ih =>
    rw [List.length_cons] at room
    obtain ⟨extra, rfl⟩ := Nat.exists_eq_add_of_le (Nat.le_trans (Nat.le_add_right _ _) room)
    rw [evalWithin_nestedConditional_cons]
    refine .bind ((parts extra).condition "if" first.1 env) fun holds _ same => ?_
    subst same
    split
    · exact (parts extra).branch first.2 env
    · cases extra with
      | zero => omega
      | succ extra =>
        have room' : bound + rest.length ≤ bound + extra := by omega
        exact ih next room'

/-! ## Selections -/

theorem State.SameBesidesLog.symm {s t : State} (h : s.SameBesidesLog t) : t.SameBesidesLog s := by
  obtain ⟨log, rfl⟩ := h
  exact ⟨s.log, rfl⟩

/-- A selection and another machine that stands for it end alike: in states that differ in the log at
most, with the same outcome, or both because the value of a condition is no boolean, which the first
one reports under the name of the selection and the second one under the name of the conditional. -/
structure Eval.SelectsAlike (eval : Evaluator) (env : ScopeId) (clauses : List (Expr × Expr))
    (s : State) (selection other : Machine Value) : Prop where
  after : (selection.after s).SameBesidesLog (other.after s)
  outcome : selection.outcome s = other.outcome s ∨
    ∃ v u, Eval.Unfit eval env clauses s v u ∧
      selection.outcome s = .error (.kindOf "case" v [.boolean]) ∧
      other.outcome s = .error (.kindOf "if" v [.boolean])

namespace Eval

variable {bound : Nat} {env : ScopeId} {clauses : List (Expr × Expr)} {s : State} {other : Machine Value}
  (textless : ∀ test t v u, Tried (evalWithin bound) env clauses s test t →
    evalWithin bound test env t = .ok v u → v.kind? ≠ some .string)

include textless

/-- A selection without strings ends like any machine that ends like the first clause that holds. -/
theorem SelectsAlike.of_firstHolding
    (after : ((firstHolding (evalWithin bound) env clauses).after s).SameBesidesLog (other.after s))
    (outcome : (firstHolding (evalWithin bound) env clauses).outcome s = other.outcome s) :
    SelectsAlike (evalWithin bound) env clauses s (evalWithin (bound + 1) (.select clauses) env) other := by
  rw [Machine.after] at after
  rw [Machine.outcome] at outcome
  rcases select_eq_or_unfit textless with same | ⟨v, u, unfit, first, second⟩
  · rw [← same] at after outcome
    exact ⟨after, .inl outcome⟩
  · rw [second] at after outcome
    constructor
    · show (Machine.after (select (evalWithin bound) env clauses) s).SameBesidesLog _
      rw [Machine.after, first]
      exact after
    · refine .inr ⟨v, u, unfit, ?_, outcome.symm⟩
      show Machine.outcome (select (evalWithin bound) env clauses) s = _
      rw [Machine.outcome, first]

/-- A selection without strings reaches the bound on nesting wherever the first clause that holds
does. -/
theorem outcome_select_tooDeep
    (deep : (firstHolding (evalWithin bound) env clauses).outcome s = .error .tooDeep) :
    (evalWithin (bound + 1) (.select clauses) env).outcome s = .error .tooDeep := by
  rw [Machine.outcome] at deep
  rcases select_eq_or_unfit textless with same | ⟨v, u, _, _, second⟩
  · rw [← same] at deep
    exact deep
  · rw [second] at deep
    cases deep

end Eval

/-- If no condition that is evaluated gives a string, a selection ends like the nested conditionals for
its clauses, of which there is at least one: with the same value or the same failure, and in the same
state but for the log. Only a condition that is no boolean is reported under another name.

This holds within the same bound, unless the conditionals reach it, which are nested deeper. And it
holds if the conditionals are given the number of the other clauses more, unless the selection reaches
its own bound. -/
theorem selection_is_nested_conditional (bound : Nat) (first : Expr × Expr)
    (rest : List (Expr × Expr)) (env : ScopeId) (s : State)
    (textless : ∀ test t v u, Eval.Tried (evalWithin bound) env (first :: rest) s test t →
      evalWithin bound test env t = .ok v u → v.kind? ≠ some .string) :
    ((evalWithin (bound + 1) (nestedConditional first rest) env).outcome s ≠ .error .tooDeep →
      Eval.SelectsAlike (evalWithin bound) env (first :: rest) s
        (evalWithin (bound + 1) (.select (first :: rest)) env)
        (evalWithin (bound + 1) (nestedConditional first rest) env)) ∧
    ((evalWithin (bound + 1) (.select (first :: rest)) env).outcome s ≠ .error .tooDeep →
      Eval.SelectsAlike (evalWithin bound) env (first :: rest) s
        (evalWithin (bound + 1) (.select (first :: rest)) env)
        (evalWithin (bound + rest.length + 1) (nestedConditional first rest) env)) := by
  have keeps := sameObjectsWithin_keepsObjects
  constructor
  · intro reached
    have follows := (firstHolding_follows_nested bound (Nat.le_refl bound) first rest env).mono
      fun _ _ => keeps.value.mp
    rcases follows.ends_unless keeps s with ⟨_, deep⟩ | ⟨outcome, after⟩
    · exact absurd deep reached
    · exact .of_firstHolding textless after outcome
  · intro reached
    have follows := (nested_follows_firstHolding bound first rest (Nat.le_refl _) env).mono
      fun _ _ => keeps.value.mp
    rcases follows.ends_unless keeps s with ⟨_, deep⟩ | ⟨outcome, after⟩
    · exact absurd (Eval.outcome_select_tooDeep textless deep) reached
    · exact .of_firstHolding textless after.symm outcome.symm

/-- A clause whose condition binds a name to false. -/
def seenClause : Expr × Expr := (.define "seen" (.literal (.boolean false)), .literal (.integer 1))

/-- A clause whose condition is a number. -/
def numberClause : Expr × Expr := (.literal (.integer 5), .literal (.integer 2))

/-- The first condition is false and binds its name. The second one is refused, by the selection and by
the conditional, each under its own name, and the binding stays. -/
theorem numberClause_refused_alike :
    (∀ test t v u, Eval.Tried (evalWithin 2) State.global [seenClause, numberClause]
      (State.initial none) test t → evalWithin 2 test State.global t = .ok v u →
      v.kind? ≠ some .string) ∧
    (evalWithin 3 (.select [seenClause, numberClause]) State.global).outcome (State.initial none) =
      .error (.wrongKind "case" [.boolean] (some .integer)) ∧
    (evalWithin 4 (nestedConditional seenClause [numberClause]) State.global).outcome
      (State.initial none) = .error (.wrongKind "if" [.boolean] (some .integer)) ∧
    Eval.SelectsAlike (evalWithin 2) State.global [seenClause, numberClause] (State.initial none)
      (evalWithin 3 (.select [seenClause, numberClause]) State.global)
      (evalWithin 4 (nestedConditional seenClause [numberClause]) State.global) := by
  have textless : ∀ test t v u, Eval.Tried (evalWithin 2) State.global [seenClause, numberClause]
      (State.initial none) test t → evalWithin 2 test State.global t = .ok v u →
      v.kind? ≠ some .string := by
    intro test t v u tried run
    cases tried with
    | here =>
      cases run
      nofun
    | later seen tried =>
      cases seen
      cases tried with
      | here =>
        cases run
        nofun
      | later number => cases number
  have refused : (evalWithin 3 (.select [seenClause, numberClause]) State.global).outcome
      (State.initial none) = .error (.wrongKind "case" [.boolean] (some .integer)) := rfl
  have nested := selection_is_nested_conditional 2 seenClause [numberClause] State.global
    (State.initial none) textless
  refine ⟨textless, refused, rfl, nested.2 ?_⟩
  rw [refused]
  nofun

end Smpl

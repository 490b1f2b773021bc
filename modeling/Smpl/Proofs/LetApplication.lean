import Smpl.Proofs.CallScopes
import Smpl.Proofs.Footprint

/-!
# A let is a call

A let evaluates its values in the scope at hand and its body in one new scope that binds all names. The
scope is made in another way than the scope of a call. All the same a let does what the call of a
procedure does that has the names as its parameters, the body as its body and the scope at hand as its
scope (`let_is_call`). The call leaves one log line more.
-/

namespace Smpl

namespace Eval

/-- Evaluates the values of bindings, and calls a procedure on them whose parameters are the names. -/
def callOfLet (eval : Evaluator) (env : ScopeId) (id : ObjectId) (bindings : List (String × Expr))
    (body : Expr) : Machine Value := do
  let values ← evalAll eval env (bindings.map (·.2))
  callProcedure eval (some ⟨id, some ⟨bindings.map (·.1), none, body⟩, some env⟩) values

end Eval

/-- The scope in which the body of a let is evaluated. -/
def letScope (bindings : List (String × Expr)) (values : List Value) (env : ScopeId) : Scope where
  bindings := Bindings.putAll (bindings.map (·.1)) values []
  parent := some env

variable {bound : Nat} {bindings : List (String × Expr)} {body : Expr} {env : ScopeId} {s t u : State}
  {values : List Value}

/-- Once its values are there, a let evaluates its body in a new scope that binds the names to them. -/
theorem evalWithin_letIn
    (turn : Eval.InTurn (evalWithin bound) env (bindings.map (·.2)) s values t) :
    evalWithin (bound + 1) (.letIn bindings body) env s =
      evalWithin bound body t.scopes.size
        { t with scopes := t.scopes.push (letScope bindings values env) } := by
  have same : (bindings.map (·.1)).length = values.length := by
    rw [← turn.length_eq, List.length_map, List.length_map]
  simp only [evalWithin, Eval.step, bind, EStateM.bind, Eval.evalAll_eq_ok.mpr turn,
    Machine.newScope_run t (some env) same]
  rfl

/-- A failure in the values is the failure of the let, and there is no new scope. -/
theorem evalWithin_letIn_error {before after : List Expr} {e : Expr} {failure : Failure}
    (split : bindings.map (·.2) = before ++ e :: after)
    (earlier : Eval.InTurn (evalWithin bound) env before s values t)
    (failed : evalWithin bound e env t = .error failure u) :
    evalWithin (bound + 1) (.letIn bindings body) env s = .error failure u := by
  simp only [evalWithin, Eval.step, bind, EStateM.bind, split, Eval.evalAll_eq_error earlier failed]

/-- No scope that was there before the body is changed by it, not even the scope of the let. -/
theorem scopes_after_letIn
    (turn : Eval.InTurn (evalWithin bound) env (bindings.map (·.2)) s values t) {k : ScopeId}
    (old : k < t.scopes.size) :
    ((evalWithin (bound + 1) (.letIn bindings body) env).after s).scopes[k]? = t.scopes[k]? := by
  rw [Machine.after, evalWithin_letIn turn]
  have spares := evalWithin_upholds (State.Spares.upheld t none) bound body
    (.inr (Nat.le_refl t.scopes.size)) (State.Spares.refl.push (letScope bindings values env))
  exact spares.same k old (Option.some_ne_none k).symm

theorem letIn_ends_as_call (bound : Nat) (id : ObjectId) (bindings : List (String × Expr))
    (body : Expr) (env : ScopeId) (s : State) :
    (evalWithin (bound + 1) (.letIn bindings body) env).outcome s =
        (Eval.callOfLet (evalWithin bound) env id bindings body).outcome s ∧
      ((evalWithin (bound + 1) (.letIn bindings body) env).after s).SameBesidesLog
        ((Eval.callOfLet (evalWithin bound) env id bindings body).after s) := by
  have alike : Evaluator.Follows sameObjects (evalWithin bound) (evalWithin bound) :=
    evalWithin_follows 0 (.inr rfl) bound
  simp only [Machine.outcome, Machine.after, Eval.callOfLet, evalWithin, Eval.step, bind, EStateM.bind]
  cases run : Eval.evalAll (evalWithin bound) env (bindings.map (·.2)) s with
  | error e t => exact ⟨rfl, t.log, rfl⟩
  | ok values t =>
    have full : (bindings.map (·.1)).length = values.length := by
      rw [← (Eval.evalAll_eq_ok.mp run).length_eq, List.length_map, List.length_map]
    exact (callProcedure_follows alike (p := ⟨id, some ⟨bindings.map (·.1), none, body⟩, some env⟩)
      rfl rfl full).ends t

/-- A let does what evaluating its values and calling a procedure on them does: it ends with the same
value or the same failure, and in the same state but for the log.

The values are evaluated one after the other in the scope of the let, and the first failure among them
is the failure of the let. With all values there, the body is evaluated in one new scope under the scope
of the let. In it a name has the value of its last binding. No scope that was there then changes any
more, so the let itself binds no name in its own scope. -/
theorem let_is_call (bound : Nat) (id : ObjectId) (bindings : List (String × Expr)) (body : Expr)
    (env : ScopeId) (s : State) :
    ((evalWithin (bound + 1) (.letIn bindings body) env).outcome s =
        (Eval.callOfLet (evalWithin bound) env id bindings body).outcome s ∧
      ((evalWithin (bound + 1) (.letIn bindings body) env).after s).SameBesidesLog
        ((Eval.callOfLet (evalWithin bound) env id bindings body).after s)) ∧
    (∀ values t, Eval.InTurn (evalWithin bound) env (bindings.map (·.2)) s values t →
      ∃ scope, evalWithin (bound + 1) (.letIn bindings body) env s =
          evalWithin bound body t.scopes.size { t with scopes := t.scopes.push scope } ∧
        scope.parent = some env ∧ scope.memo = none ∧
        (∀ name, scope.bindings.get? name =
          ((bindings.map (·.1)).zip values).reverse.lookup name) ∧
        ∀ k < t.scopes.size,
          ((evalWithin (bound + 1) (.letIn bindings body) env).after s).scopes[k]? = t.scopes[k]?) ∧
    (∀ before e after values t failure u, bindings.map (·.2) = before ++ e :: after →
      Eval.InTurn (evalWithin bound) env before s values t →
      evalWithin bound e env t = .error failure u →
      evalWithin (bound + 1) (.letIn bindings body) env s = .error failure u) := by
  refine ⟨letIn_ends_as_call bound id bindings body env s, fun values t turn => ?_, ?_⟩
  · refine ⟨letScope bindings values env, evalWithin_letIn turn, rfl, rfl, fun name => ?_,
      fun k old => scopes_after_letIn turn old⟩
    rw [letScope, Bindings.get?_putAll_eq]
    exact Option.or_none
  · intro before e after values t failure u split earlier failed
    exact evalWithin_letIn_error split earlier failed

/-- Binds `x` twice, and in between `y` to what `x` is outside. -/
def shadowingBindings : List (String × Expr) :=
  [("x", .literal (.integer 1)), ("y", .identifier "x"), ("x", .literal (.integer 3))]

/-- A global scope that binds `x` to 5. -/
def outerFive : State :=
  { State.initial none with
    scopes := #[{ bindings := [("x", numberedInteger 5)] }]
    nextObject := 6 }

/-- The values in turn: the second one is the outer `x`. -/
theorem shadowingBindings_inTurn :
    Eval.InTurn (evalWithin 1) State.global (shadowingBindings.map (·.2)) outerFive
      [.scalar 6 (.integer 1), numberedInteger 5, .scalar 7 (.integer 3)]
      { outerFive with nextObject := 8 } := by
  have found : State.lookup? { outerFive with nextObject := 7 } State.global "x" =
      some (numberedInteger 5) := by
    have global : outerFive.scopes[State.global]? = some { bindings := [("x", numberedInteger 5)] } := rfl
    rw [State.lookup?, State.lookupIn?_of_found global]
    rfl
  exact .cons rfl (.cons (Machine.lookup_eq_ok.mpr ⟨found, rfl⟩) (.cons rfl .nil))

/-- In the new scope `x` is 3 and `y` is 5, and outside `x` stays 5. -/
theorem shadowingBindings_bound :
    ∃ scope, evalWithin 2 (.letIn shadowingBindings (.identifier "x")) State.global outerFive =
        evalWithin 1 (.identifier "x") 1
          { outerFive with scopes := outerFive.scopes.push scope, nextObject := 8 } ∧
      scope.bindings.get? "x" = some (.scalar 7 (.integer 3)) ∧
      scope.bindings.get? "y" = some (numberedInteger 5) ∧
      ((evalWithin 2 (.letIn shadowingBindings (.identifier "x")) State.global).after
        outerFive).scopes[State.global]? = outerFive.scopes[State.global]? := by
  obtain ⟨_, binds, _⟩ := let_is_call 1 0 shadowingBindings (.identifier "x") State.global outerFive
  obtain ⟨scope, run, _, _, bound, kept⟩ := binds _ _ shadowingBindings_inTurn
  exact ⟨scope, run, bound "x", bound "y", kept State.global (by decide)⟩

end Smpl

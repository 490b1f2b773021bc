import Smpl.Proofs.Upkeep

/-!
# The memo of a scope

All lazy expressions of a scope share one memo. Once a scope has a memo, no evaluation changes it,
whatever the evaluation does and however it ends. From then on every lazy expression of the scope
has the memo as its value, and nothing in its body takes place: only the register is set, and a line
goes to the log.

A memo is set after the body of a lazy expression has been evaluated, and that body may have set the
memo itself. So it is not enough that a lazy expression looks for a memo first. What counts is that
it found none: then the scope is not the one whose memo was there at the start.
-/

namespace Smpl

/-! ## Writes -/

namespace State

variable {s : State} {k : ScopeId} {m : Value}

theorem memo?_eq (s : State) (k : ScopeId) : s.memo? k = s.scopes[k]?.bind (·.memo) := by
  rw [memo?]
  cases s.scopes[k]? <;> rfl

theorem memo?_pushScope (held : s.memo? k = some m) (scope : Scope) :
    State.memo? { s with scopes := s.scopes.push scope } k = some m := by
  rw [memo?_eq] at held ⊢
  obtain ⟨found, here, memo⟩ := Option.bind_eq_some_iff.mp held
  obtain ⟨old, same⟩ := Array.getElem?_eq_some_iff.mp here
  rw [Array.getElem?_push_lt old, same, Option.bind_some, memo]

theorem memo?_putAll (env : ScopeId) (names : List String) (values : List Value) :
    (s.putAll env names values).memo? k = s.memo? k := by
  rw [memo?_eq, memo?_eq, putAll, Array.getElem?_modify]
  split
  · cases s.scopes[k]? <;> rfl
  · rfl

theorem memo?_setMemo {env : ScopeId} (other : env ≠ k) (v : Value) :
    (s.setMemo env v).memo? k = s.memo? k := by
  rw [memo?_eq, memo?_eq, setMemo, Array.getElem?_modify, if_neg other]

/-- A memo outlasts every write of a run. -/
theorem upheld_memo (k : ScopeId) (m : Value) :
    State.Upheld (fun s => s.memo? k = some m) (fun _ => True) (· ≠ k) where
  beside := fun held scopes _ => by rw [memo?_eq, scopes, ← memo?_eq, held]
  newScope := fun scope held => ⟨memo?_pushScope held scope, trivial⟩
  putAll := fun names values held _ => by rw [memo?_putAll, held]
  unfilled := by
    rintro s env held - absent rfl
    cases held.symm.trans absent
  setMemo := fun v held _ other => by rw [memo?_setMemo other, held]
  newVector := fun _ held => held
  setSlot := fun _ _ _ held => held

end State

/-! ## Lazy expressions -/

/-- The state after a lazy expression has met the memo of its scope. -/
def State.recall (m : Value) (s : State) : State :=
  { s with
    register := m
    log := s.log.push ⟨.debug, "lazy memo hit: " ++ m.format s.vectors⟩ }

/-- A lazy expression has the memo of its scope as its value, whatever its body is. -/
theorem Eval.lazy_recalls (eval : Evaluator) (body : Expr) {s : State} {k : ScopeId} {m : Value}
    (held : s.memo? k = some m) : Eval.lazy eval body k s = .ok m (s.recall m) := by
  rw [Eval.lazy]
  simp only [bind, EStateM.bind, Machine.memo?_run, held]
  rfl

/-- While a scope has a memo, no evaluation changes it, whether it succeeds or fails, and before and
after it every lazy expression of the scope gives the memo and does nothing but set the register. -/
theorem memo_outlasts_evaluation (s : State) (k : ScopeId) (m : Value)
    (held : s.memo? k = some m) :
    (∀ body, (Node.statement (.eval (.lazy body))).evaluate k s = .ok m (s.recall m)) ∧
    ∀ (n : Node) (env : ScopeId),
      ((n.evaluate env).after s).memo? k = some m ∧
      ∀ body, (Node.statement (.eval (.lazy body))).evaluate k ((n.evaluate env).after s) =
        .ok m (((n.evaluate env).after s).recall m) := by
  have recalls {t : State} (held : t.memo? k = some m) (body : Expr) :
      (Node.statement (.eval (.lazy body))).evaluate k t = .ok m (t.recall m) :=
    Eval.lazy_recalls (evalWithin (nestingLimit - 1)) body held
  refine ⟨recalls held, fun n env => ?_⟩
  have kept : ((n.evaluate env).after s).memo? k = some m :=
    n.evaluate_upholds (State.upheld_memo k m) trivial held
  exact ⟨kept, recalls kept⟩

/-- A global scope whose memo is 7. -/
def memoized : State :=
  { State.initial none with
    scopes := #[{ memo := some (.scalar 1 (.integer 7)) }]
    nextObject := 2 }

/-- Evaluates a lazy expression of the scope at hand, sets the memo of an inner scope to 8, and then
fails. -/
def nestedLazies : Expr :=
  .letIn [("x", .lazy .missing)] (.block [.eval (.lazy (.literal (.integer 8))), .eval .missing])

/-- The inner scope gets a memo and the evaluation fails, and the global memo is 7 all the same. -/
theorem nestedLazies_spare_memo :
    memoized.memo? 0 = some (.scalar 1 (.integer 7)) ∧
    (Node.evaluate (.statement (.eval nestedLazies)) 0).outcome memoized = .error .missingNode ∧
    ((Node.evaluate (.statement (.eval nestedLazies)) 0).after memoized).memo? 1 =
      some (.scalar 3 (.integer 8)) ∧
    ((Node.evaluate (.statement (.eval nestedLazies)) 0).after memoized).memo? 0 =
      some (.scalar 1 (.integer 7)) := by
  have held : memoized.memo? 0 = some (.scalar 1 (.integer 7)) := rfl
  have kept := memo_outlasts_evaluation memoized 0 (.scalar 1 (.integer 7)) held
  exact ⟨held, rfl, rfl, (kept.2 (.statement (.eval nestedLazies)) 0).1⟩

end Smpl

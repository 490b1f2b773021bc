import Smpl.Proofs.Upkeep

/-!
# Where evaluation writes

Evaluation in a scope changes no other scope that was there before it. The names that a program
binds and the memos that it sets go to the scope at hand or to scopes made on the way. So a call,
whose body runs in a new scope, changes no scope at all that was there before it.
-/

namespace Smpl

/-! ## The invariant -/

/-- No scope of an earlier state has changed, except perhaps one. -/
structure State.Spares (s earlier : State) (except : Option ScopeId) : Prop where
  size : earlier.scopes.size ≤ s.scopes.size
  same : ∀ k < earlier.scopes.size, except ≠ some k → s.scopes[k]? = earlier.scopes[k]?

namespace State.Spares

variable {earlier s : State} {except : Option ScopeId}

theorem refl : Spares earlier earlier except := ⟨Nat.le_refl _, fun _ _ _ => rfl⟩

/-- A change to anything but the scopes. -/
theorem of_scopes {s' : State} (h : s.Spares earlier except) (same : s'.scopes = s.scopes) :
    s'.Spares earlier except := by
  constructor
  · rw [same]
    exact h.size
  · intro k old other
    rw [same]
    exact h.same k old other

theorem push (h : s.Spares earlier except) (scope : Scope) :
    State.Spares { s with scopes := s.scopes.push scope } earlier except := by
  constructor
  · have := h.size
    simp only [Array.size_push]
    omega
  · intro k old other
    have inside : k < s.scopes.size := Nat.lt_of_lt_of_le old h.size
    simp only [Array.getElem?_push_lt inside, ← Array.getElem?_eq_getElem inside]
    exact h.same k old other

theorem modify (h : s.Spares earlier except) {env : ScopeId}
    (writable : except = some env ∨ earlier.scopes.size ≤ env) (f : Scope → Scope) :
    State.Spares { s with scopes := s.scopes.modify env f } earlier except := by
  constructor
  · simpa using h.size
  · intro k old other
    -- The scope that is written is the exception or younger than the earlier state.
    have apart : env ≠ k := by
      rintro rfl
      rcases writable with here | new
      · exact other here
      · omega
    simp only [Array.getElem?_modify, if_neg apart]
    exact h.same k old other

end State.Spares

/-- Only scopes of evaluation are written. -/
theorem State.Spares.upheld (earlier : State) (except : Option ScopeId) :
    State.Upheld (fun s => s.Spares earlier except)
      (fun env => except = some env ∨ earlier.scopes.size ≤ env) (fun _ => True) where
  beside := fun spares scopes _ => spares.of_scopes scopes
  newScope := fun scope spares => ⟨spares.push scope, .inr spares.size⟩
  putAll := fun _ _ spares writable => spares.modify writable _
  unfilled := fun _ _ _ => trivial
  setMemo := fun _ spares writable _ => spares.modify writable _
  newVector := fun _ spares => spares.of_scopes rfl
  setSlot := fun _ _ _ spares => spares.of_scopes rfl

/-! ## Evaluation -/

theorem Node.evaluate_spares (n : Node) (env : ScopeId) (s : State) :
    ((n.evaluate env).after s).Spares s (some env) :=
  n.evaluate_upholds (State.Spares.upheld s (some env)) (.inl rfl) .refl

theorem callProcedure_spares (callee : Option Procedure) (arguments : List Value) (s : State) :
    ((callProcedure callee arguments).after s).Spares s none :=
  callProcedure_upholds (State.Spares.upheld s none) callee arguments .refl

/-- Evaluating any node in a scope leaves every other scope that was there before as it was: its
bindings, its parent and its memo. A call leaves all of them as they were, whatever its body does.
Both hold whether evaluation ends in a value or in a failure. -/
theorem evaluation_writes_own_scope_only (s : State) :
    (∀ (n : Node) (env k : ScopeId), k < s.scopes.size → k ≠ env →
      ((n.evaluate env).after s).scopes[k]? = s.scopes[k]?) ∧
    (∀ (callee : Option Procedure) (arguments : List Value) (k : ScopeId), k < s.scopes.size →
      ((callProcedure callee arguments).after s).scopes[k]? = s.scopes[k]?) := by
  constructor
  · intro n env k old other
    exact (n.evaluate_spares env s).same k old fun same => other (Option.some.inj same).symm
  · intro callee arguments k old
    exact (callProcedure_spares callee arguments s).same k old nofun

/-- A global scope that binds `x`, and a scope under it. -/
def nestedScopes : State :=
  { State.initial none with
    scopes := #[{ bindings := [("x", .scalar 1 (.integer 1))] }, { parent := some 0 }]
    nextObject := 2 }

/-- The statement `x := 2`. -/
def rebinding : Stmt := .define ["x"] [.literal (.integer 2)]

/-- A closure over the global scope whose body is `x := 2`. -/
def rebindingClosure : Procedure := ⟨0, some ⟨[], none, .block [rebinding]⟩, some 0⟩

/-- In the inner scope, and in a call of a closure over the global one, `x := 2` leaves the global
`x` alone. -/
theorem rebinding_spares_global :
    0 < nestedScopes.scopes.size ∧ 0 ≠ 1 ∧
    ((Node.evaluate (.statement rebinding) 1).after nestedScopes).scopes[1]?.map (·.bindings) =
      some [("x", .scalar 2 (.integer 2))] ∧
    ((Node.evaluate (.statement rebinding) 1).after nestedScopes).scopes[0]? =
      nestedScopes.scopes[0]? ∧
    ((callProcedure (some rebindingClosure) []).after nestedScopes).scopes[0]? =
      nestedScopes.scopes[0]? := by
  have old : 0 < nestedScopes.scopes.size := by decide
  have writes := evaluation_writes_own_scope_only nestedScopes
  exact ⟨old, by decide, rfl, writes.1 (.statement rebinding) 1 0 old (by decide),
    writes.2 (some rebindingClosure) [] 0 old⟩

end Smpl

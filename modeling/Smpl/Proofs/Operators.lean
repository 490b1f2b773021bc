import Smpl.Machine.Eval
import Smpl.Proofs.Complete

/-!
# Failures of operators

On sound operands an operator fails only with expected failures: an operand of a wrong kind, a
division by zero, a bound that a substring exceeds, or a symbol that no operator has.
-/

namespace Smpl

theorem error_of_bind {α β : Type} {x : Except Failure α} {f : α → Except Failure β} {e : Failure}
    (h : (x >>= f) = .error e) : x = .error e ∨ ∃ a, x = .ok a ∧ f a = .error e := by
  cases x with
  | ok a => exact .inr ⟨a, rfl, h⟩
  | error e' =>
    cases h
    exact .inl rfl

/-! ## Operands -/

theorem Value.Sound.truth_expected {operation : String} {v : Value} (hv : v.Sound) {f : Failure}
    (h : v.truth operation = .error f) : f.expected := by
  unfold Value.truth at h
  split at h <;> cases h
  exact hv.expected_kindOf _ _

theorem Value.Sound.int_expected {operation : String} {v : Value} (hv : v.Sound) {f : Failure}
    (h : v.int operation = .error f) : f.expected := by
  unfold Value.int at h
  split at h <;> cases h
  exact hv.expected_kindOf _ _

theorem Value.Sound.number_expected {operation : String} {v : Value} (hv : v.Sound) {f : Failure}
    (h : v.number operation = .error f) : f.expected := by
  unfold Value.number at h
  split at h <;> cases h
  exact hv.expected_kindOf _ _

theorem numbers_expected {operation : String} {l r : Value} (hl : l.Sound) (hr : r.Sound)
    {f : Failure} (h : numbers operation l r = .error f) : f.expected := by
  rcases error_of_bind h with left | ⟨m, _, h⟩
  · exact hl.number_expected left
  rcases error_of_bind h with right | ⟨n, _, h⟩
  · exact hr.number_expected right
  · split at h <;> cases h

/-! ## Binary operators -/

section Binary

variable {l r : Value} (hl : l.Sound) (hr : r.Sound) {f : Failure}

include hl hr

theorem arithmetic_expected {operation : String}
    {onIntegers : Int64 → Int64 → Except Failure Scalar}
    {onReals : Float → Float → Except Failure Scalar}
    (integers : ∀ m n f, onIntegers m n = .error f → f.expected)
    (reals : ∀ x y f, onReals x y = .error f → f.expected)
    (h : arithmetic operation onIntegers onReals l r = .error f) : f.expected := by
  rcases error_of_bind h with operands | ⟨ns, _, h⟩
  · exact numbers_expected hl hr operands
  · split at h
    · exact integers _ _ _ h
    · exact reals _ _ _ h

/-- An operation that is defined on all numbers fails only because of its operands. -/
theorem arithmetic_total_expected {operation : String} {onIntegers : Int64 → Int64 → Scalar}
    {onReals : Float → Float → Scalar}
    (h : arithmetic operation (fun m n => .ok (onIntegers m n)) (fun x y => .ok (onReals x y)) l r =
      .error f) : f.expected := by
  refine arithmetic_expected hl hr (fun _ _ _ h => ?_) (fun _ _ _ h => ?_) h
  · cases h
  · cases h

theorem quotient_expected (h : quotient l r = .error f) : f.expected := by
  refine arithmetic_expected hl hr (fun m n f h => ?_) (fun x y f h => ?_) h
  · split at h <;> cases h
    rfl
  · split at h <;> cases h
    rfl

theorem modulus_expected (h : modulus l r = .error f) : f.expected := by
  refine arithmetic_expected hl hr (fun m n f h => ?_) (fun x y f h => ?_) h
  · split at h <;> cases h
    rfl
  · split at h <;> cases h
    rfl

theorem order_expected {operation : String} (h : order? operation l r = .error f) : f.expected := by
  unfold order? at h
  split at h
  · split at h <;> cases h
    exact hr.expected_kindOf _ _
  · rcases error_of_bind h with operands | ⟨ns, _, h⟩
    · exact numbers_expected hl hr operands
    · split at h <;> cases h

theorem relation_expected {operation : String} {holds : List Ordering}
    (h : relation operation holds l r = .error f) : f.expected := by
  rcases error_of_bind h with operands | ⟨o, _, h⟩
  · exact order_expected hl hr operands
  · split at h <;> cases h

theorem logical_expected {operation : String} {g : Bool → Bool → Bool}
    (h : logical operation g l r = .error f) : f.expected := by
  rcases error_of_bind h with left | ⟨_, _, h⟩
  · exact hl.truth_expected left
  rcases error_of_bind h with right | ⟨_, _, h⟩
  · exact hr.truth_expected right
  · cases h

theorem bitwise_expected {operation : String} {g : Int64 → Int64 → Int64}
    (h : bitwise operation g l r = .error f) : f.expected := by
  rcases error_of_bind h with left | ⟨_, _, h⟩
  · exact hl.int_expected left
  rcases error_of_bind h with right | ⟨_, _, h⟩
  · exact hr.int_expected right
  · cases h

theorem applyBinary_expected {vectors : Vectors} {symbol : String}
    (h : applyBinary vectors symbol l r = .error f) : f.expected := by
  unfold applyBinary at h
  split at h
  · next op _ =>
    cases op with
    | add => exact arithmetic_total_expected hl hr h
    | sub => exact arithmetic_total_expected hl hr h
    | mul => exact arithmetic_total_expected hl hr h
    | pow => exact arithmetic_total_expected hl hr h
    | div => exact quotient_expected hl hr h
    | mod => exact modulus_expected hl hr h
    | equal => cases h
    | notEqual => cases h
    | less => exact relation_expected hl hr h
    | lessEqual => exact relation_expected hl hr h
    | greater => exact relation_expected hl hr h
    | greaterEqual => exact relation_expected hl hr h
    | and => exact logical_expected hl hr h
    | or => exact logical_expected hl hr h
    | bitAnd => exact bitwise_expected hl hr h
    | bitOr => exact bitwise_expected hl hr h
  · cases h
    rfl

end Binary

/-! ## Other operators -/

theorem applyUnary_expected {symbol : String} (known : symbol = notSymbol ∨ symbol = complementSymbol)
    {v : Value} (hv : v.Sound) {f : Failure} (h : applyUnary symbol v = .error f) : f.expected := by
  unfold applyUnary at h
  split at h
  · rcases error_of_bind h with operand | ⟨_, _, h⟩
    · exact hv.truth_expected operand
    · cases h
  split at h
  · rcases error_of_bind h with operand | ⟨_, _, h⟩
    · exact hv.int_expected operand
    · cases h
  next notNot notComplement => exact absurd known (not_or.mpr ⟨notNot, notComplement⟩)

theorem Value.Sound.first_expected {v : Value} (hv : v.Sound) {f : Failure}
    (h : Eval.first v = .error f) : f.expected := by
  unfold Eval.first at h
  split at h <;> cases h
  exact hv.expected_kindOf _ _

theorem Value.Sound.second_expected {v : Value} (hv : v.Sound) {f : Failure}
    (h : Eval.second v = .error f) : f.expected := by
  unfold Eval.second at h
  split at h <;> cases h
  exact hv.expected_kindOf _ _

theorem Value.Sound.pairTest_expected {v : Value} (hv : v.Sound) {f : Failure}
    (h : Eval.pairTest v = .error f) : f.expected := by
  unfold Eval.pairTest at h
  split at h <;> cases h
  exact hv.expected_kindOf _ _

/-- The bounds that a substring is checked against keep it inside of its string. -/
theorem Eval.slice_expected {s : String} {start stop : Int64} {f : Failure}
    (h : Eval.slice s start stop = .error f) : f.expected := by
  simp only [Eval.slice] at h
  split at h
  · cases h; rfl
  split at h
  · cases h; rfl
  split at h
  · cases h
  -- The three checks leave `0 ≤ start ≤ stop ≤ length`, which is what the characters need.
  next inStart inStop ordered =>
  have nonneg : 0 ≤ start.toInt := by
    have := fun negative => inStart (.inl negative)
    simpa [Int64.lt_iff_toInt_lt] using this
  have ordered : start.toInt ≤ stop.toInt := by simpa [Int64.lt_iff_toInt_lt] using ordered
  unfold Eval.characters at h
  rw [if_pos (by omega)] at h
  cases h

end Smpl

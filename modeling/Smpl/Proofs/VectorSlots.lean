import Smpl.Proofs.Upkeep

/-!
# Vectors and their slots

No evaluation takes a vector away or changes the number of its slots, whether it succeeds or fails
(`State.upheld_lengths`).

An assignment to a slot (`Eval.Assigns`)
* evaluates the index;
* finds the vector that the name then stands for, which must have the slot;
* evaluates the value;
* and writes the value to the slot of that vector.

Any code can run between the check and the write: the value may bind the name anew, or assign to the
same vector itself. The write goes to the vector that was found all the same, and the slot is still
there, since vectors keep their length.
-/

namespace Smpl

/-! ## Lengths -/

theorem Vectors.slots_push {vectors : Vectors} {id : VectorId} (old : id < vectors.size)
    (new : Array Value) : Vectors.slots (vectors.push new) id = vectors.slots id := by
  rw [slots, slots, Array.getD_eq_getD_getElem?, Array.getD_eq_getD_getElem?,
    Array.getElem?_push_lt old, Array.getElem?_eq_getElem old]

/-- A place that holds no vector has no slots. -/
theorem Vectors.lt_of_slot {vectors : Vectors} {id : VectorId} {i : Nat}
    (inside : i < (vectors.slots id).size) : id < vectors.size := by
  rcases Nat.lt_or_ge id vectors.size with old | absent
  · exact old
  · rw [slots, Array.getD_eq_getD_getElem?, Array.getElem?_eq_none absent] at inside
    exact absurd inside (Nat.not_lt_zero i)

theorem State.slots_setSlot (s : State) (id other : VectorId) (i : Nat) (v : Value) :
    (s.setSlot id i v).vectors.slots other =
      if id = other then (s.vectors.slots other).setIfInBounds i v else s.vectors.slots other := by
  rw [Vectors.slots, Vectors.slots, Array.getD_eq_getD_getElem?, Array.getD_eq_getD_getElem?,
    State.setSlot, Array.getElem?_modify]
  split
  · cases s.vectors[other]? <;> simp
  · rfl

/-- Every vector of an earlier state is still there and has as many slots. -/
structure State.KeepsLengths (earlier s : State) : Prop where
  count : earlier.vectors.size ≤ s.vectors.size
  length : ∀ id < earlier.vectors.size,
    (s.vectors.slots id).size = (earlier.vectors.slots id).size

theorem State.keepsLengths_refl (s : State) : s.KeepsLengths s :=
  ⟨Nat.le_refl _, fun _ _ => rfl⟩

theorem State.upheld_lengths (earlier : State) :
    State.Upheld earlier.KeepsLengths (fun _ => True) (fun _ => True) where
  beside := by
    rintro s s' ⟨count, length⟩ - vectors
    exact ⟨vectors ▸ count, vectors ▸ length⟩
  newScope := fun _ h => ⟨⟨h.count, h.length⟩, trivial⟩
  putAll := fun _ _ h _ => ⟨h.count, h.length⟩
  unfilled := fun _ _ _ => trivial
  setMemo := fun _ h _ _ => ⟨h.count, h.length⟩
  newVector := by
    rintro s slots ⟨count, length⟩
    refine ⟨Nat.le_trans count (by simp), fun id old => ?_⟩
    rw [Vectors.slots_push (Nat.lt_of_lt_of_le old count), length id old]
  setSlot := by
    rintro s id i v ⟨count, length⟩
    refine ⟨by simpa [State.setSlot] using count, fun other old => ?_⟩
    rw [State.slots_setSlot, ← length other old]
    split
    · exact Array.size_setIfInBounds
    · rfl

/-- A slot that a vector has is still there after any evaluation. -/
theorem slot_outlasts (bound : Nat) {e : Expr} {env : ScopeId} {s t : State} {v : Value}
    (run : evalWithin bound e env s = .ok v t) {id : VectorId} {i : Nat}
    (inside : i < (s.vectors.slots id).size) : i < (t.vectors.slots id).size := by
  have kept : s.KeepsLengths ((evalWithin bound e env).after s) :=
    evalWithin_upholds s.upheld_lengths bound e trivial s.keepsLengths_refl
  rw [Machine.after, run] at kept
  rw [kept.length id (Vectors.lt_of_slot inside)]
  exact inside

/-! ## Assignments -/

namespace Eval

/-- How an assignment comes to its write. The index is evaluated; the name then stands for the vector
`id`, which has the slot; the value is evaluated to `v`, and `t` is the state after it. -/
inductive Assigns (eval : Evaluator) (env : ScopeId) (name : String) (position value : Expr)
    (s : State) : VectorId → Nat → Value → State → Prop
  | intro {index : Value} {found : State} {p : Int64} {id : VectorId} {v : Value} {t : State} :
      eval position env s = .ok index found → slotPosition index = .ok p →
      found.lookup? env name = some (.vector id) →
      0 ≤ p → p.toInt.toNat < (found.vectors.slots id).size →
      eval value env found = .ok v t →
      Assigns eval env name position value s id p.toInt.toNat v t

variable {eval : Evaluator} {env : ScopeId} {name : String} {position : Expr} {s t : State}
  {id : VectorId} {i : Nat}

theorem vectorOf_eq_ok {operation : String} {v : Value} :
    vectorOf operation v = .ok id ↔ v = .vector id := by
  cases v <;> simp [vectorOf]

theorem findSlot_eq_ok :
    findSlot eval name position env s = .ok (id, i) t ↔
      ∃ index p, eval position env s = .ok index t ∧ slotPosition index = .ok p ∧
        t.lookup? env name = some (.vector id) ∧ 0 ≤ p ∧ p.toInt.toNat = i ∧
        i < (t.vectors.slots id).size := by
  unfold findSlot
  constructor
  · intro h
    obtain ⟨index, s₁, run, h₁⟩ := Machine.bind_eq_ok.mp h
    obtain ⟨p, s₂, lifted, h₂⟩ := Machine.bind_eq_ok.mp h₁
    obtain ⟨taken, rfl⟩ := Machine.lift_eq_ok.mp lifted
    obtain ⟨target, s₃, lookedUp, h₃⟩ := Machine.bind_eq_ok.mp h₂
    obtain ⟨bound, rfl⟩ := Machine.lookup_eq_ok.mp lookedUp
    obtain ⟨id', s₄, lifted, h₄⟩ := Machine.bind_eq_ok.mp h₃
    obtain ⟨vector, rfl⟩ := Machine.lift_eq_ok.mp lifted
    obtain ⟨size, s₅, measured, h₅⟩ := Machine.bind_eq_ok.mp h₄
    cases measured
    cases vectorOf_eq_ok.mp vector
    split at h₅
    · cases h₅
    · next inside =>
      cases h₅
      obtain ⟨nonneg, inside⟩ := not_or.mp inside
      exact ⟨index, p, run, taken, bound, Int64.not_lt.mp nonneg, rfl, Nat.lt_of_not_le inside⟩
  · rintro ⟨index, p, run, taken, bound, nonneg, rfl, inside⟩
    refine Machine.bind_eq_ok.mpr ⟨index, t, run, ?_⟩
    refine Machine.bind_eq_ok.mpr ⟨p, t, Machine.lift_eq_ok.mpr ⟨taken, rfl⟩, ?_⟩
    refine Machine.bind_eq_ok.mpr ⟨.vector id, t, Machine.lookup_eq_ok.mpr ⟨bound, rfl⟩, ?_⟩
    refine Machine.bind_eq_ok.mpr ⟨id, t, Machine.lift_eq_ok.mpr ⟨rfl, rfl⟩, ?_⟩
    refine Machine.bind_eq_ok.mpr ⟨_, t, Machine.vectorSize_run t id, ?_⟩
    have valid : ¬ (p < 0 ∨ (t.vectors.slots id).size ≤ p.toInt.toNat) :=
      not_or.mpr ⟨Int64.not_lt.mpr nonneg, Nat.not_le_of_lt inside⟩
    rw [if_neg valid]
    rfl

theorem assignSlot_eq_ok {bound : Nat} {values : List Expr} {u : Unit} :
    assignSlot (evalWithin bound) env name position values s = .ok u t ↔
      ∃ value id i v t₁, values = [value] ∧
        Assigns (evalWithin bound) env name position value s id i v t₁ ∧ t = t₁.setSlot id i v := by
  constructor
  · intro h
    unfold assignSlot at h
    split at h
    · next value =>
      obtain ⟨⟨id, i⟩, s₁, found, h₁⟩ := Machine.bind_eq_ok.mp h
      obtain ⟨v, s₂, run, h₂⟩ := Machine.bind_eq_ok.mp h₁
      obtain ⟨index, p, indexed, taken, bound, nonneg, rfl, inside⟩ := findSlot_eq_ok.mp found
      rw [Machine.setSlot_run] at h₂
      split at h₂
      · cases h₂
        exact ⟨value, id, _, v, s₂, rfl, .intro indexed taken bound nonneg inside run, rfl⟩
      · cases h₂
    · cases h
  · rintro ⟨value, id, i, v, t₁, rfl, ⟨indexed, taken, bound, nonneg, inside, run⟩, rfl⟩
    have found := findSlot_eq_ok.mpr ⟨_, _, indexed, taken, bound, nonneg, rfl, inside⟩
    refine Machine.bind_eq_ok.mpr ⟨_, _, found, Machine.bind_eq_ok.mpr ⟨v, t₁, run, ?_⟩⟩
    -- What was checked before the value still holds after it.
    rw [Machine.setSlot_run, if_pos (slot_outlasts _ run inside)]

theorem assign_eq_ok {bound : Nat} {values : List Expr} {r : Value} :
    statement (evalWithin bound) env (.assign name position values) s = .ok r t ↔
      ∃ value id i v t₁, values = [value] ∧
        Assigns (evalWithin bound) env name position value s id i v t₁ ∧
        r = .scalar t₁.nextObject (.boolean true) ∧
        t = { t₁.setSlot id i v with nextObject := t₁.nextObject + 1 } := by
  constructor
  · intro h
    obtain ⟨_, s₁, assigned, made⟩ := Machine.bind_eq_ok.mp h
    obtain ⟨value, id, i, v, t₁, single, assigns, rfl⟩ := assignSlot_eq_ok.mp assigned
    cases made
    exact ⟨value, id, i, v, t₁, single, assigns, rfl, rfl⟩
  · rintro ⟨value, id, i, v, t₁, single, assigns, rfl, rfl⟩
    refine Machine.bind_eq_ok.mpr ⟨(), t₁.setSlot id i v, assignSlot_eq_ok.mpr ?_, rfl⟩
    exact ⟨value, id, i, v, t₁, single, assigns, rfl⟩

theorem Assigns.inside {bound : Nat} {value : Expr} {v : Value}
    (h : Assigns (evalWithin bound) env name position value s id i v t) :
    i < (t.vectors.slots id).size := by
  cases h with
  | intro _ _ _ _ inside run => exact slot_outlasts bound run inside

end Eval

/-! ## What an assignment writes -/

namespace State

variable {s : State} {id : VectorId} {i : Nat}

theorem slot_setSlot (inside : i < (s.vectors.slots id).size) (v : Value) :
    ((s.setSlot id i v).vectors.slots id)[i]? = some v := by
  rw [slots_setSlot, if_pos rfl, Array.getElem?_setIfInBounds_self_of_lt inside]

theorem slot_setSlot_other {other : VectorId} {j : Nat} (apart : other ≠ id ∨ j ≠ i) (v : Value) :
    ((s.setSlot id i v).vectors.slots other)[j]? = (s.vectors.slots other)[j]? := by
  rw [slots_setSlot]
  split
  · next same =>
    have different : i ≠ j := fun here => apart.elim (absurd same.symm) (absurd here.symm)
    rw [Array.getElem?_setIfInBounds_ne different]
  · rfl

end State

/-- Vectors keep their length through every evaluation and every call. An assignment to a slot
succeeds if and only if its index, its vector and its value are found in this order, and all that it
does beyond evaluating the two is to write the value to that slot of that vector, which still has the
slot, and to make the value that it gives. -/
theorem assignment_writes_one_slot :
    (∀ (n : Node) (env : ScopeId) (s : State), s.KeepsLengths ((n.evaluate env).after s)) ∧
    (∀ (callee : Option Procedure) (arguments : List Value) (s : State),
      s.KeepsLengths ((callProcedure callee arguments).after s)) ∧
    (∀ (bound : Nat) (env : ScopeId) (name : String) (position : Expr) (values : List Expr)
      (s t : State) (r : Value),
      Eval.statement (evalWithin bound) env (.assign name position values) s = .ok r t ↔
        ∃ value id i v t₁, values = [value] ∧
          Eval.Assigns (evalWithin bound) env name position value s id i v t₁ ∧
          r = .scalar t₁.nextObject (.boolean true) ∧
          t = { t₁.setSlot id i v with nextObject := t₁.nextObject + 1 }) ∧
    (∀ (bound : Nat) (env : ScopeId) (name : String) (position value : Expr) (s t₁ : State)
      (id : VectorId) (i : Nat) (v : Value),
      Eval.Assigns (evalWithin bound) env name position value s id i v t₁ →
        i < (t₁.vectors.slots id).size ∧
        ((t₁.setSlot id i v).vectors.slots id)[i]? = some v ∧
        ∀ other j, other ≠ id ∨ j ≠ i →
          ((t₁.setSlot id i v).vectors.slots other)[j]? = (t₁.vectors.slots other)[j]?) := by
  refine ⟨fun n env s => ?_, fun callee arguments s => ?_, ?_, ?_⟩
  · exact n.evaluate_upholds s.upheld_lengths trivial s.keepsLengths_refl
  · exact callProcedure_upholds s.upheld_lengths callee arguments s.keepsLengths_refl
  · exact fun _ _ _ _ _ _ _ _ => Eval.assign_eq_ok
  · intro bound env name position value s t₁ id i v assigns
    exact ⟨assigns.inside, State.slot_setSlot assigns.inside v,
      fun _ _ apart => State.slot_setSlot_other apart v⟩

/-- A global scope that binds `v` to a vector with one slot. -/
def oneVector : State :=
  { State.initial none with
    scopes := #[{ bindings := [("v", .vector 0)] }]
    vectors := #[#[.scalar 1 (.integer 1)]]
    nextObject := 2 }

/-- Binds `v` to another vector, and then gives 5. -/
def rebindingValue : Expr :=
  .block [.define ["v"] [.vector []], .eval (.literal (.integer 5))]

/-- The state after the index and the value of `v[0] := rebindingValue`. -/
def rebound : State := (eval rebindingValue 0).after ((eval (.literal (.integer 0)) 0).after oneVector)

theorem lookup_oneVector :
    ((eval (.literal (.integer 0)) 0).after oneVector).lookup? 0 "v" = some (.vector 0) := by
  have here : ((eval (.literal (.integer 0)) 0).after oneVector).scopes[0]? =
      some { bindings := [("v", .vector 0)] } := rfl
  rw [State.lookup?, State.lookupIn?_of_found here]
  rfl

/-- The value of `v[0] := rebindingValue` binds `v` to a vector without slots. The assignment succeeds
and the first vector gets the value. -/
theorem rebound_vector_written :
    Eval.Assigns eval 0 "v" (.literal (.integer 0)) rebindingValue oneVector 0 0
      (.scalar 5 (.integer 5)) rebound ∧
    rebound.scopes[0]?.map (·.bindings) = some [("v", .vector 1)] ∧
    Eval.statement eval 0 (.assign "v" (.literal (.integer 0)) [rebindingValue]) oneVector =
      .ok (.scalar 6 (.boolean true))
        { rebound.setSlot 0 0 (.scalar 5 (.integer 5)) with nextObject := 7 } ∧
    ((rebound.setSlot 0 0 (.scalar 5 (.integer 5))).vectors.slots 0)[0]? =
      some (.scalar 5 (.integer 5)) := by
  have position : Eval.slotPosition (.scalar 2 (.integer 0)) = .ok 0 := rfl
  have assigns : Eval.Assigns eval 0 "v" (.literal (.integer 0)) rebindingValue oneVector 0 0
      (.scalar 5 (.integer 5)) rebound :=
    .intro rfl position lookup_oneVector (by decide) (by decide) rfl
  obtain ⟨_, _, succeeds, writes⟩ := assignment_writes_one_slot
  have succeeded := (succeeds nestingLimit 0 "v" (.literal (.integer 0)) [rebindingValue] oneVector
    _ _).mpr ⟨rebindingValue, 0, 0, .scalar 5 (.integer 5), rebound, rfl, assigns, rfl, rfl⟩
  exact ⟨assigns, rfl, succeeded, (writes nestingLimit 0 "v" _ _ _ _ _ _ _ assigns).2.1⟩

end Smpl

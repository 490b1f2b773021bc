import Smpl.Proofs.Numbering
import Smpl.Proofs.Routines

/-!
# New objects

Most forms of expressions make an object: literals, procedures, pairs, lists with elements, vectors,
generators, and all those that compute a scalar (`Expr.makesObject`). The object is made at the end,
after the parts have been evaluated, so it is none that existed before and none that a part gave. The
other forms pass on an object that exists: names, parts of pairs and lists, slots, branches, calls and
lazy expressions.

What the parts of an expression gave, and their parts in turn, does not show in its value. So evaluation
is compared with one that stops as soon as anything that it evaluates gives a certain object
(`evalAvoiding`).

* Evaluation takes back no number (`evalWithin_grows`).
* Evaluation that avoids an object does the same as evaluation, or it stops on the way with the object,
  which has been made there (`evalAvoiding_avoids`).
* A routine that makes an object (`Making`) gives one that had not been made before its last machine
  started. So the evaluation of the parts has not met it (`Making.gives_new`).

Main result: `made_objects_are_new`.
-/

namespace Smpl

/-! ## Counts grow -/

namespace Machine

/-- A machine that takes back no number. -/
def Grows {α : Type} (m : Machine α) : Prop := ∀ s : State, s.counts ≤ (m.after s).counts

variable {α β : Type} {m : Machine α}

theorem grows_of_same (same : ∀ s, (m.after s).counts = s.counts) : m.Grows :=
  fun s => le_of_eq (same s).symm

theorem grows_bind {f : α → Machine β} (first : m.Grows) (second : ∀ a, (f a).Grows) :
    (m >>= f).Grows := by
  intro s
  have grown := first s
  cases run : m s with
  | ok a t =>
    rw [after_of_ok run] at grown
    rw [after_bind_of_ok run]
    exact le_trans grown (second a t)
  | error e t =>
    rw [after_of_error run] at grown
    rwa [after_bind_of_error run]

theorem elementary_grows : Elementary fun _ m => m.Grows where
  success _ := grows_of_same fun _ => rfl
  fail _ := grows_of_same fun _ => rfl
  newObjects _ _ := ⟨Nat.le_add_right _ _, Nat.le_refl _⟩
  newVector slots s := ⟨Nat.le_refl _, by
    rw [after_of_ok (newVector_run s slots)]
    simp [State.counts]⟩
  newScope names values parent := grows_of_same fun s => by
    by_cases same : names.length = values.length
    · rw [after_of_ok (newScope_run s parent same)]
      rfl
    · rw [newScope, if_neg same]
      rfl
  lookup env name := grows_of_same fun s => by
    rw [after, lookup_run]
    cases s.lookup? env name <;> rfl
  putAll _ _ _ := grows_of_same fun _ => rfl
  memo? _ := grows_of_same fun _ => rfl
  vectorSize _ := grows_of_same fun _ => rfl
  slot id position := grows_of_same fun s => by
    rw [after, slot_run]
    cases (s.vectors.slots id)[position]? <;> rfl
  setSlot id position v := grows_of_same fun s => by
    rw [after, setSlot_run]
    by_cases inside : position < (s.vectors.slots id).size
    · rw [if_pos inside]
      simp [State.counts, State.setSlot]
    · rw [if_neg inside]
  register := grows_of_same fun _ => rfl
  setRegister _ := grows_of_same fun _ => rfl
  write _ := grows_of_same fun _ => rfl
  note _ _ := grows_of_same fun _ => rfl
  format _ := grows_of_same fun _ => rfl
  binary symbol left right := grows_of_same fun s => by
    rw [after, binary_run]
    cases applyBinary s.vectors symbol left right <;> rfl
  readLine := grows_of_same fun s => by
    obtain ⟨console, state⟩ := readLine_after s
    rw [state]
    rfl
  readInteger := grows_of_same fun s => by
    obtain ⟨console, state⟩ := readInteger_after s
    rw [state]
    rfl

end Machine

/-- Routines that take back no number but perhaps in a call. -/
abbrev Growing (env : ScopeId) {α : Type} (r : Routine α) : Prop := Composed (fun _ m => m.Grows) env r

theorem growing_step (e : Expr) (env : ScopeId) : Growing env fun eval => Eval.step eval e env := by
  by_cases isLazy : ∃ body, e = .lazy body
  · obtain ⟨body, rfl⟩ := isLazy
    exact Machine.elementary_grows.lazy (fun v => Machine.grows_of_same fun _ => rfl) body
  · exact Machine.elementary_grows.step fun body same => isLazy ⟨body, same⟩

theorem Composed.grows {env : ScopeId} {α : Type} {r : Routine α} (composed : Growing env r)
    {eval : Evaluator} (calls : ∀ e env, (eval e env).Grows) : (r eval).Grows := by
  induction composed with
  | machine grows => exact grows
  | call e => exact calls e _
  | bind _ _ first second => exact Machine.grows_bind first second
  | inside grows _ second => exact Machine.grows_bind grows second

theorem evalWithin_grows (bound : Nat) (e : Expr) (env : ScopeId) : (evalWithin bound e env).Grows := by
  induction bound generalizing e env with
  | zero => exact Machine.grows_of_same fun _ => rfl
  | succ bound ih => exact (growing_step e env).grows ih

/-! ## Avoiding a value -/

/-- Stops if the value is the object to be avoided, and leaves it in the register. -/
def Machine.avoid (v : Value) (m : Machine Value) : Machine Value := do
  let u ← m
  if v.identical u then do
    Machine.setRegister u
    throw .tooDeep
  else pure u

/-- Evaluation that stops as soon as anything that it evaluates gives the object `v`. -/
def evalAvoiding (v : Value) : Nat → Evaluator
  | 0 => fun _ _ => throw .tooDeep
  | bound + 1 => fun e env => (Eval.step (evalAvoiding v bound) e env).avoid v

/-- The second machine does the same as the first one, or it stops with the object `v`, after no more
objects have been made than the first one makes. -/
def Machine.Avoids (v : Value) {α : Type} (m m' : Machine α) : Prop :=
  ∀ s, m' s = m s ∨
    ∃ t, m' s = .error .tooDeep t ∧ v.identical t.register ∧ t.counts ≤ (m.after s).counts

namespace Machine.Avoids

variable {v : Value} {α β : Type} {m m' : Machine α}

theorem refl (m : Machine α) : Avoids v m m := fun _ => .inl rfl

theorem bind {f f' : α → Machine β} (first : Avoids v m m') (second : ∀ a, Avoids v (f a) (f' a))
    (grows : ∀ a, (f a).Grows) : Avoids v (m >>= f) (m' >>= f') := by
  intro s
  obtain same | ⟨t, stopped, found, before⟩ := first s
  · cases run : m s with
    | ok a s₁ =>
      rw [run] at same
      rw [after_bind_of_ok run]
      simpa only [Bind.bind, EStateM.bind, run, same] using second a s₁
    | error e s₁ =>
      rw [run] at same
      exact .inl (by simp only [Bind.bind, EStateM.bind, run, same])
  · refine .inr ⟨t, by simp only [Bind.bind, EStateM.bind, stopped], found, ?_⟩
    cases run : m s with
    | ok a s₁ =>
      -- The first run goes on from the place where the second one has stopped.
      rw [after_of_ok run] at before
      rw [after_bind_of_ok run]
      exact le_trans before (grows a s₁)
    | error e s₁ =>
      rw [after_of_error run] at before
      rwa [after_bind_of_error run]

theorem avoid {m m' : Machine Value} (h : Avoids v m m') : Avoids v m (m'.avoid v) := by
  intro s
  obtain same | ⟨t, stopped, found, before⟩ := h s
  · cases run : m s with
    | ok u s₁ =>
      rw [run] at same
      by_cases found : v.identical u
      · refine .inr ⟨{ s₁ with register := u }, ?_, found, ?_⟩
        · simp only [Machine.avoid, Bind.bind, EStateM.bind, same, if_pos found]
          rfl
        · rw [after_of_ok run]
          exact le_refl _
      · refine .inl ?_
        simp only [Machine.avoid, Bind.bind, EStateM.bind, same, if_neg found]
        rfl
    | error e s₁ =>
      rw [run] at same
      exact .inl (by simp only [Machine.avoid, Bind.bind, EStateM.bind, same])
  · exact .inr ⟨t, by simp only [Machine.avoid, Bind.bind, EStateM.bind, stopped], found, before⟩

end Machine.Avoids

theorem Composed.avoids {v : Value} {env : ScopeId} {α : Type} {r : Routine α}
    (composed : Growing env r) {eval eval' : Evaluator} (grows : ∀ e env, (eval e env).Grows)
    (calls : ∀ e env, Machine.Avoids v (eval e env) (eval' e env)) :
    Machine.Avoids v (r eval) (r eval') := by
  induction composed with
  | machine => exact .refl _
  | call e => exact calls e _
  | bind _ rest first second => exact .bind first second fun a => (rest a).grows grows
  | inside _ rest second => exact .bind (.refl _) second fun k => (rest k).grows grows

theorem evalAvoiding_avoids (v : Value) (bound : Nat) (e : Expr) (env : ScopeId) :
    Machine.Avoids v (evalWithin bound e env) (evalAvoiding v bound e env) := by
  induction bound generalizing e env with
  | zero => exact .refl _
  | succ bound ih =>
    have step : Machine.Avoids v (evalWithin (bound + 1) e env)
        (Eval.step (evalAvoiding v bound) e env) :=
      (growing_step e env).avoids (evalWithin_grows bound) ih
    exact step.avoid

/-- Evaluation that avoids an object gives values that have been made, and so is the one that it stops
with. -/
theorem evalAvoiding_evaluates (v : Value) (bound : Nat) :
    numbering.Evaluates (evalAvoiding v bound) := by
  have law := NumberingRuns.lawful
  induction bound with
  | zero => exact fun _ _ _ _ _ => law.outgrown rfl
  | succ bound ih =>
    intro c e env allowed here
    refine law.bind (law.step ih False.elim allowed here) fun u d _ made => ?_
    split
    · exact law.bind (law.setRegister made) fun _ _ _ _ => law.outgrown rfl
    · exact law.pure made

/-! ## Routines that make an object -/

/-- A machine that gives a value which has not been made before. -/
def Machine.Makes (m : Machine Value) : Prop :=
  ∀ s v s', m s = .ok v s' → ¬ v.Exists s.counts

/-- A routine whose last machine makes its value. -/
inductive Making : Routine Value → Prop
  | now {m : Machine Value} : m.Makes → Making fun _ => m
  | after (env : ScopeId) {α : Type} {r : Routine α} {f : α → Routine Value} :
      Growing env r → (∀ a, Making (f a)) → Making fun eval => r eval >>= fun a => f a eval

/-- The forms of expressions that make an object. -/
def Expr.makesObject : Expr → Bool
  | .literal _ => true
  | .procedure _ _ _ => true
  | .pair _ _ => true
  | .list elements => !elements.isEmpty
  | .vector _ => true
  | .generator _ _ => true
  | .substring _ _ _ => true
  | .size _ => true
  | .isPair _ => true
  | .read => true
  | .readInteger => true
  | .identical _ _ => true
  | .binary _ _ _ => true
  | .unary _ _ => true
  | _ => false

namespace Machine

/-- What is made with a new number. -/
theorem makes_newObjects {count : Nat} (value : ObjectId → Value)
    (numbered : ∀ (id : ObjectId) (c : Counts), (value id).Exists c → id < c.objects) :
    Makes (do let id ← newObjects count; pure (value id)) := by
  intro s v s' run known
  cases run
  exact Nat.lt_irrefl _ (numbered _ _ known)

theorem makes_newScalar (contents : Scalar) : Makes (newScalar contents) :=
  makes_newObjects _ fun _ _ known => known

theorem makes_newCons (head tail : Value) : Makes (newCons head tail) := by
  refine makes_newObjects _ fun id c known => ?_
  unfold Value.cons at known
  split at known <;> exact known

theorem makes_newList (v : Value) (vs : List Value) : Makes (newList (v :: vs)) :=
  makes_newObjects _ fun _ _ known => known

theorem makes_newVector (slots : Array Value) : Makes (newVector slots) := by
  intro s v s' run known
  cases run
  exact Nat.lt_irrefl _ known

theorem makes_throw (e : Failure) : Makes (throw e) := fun _ _ _ run => nomatch run

end Machine

namespace Making

open Machine (makes_newObjects makes_newScalar makes_newCons makes_newList makes_newVector
  makes_throw elementary_grows)
open Composed (machine call)

variable {env : ScopeId}

theorem newScalar (contents : Scalar) : Making fun _ => Machine.newScalar contents :=
  now (makes_newScalar contents)

/-- One step of an expression of one of the forms. -/
theorem step {e : Expr} (makes : e.makesObject) (env : ScopeId) :
    Making fun eval => Eval.step eval e env := by
  have called (e : Expr) : Growing env fun eval => eval e env := call e
  have lifted {α : Type} (x : Except Failure α) : Growing env fun _ => Machine.lift x :=
    elementary_grows.lift x
  have integer (operation : String) (e : Expr) :
      Growing env fun eval => Eval.integer eval operation e env :=
    elementary_grows.integer operation e
  cases e with
  | literal contents => exact newScalar contents
  | procedure parameters rest body =>
    exact now (makes_newObjects (fun id => .procedure ⟨id, some ⟨parameters, rest, body⟩, some env⟩)
      fun _ _ known => known)
  | read => exact after env (machine elementary_grows.readLine) fun _ => newScalar _
  | readInteger => exact after env (machine elementary_grows.readInteger) fun _ => newScalar _
  | substring text start stop =>
    refine after env (called text) fun v => after env (lifted _) fun s => ?_
    refine after env (integer _ start) fun a => after env (integer _ stop) fun b => ?_
    exact after env (lifted _) fun _ => newScalar _
  | pair left right =>
    exact after env (called left) fun l => after env (called right) fun r => now (makes_newCons l r)
  | list elements =>
    cases elements with
    | nil => cases makes
    | cons e rest =>
      have first : (fun eval => Eval.step eval (.list (e :: rest)) env) = fun eval => (do
          let v ← eval e env
          let vs ← Eval.evalAll eval env rest
          Machine.newList (v :: vs)) := by
        funext eval
        simp only [Eval.step, Eval.evalAll, bind_assoc, pure_bind]
      rw [first]
      refine after env (called e) fun v => after env (elementary_grows.evalAll rest) fun vs => ?_
      exact now (makes_newList v vs)
  | vector elements =>
    exact after env (elementary_grows.evalElements elements #[]) fun slots =>
      now (makes_newVector slots)
  | generator count procedure =>
    refine after env (integer _ count) fun n => ?_
    split
    · exact now (makes_throw _)
    · refine after env (called procedure) fun v => after env (lifted _) fun p => ?_
      exact now (makes_newObjects _ fun _ _ known => known)
  | size operand =>
    refine after env (called operand) fun v => after env (lifted _) fun id => ?_
    exact after env (machine (elementary_grows.vectorSize id)) fun size => newScalar _
  | isPair operand =>
    exact after env (called operand) fun v => after env (lifted _) fun _ => newScalar _
  | identical left right =>
    exact after env (called left) fun l => after env (called right) fun r => newScalar _
  | binary operator left right =>
    refine after env (called left) fun l => after env (called right) fun r => ?_
    exact after env (machine (elementary_grows.binary operator l r)) fun _ => newScalar _
  | unary operator operand =>
    exact after env (called operand) fun v => after env (lifted _) fun _ => newScalar _
  | _ => cases makes

/-- The value has not been made before the routine. A run that avoids it gives it all the same, or stops
with it where it has not been made, either. -/
theorem gives_new {r : Routine Value} (making : Making r) {bound : Nat} {s s' : State} {v : Value}
    (run : r (evalWithin bound) s = .ok v s') :
    ¬ v.Exists s.counts ∧ (r (evalAvoiding v bound) s = .ok v s' ∨
      ∃ t, r (evalAvoiding v bound) s = .error .tooDeep t ∧ v.identical t.register ∧
        ¬ v.Exists t.counts) := by
  induction making generalizing s with
  | now makes => exact ⟨makes s v s' run, .inl run⟩
  | after _ growing _ ih =>
    obtain ⟨a, s₁, first, second⟩ := Machine.bind_eq_ok.mp run
    obtain ⟨new, later⟩ := ih a second
    have grown := growing.grows (evalWithin_grows bound) s
    rw [Machine.after_of_ok first] at grown
    refine ⟨fun known => new (known.mono grown), ?_⟩
    obtain same | ⟨t, stopped, found, before⟩ :=
      growing.avoids (evalWithin_grows bound) (evalAvoiding_avoids v bound) s
    · have avoided := same.trans first
      refine later.imp (fun ended => ?_) ?_
      · exact Machine.bind_eq_ok.mpr ⟨a, s₁, avoided, ended⟩
      · rintro ⟨t, stopped, found, unmade⟩
        exact ⟨t, Machine.bind_eq_error.mpr (.inr ⟨a, s₁, avoided, stopped⟩), found, unmade⟩
    · rw [Machine.after_of_ok first] at before
      exact .inr ⟨t, Machine.bind_eq_error.mpr (.inl stopped), found,
        fun known => new (known.mono before)⟩

end Making

/-! ## New objects -/

section New

variable {s s' : State} {bound : Nat} {e left right : Expr} {env : ScopeId} {v : Value}

/-- The value of a form that makes an object had not been made before, and evaluation of the parts that
avoids it comes to the same end. -/
theorem evalWithin_makes_new (numbered : s.Numbered) (makes : e.makesObject)
    (run : evalWithin (bound + 1) e env s = .ok v s') :
    ¬ v.Exists s.counts ∧ Eval.step (evalAvoiding v bound) e env s = .ok v s' := by
  obtain ⟨new, ended | ⟨t, stopped, found, unmade⟩⟩ := (Making.step makes env).gives_new run
  · exact ⟨new, ended⟩
  · -- Where the run has stopped, the value is in the register, so it has been made.
    have holds : numbering.Holds s.counts (Eval.step (evalAvoiding v bound) e env) numbering.Admits :=
      NumberingRuns.lawful.step (evalAvoiding_evaluates v bound) False.elim (NumberingRuns.allows e)
        trivial
    obtain ⟨-, kept⟩ := NumberingRuns.numbered_after holds rfl numbered
    rw [Machine.after_of_error stopped] at kept
    have made := kept _ Stored.register
    exact absurd ((Value.exists_iff_of_identical found).mpr made) unmade

/-- A value that is compared with a new object is another one. -/
theorem identical_of_makesObject (numbered : s.Numbered) (makes : right.makesObject)
    (run : evalWithin (bound + 1) (.identical left right) env s = .ok v s') :
    ∃ id, v = .scalar id (.boolean false) := by
  obtain ⟨l, s₁, first, rest⟩ := Machine.bind_eq_ok.mp run
  obtain ⟨r, s₂, second, compared⟩ := Machine.bind_eq_ok.mp rest
  have made := (evalWithin_made numbered first).exists
  have numbered₁ := evalWithin_numbered numbered bound left env
  rw [Machine.after_of_ok first] at numbered₁
  cases bound with
  | zero => exact nomatch second
  | succ bound =>
    obtain ⟨new, -⟩ := evalWithin_makes_new numbered₁ makes second
    have other : l.identical r = false :=
      Bool.eq_false_iff.mpr fun same => new ((Value.exists_iff_of_identical same).mp made)
    rw [other] at compared
    cases compared
    exact ⟨s₂.nextObject, rfl⟩

theorem identical_name {name : String} {u : Value} (bound : Nat) (found : s.lookup? env name = some u) :
    ∃ s', evalWithin (bound + 2) (.identical (.identifier name) (.identifier name)) env s =
      .ok (.scalar s.nextObject (.boolean true)) s' := by
  have read : evalWithin (bound + 1) (.identifier name) env s = .ok u s :=
    Machine.lookup_eq_ok.mpr ⟨found, rfl⟩
  refine ⟨{ s with nextObject := s.nextObject + 1 },
    Machine.bind_eq_ok.mpr ⟨u, s, read, Machine.bind_eq_ok.mpr ⟨u, s, read, ?_⟩⟩⟩
  show Machine.newScalar (.boolean (u.identical u)) s = _
  rw [u.identical_self]
  rfl

end New

/-- In a numbered state (runs reach no other, `Reached.numbered`, and evaluation keeps it numbered,
`evalWithin_numbered`) and in any scope, a form that makes an object gives a new one: it is none that is
stored or has been made before, and evaluation comes to the same end if it stops as soon as anything
inside gives that object. So a new object compared with the value of anything evaluated before it is
another object. What a name stands for is the same object as itself. -/
theorem made_objects_are_new {s : State} (numbered : s.Numbered) (bound : Nat) (env : ScopeId) :
    (∀ e v s', e.makesObject → evalWithin (bound + 1) e env s = .ok v s' →
      (∀ u, Stored s u ∨ u.Exists s.counts → v.identical u = false) ∧
      Eval.step (evalAvoiding v bound) e env s = .ok v s') ∧
    (∀ left right v s', right.makesObject →
      evalWithin (bound + 1) (.identical left right) env s = .ok v s' →
      ∃ id, v = .scalar id (.boolean false)) ∧
    (∀ name u, s.lookup? env name = some u →
      ∃ s', evalWithin (bound + 2) (.identical (.identifier name) (.identifier name)) env s =
        .ok (.scalar s.nextObject (.boolean true)) s') := by
  refine ⟨fun e v s' makes run => ?_, fun left right v s' => identical_of_makesObject numbered,
    fun name u => identical_name bound⟩
  obtain ⟨new, avoided⟩ := evalWithin_makes_new numbered makes run
  refine ⟨fun u existing => Bool.eq_false_iff.mpr fun same => new ?_, avoided⟩
  exact (Value.exists_iff_of_identical same).mpr (existing.elim (numbered u) id)

/-- The state after `x` has been defined as five. -/
def fiveState : State :=
  (evalWithin 2 (.define "x" (.literal (.integer 5))) State.global).after (State.initial none)

/-- A pair that holds `x` is no object that there was, nor is its part; another five is not `x`. -/
theorem made_objects_are_new_beside_five :
    fiveState.Numbered ∧
    (∃ s', evalWithin 2 (.pair (.identifier "x") (.literal (.integer 5))) State.global fiveState =
        .ok (.pair 3 (.scalar 1 (.integer 5)) (.scalar 2 (.integer 5))) s' ∧
      ∀ u, Stored fiveState u ∨ u.Exists fiveState.counts →
        (Value.pair 3 (.scalar 1 (.integer 5)) (.scalar 2 (.integer 5))).identical u = false) ∧
    (∃ s', evalWithin 2 (.identical (.identifier "x") (.literal (.integer 5))) State.global fiveState =
        .ok (.scalar 3 (.boolean false)) s' ∧
      ∃ id, Value.scalar 3 (.boolean false) = .scalar id (.boolean false)) ∧
    (∃ s', evalWithin 2 (.identical (.identifier "x") (.identifier "x")) State.global fiveState =
      .ok (.scalar 2 (.boolean true)) s') := by
  have numbered : fiveState.Numbered := evalWithin_numbered (State.numbered_initial none) _ _ _
  have found : fiveState.lookup? State.global "x" = some (.scalar 1 (.integer 5)) := by
    have global : fiveState.scopes[State.global]? =
        some { bindings := [("x", .scalar 1 (.integer 5))] } := rfl
    rw [State.lookup?, State.lookupIn?_of_found global]
    rfl
  have read : evalWithin 1 (.identifier "x") State.global fiveState =
      .ok (.scalar 1 (.integer 5)) fiveState := Machine.lookup_eq_ok.mpr ⟨found, rfl⟩
  have paired : evalWithin 2 (.pair (.identifier "x") (.literal (.integer 5))) State.global fiveState =
      .ok (.pair 3 (.scalar 1 (.integer 5)) (.scalar 2 (.integer 5)))
        { fiveState with nextObject := 4 } := Machine.bind_eq_ok.mpr ⟨_, _, read, rfl⟩
  have compared : evalWithin 2 (.identical (.identifier "x") (.literal (.integer 5))) State.global
      fiveState = .ok (.scalar 3 (.boolean false)) { fiveState with nextObject := 4 } :=
    Machine.bind_eq_ok.mpr ⟨_, _, read, rfl⟩
  obtain ⟨new, other, _⟩ := made_objects_are_new numbered 1 State.global
  obtain ⟨_, _, same⟩ := made_objects_are_new numbered 0 State.global
  exact ⟨numbered, ⟨_, paired, (new _ _ _ rfl paired).1⟩, ⟨_, compared, other _ _ _ _ rfl compared⟩,
    same "x" _ found⟩

end Smpl

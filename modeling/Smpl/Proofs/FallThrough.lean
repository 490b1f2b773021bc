import Smpl.Proofs.CallScopes
import Smpl.Proofs.NestedConditionals
import Smpl.Proofs.UnseenRegister

/-!
# Falling through

A conditional without a second branch and a selection fall through if their conditions are all false
(`Eval.FallsThrough`). Their value is then what the register holds.

When a statement of a block begins, the register holds the value of the statement before it, or the
integer zero of a block that begins (`Eval.Ran.register_eq`). So a statement that falls through repeats
the value before it, if its conditions leave the register alone. There is one register for all blocks,
though. A condition that evaluates a block of its own, be it in the body of a procedure that it calls,
writes it, and so do conditionals, selections and lazy expressions in a condition.

* `fall_through_gives_register`: the value is what the conditions leave in the register. It is the value
  of the statement before if no condition can write the register (`Expr.Quiet`).
* `blockCondition_falls_through_to_false`: a condition that is a block puts its own value in the place
  of the value before.
-/

namespace Smpl

/-! ## Quiet expressions -/

/-- The forms of expressions that can write the register, or let a procedure do so. -/
def Expr.canWriteRegister : Expr → Bool
  | .block _ => true
  | .call _ _ => true
  | .conditional _ _ _ => true
  | .select _ => true
  | .lazy _ => true
  | .vector _ => true
  | _ => false

/-- An expression that cannot write the register. What a procedure does when it is called does not
matter where it is made. -/
inductive Expr.Quiet : Expr → Prop
  | procedure {parameters : List String} {rest : Option String} {body : Expr} :
      Expr.Quiet (.procedure parameters rest body)
  | intro {e : Expr} :
      e.canWriteRegister = false → (∀ p ∈ e.parts, Expr.Quiet p) → Expr.Quiet e

namespace Machine

variable {α β : Type}

theorem blind_pure (a : α) : Blind (pure a) := fun _ _ => rfl

theorem blind_throw (e : Failure) : Blind (throw e : Machine α) := fun _ _ => rfl

theorem blind_bind {m : Machine α} {f : α → Machine β} (first : m.Blind)
    (second : ∀ a, (f a).Blind) : (m >>= f).Blind := by
  intro s r
  simp only [bind, EStateM.bind, first s r]
  cases m s with
  | ok a s' => exact second a s' r
  | error e s' => rfl

theorem blind_lift (x : Except Failure α) : (lift x).Blind := by
  cases x with
  | ok a => exact blind_pure a
  | error e => exact blind_throw e

theorem blind_newScalar (contents : Scalar) : (newScalar contents).Blind := fun _ _ => rfl

theorem blind_newScope (names : List String) (values : List Value) (parent : Option ScopeId) :
    (newScope names values parent).Blind := by
  intro s r
  by_cases same : names.length = values.length
  · rw [newScope_run _ parent same, newScope_run _ parent same]
  · simp only [newScope, if_neg same]
    rfl

/-- A machine that does nothing with the register leaves it as it is. -/
theorem Blind.register_eq {m : Machine α} (blind : m.Blind) {s t : State} {a : α}
    (run : m s = .ok a t) : t.register = s.register := by
  have again : m s = _ := blind s s.register
  rw [run] at again
  injection again with _ same
  rw [same]

end Machine

namespace Eval

open Machine

variable {eval : Evaluator} {env : ScopeId}

theorem blind_evalAll {es : List Expr} (parts : ∀ e ∈ es, (eval e env).Blind) :
    (evalAll eval env es).Blind := by
  induction es with
  | nil => exact blind_pure []
  | cons e rest ih =>
    obtain ⟨here, later⟩ := List.forall_mem_cons.mp parts
    exact blind_bind here fun v => blind_bind (ih later) fun vs => blind_pure (v :: vs)

theorem blind_integer {e : Expr} (part : (eval e env).Blind) (operation : String) :
    (integer eval operation e env).Blind :=
  blind_bind part fun v => blind_lift (v.int operation)

theorem blind_findSlot {position : Expr} (part : (eval position env).Blind) (name : String) :
    (findSlot eval name position env).Blind := by
  refine blind_bind part fun index => blind_bind (blind_lift _) fun p => ?_
  refine blind_bind (lookup_blind env name) fun target => blind_bind (blind_lift _) fun id => ?_
  refine blind_bind (fun _ _ => rfl) fun size => ?_
  split
  · exact blind_throw _
  · exact blind_pure _

/-- One step of an expression that cannot write the register, if its parts do not either. -/
theorem blind_step {e : Expr} (silent : e.canWriteRegister = false)
    (parts : ∀ p ∈ e.parts, ∀ env, (eval p env).Blind) : (step eval e env).Blind := by
  cases e with
  | missing => exact blind_throw _
  | block _ | call _ _ | conditional _ _ _ | select _ | «lazy» _ | vector _ => cases silent
  | letIn bindings body =>
    have values : ∀ e ∈ bindings.map (·.2), (eval e env).Blind :=
      fun e member => parts e (List.mem_cons_of_mem _ member) env
    refine blind_bind (blind_evalAll values) fun vs => ?_
    exact blind_bind (blind_newScope _ _ _) fun inner => parts body List.mem_cons_self inner
  | identifier name => exact lookup_blind env name
  | literal contents => exact blind_newScalar contents
  | emptyList => exact blind_pure _
  | procedure _ _ _ => exact fun _ _ => rfl
  | define name body =>
    refine blind_bind (parts body List.mem_cons_self env) fun v => ?_
    exact blind_bind (fun _ _ => rfl) fun _ => blind_pure v
  | read => exact blind_bind readLine_blind fun _ => blind_newScalar _
  | readInteger => exact blind_bind readInteger_blind fun _ => blind_newScalar _
  | substring text start stop =>
    refine blind_bind (parts text (by simp [Expr.parts]) env) fun v => ?_
    refine blind_bind (blind_lift _) fun s => ?_
    refine blind_bind (blind_integer (parts start (by simp [Expr.parts]) env) _) fun a => ?_
    refine blind_bind (blind_integer (parts stop (by simp [Expr.parts]) env) _) fun b => ?_
    exact blind_bind (blind_lift _) fun _ => blind_newScalar _
  | pair left right =>
    refine blind_bind (parts left (by simp [Expr.parts]) env) fun l => ?_
    exact blind_bind (parts right (by simp [Expr.parts]) env) fun r => fun _ _ => rfl
  | list elements =>
    exact blind_bind (blind_evalAll fun e member => parts e member env) fun vs => fun _ _ => rfl
  | generator count procedure =>
    refine blind_bind (blind_integer (parts count (by simp [Expr.parts]) env) _) fun n => ?_
    split
    · exact blind_throw _
    refine blind_bind (parts procedure (by simp [Expr.parts]) env) fun v => ?_
    exact blind_bind (blind_lift _) fun p => fun _ _ => rfl
  | index name position =>
    exact blind_bind (blind_findSlot (parts position (by simp [Expr.parts]) env) name)
      fun found => slot_blind found.1 found.2
  | size operand =>
    refine blind_bind (parts operand (by simp [Expr.parts]) env) fun v => ?_
    exact blind_bind (blind_lift _) fun id => fun _ _ => rfl
  | car operand => exact blind_bind (parts operand (by simp [Expr.parts]) env) fun _ => blind_lift _
  | cdr operand => exact blind_bind (parts operand (by simp [Expr.parts]) env) fun _ => blind_lift _
  | isPair operand =>
    refine blind_bind (parts operand (by simp [Expr.parts]) env) fun v => ?_
    exact blind_bind (blind_lift _) fun _ => blind_newScalar _
  | identical left right =>
    refine blind_bind (parts left (by simp [Expr.parts]) env) fun l => ?_
    exact blind_bind (parts right (by simp [Expr.parts]) env) fun r => blind_newScalar _
  | binary operator left right =>
    refine blind_bind (parts left (by simp [Expr.parts]) env) fun l => ?_
    refine blind_bind (parts right (by simp [Expr.parts]) env) fun r => ?_
    exact blind_bind (binary_blind operator l r) fun _ => blind_newScalar _
  | unary operator operand =>
    refine blind_bind (parts operand (by simp [Expr.parts]) env) fun v => ?_
    exact blind_bind (blind_lift _) fun _ => blind_newScalar _

end Eval

/-- A quiet expression does nothing with the register, neither in its value nor in its failures. -/
theorem Expr.Quiet.blind {e : Expr} (quiet : e.Quiet) (bound : Nat) (env : ScopeId) :
    (evalWithin bound e env).Blind := by
  induction bound generalizing e env with
  | zero => exact Machine.blind_throw _
  | succ bound ih =>
    cases quiet with
    | procedure => exact fun _ _ => rfl
    | intro silent parts => exact Eval.blind_step silent fun p member env => ih (parts p member) env

theorem Eval.InTurn.register_eq {bound : Nat} {env : ScopeId} {es : List Expr} {s t : State}
    {vs : List Value} (turn : Eval.InTurn (evalWithin bound) env es s vs t)
    (quiet : ∀ e ∈ es, e.Quiet) : t.register = s.register := by
  induction turn with
  | nil => rfl
  | cons first _ ih =>
    obtain ⟨here, later⟩ := List.forall_mem_cons.mp quiet
    exact (ih later).trans ((here.blind bound env).register_eq first)

/-! ## Falling through -/

/-- The conditions of an expression that has no other branch than those that they select. -/
def Expr.conditions? : Expr → Option (List Expr)
  | .conditional test _ none => some [test]
  | .select clauses => some (clauses.map (·.1))
  | _ => none

namespace Eval

/-- An expression falls through: its conditions are evaluated in turn, and all are false. -/
inductive FallsThrough (eval : Evaluator) (env : ScopeId) (e : Expr) (s t : State) : Prop
  | intro {conditions : List Expr} {vs : List Value} :
      e.conditions? = some conditions → InTurn eval env conditions s vs t →
      (∀ v ∈ vs, ∃ id, v = .scalar id (.boolean false)) → FallsThrough eval env e s t

variable {eval : Evaluator} {env : ScopeId} {s t : State}

theorem select_falls_through {clauses : List (Expr × Expr)} {vs : List Value}
    (turn : InTurn eval env (clauses.map (·.1)) s vs t)
    (fails : ∀ v ∈ vs, ∃ id, v = .scalar id (.boolean false)) :
    select eval env clauses s = .ok t.register t := by
  induction clauses generalizing s vs with
  | nil =>
    cases turn
    rfl
  | cons clause rest ih =>
    cases turn with
    | cons first later =>
      obtain ⟨⟨id, rfl⟩, others⟩ := List.forall_mem_cons.mp fails
      rw [select_cons, first]
      exact ih later others

/-- What falls through has the register as its value, as its conditions have left it. -/
theorem FallsThrough.step {e : Expr} (falls : FallsThrough eval env e s t) :
    step eval e env s = .ok t.register t := by
  obtain ⟨conditional, turn, fails⟩ := falls
  cases e with
  | conditional test yes no =>
    cases no with
    | none =>
      cases conditional
      cases turn with
      | cons first later =>
        cases later
        obtain ⟨⟨id, rfl⟩, _⟩ := List.forall_mem_cons.mp fails
        simp only [Eval.step, condition, bind, EStateM.bind, first]
        rfl
    | some other => cases conditional
  | select clauses =>
    cases conditional
    exact select_falls_through turn fails
  | _ => cases conditional

/-! ## Blocks -/

/-- The statements that a block begins with have been evaluated. `last` is the value of the last one,
and a new zero if there is none yet; `t` is the state in which the next statement begins. -/
inductive Ran (eval : Evaluator) (env : ScopeId) (s : State) : List Stmt → Value → State → Prop
  | start : Ran eval env s [] (.scalar s.nextObject (.integer 0))
      { s with nextObject := s.nextObject + 1, register := .scalar s.nextObject (.integer 0) }
  | next {before : List Stmt} {st : Stmt} {last v : Value} {t u : State} :
      Ran eval env s before last t → statement eval env st t = .ok v u →
      Ran eval env s (before ++ [st]) v { u with register := v }

variable {before : List Stmt} {last : Value}

/-- A statement begins with the value of the one before it in the register. -/
theorem Ran.register_eq (ran : Ran eval env s before last t) : t.register = last := by
  cases ran <;> rfl

theorem Ran.zero_of_first (ran : Ran eval env s before last t) (first : before = []) :
    last = .scalar s.nextObject (.integer 0) := by
  cases ran with
  | start => rfl
  | next _ _ => simp at first

/-- A block goes on with the statements that are left. -/
theorem Ran.block_eq (ran : Ran eval env s before last t) (rest : List Stmt) :
    block eval env (before ++ rest) s = statements eval env rest t := by
  induction ran generalizing rest with
  | start => rfl
  | @next before st last v t u _ run ih =>
    rw [List.append_assoc, ih]
    simp only [List.singleton_append, statements, bind, EStateM.bind, run]
    rfl

end Eval

/-- In a block, a conditional or selection whose conditions are all false has the register as its value,
as its conditions leave it. When it begins, the register holds the value of the statement before it, and
an integer zero if it is the first. So its value is the value before exactly if the conditions leave the
register as they found it; quiet conditions do. The block goes on with this value. -/
theorem fall_through_gives_register (bound : Nat) (env : ScopeId) (before after : List Stmt)
    (e : Expr) (s t u : State) (last : Value)
    (ran : Eval.Ran (evalWithin (bound + 1)) env s before last t)
    (falls : Eval.FallsThrough (evalWithin bound) env e t u) :
    Eval.statement (evalWithin (bound + 1)) env (.eval e) t = .ok u.register u ∧
    (u.register = last ↔ u.register = t.register) ∧
    (before = [] → last = .scalar s.nextObject (.integer 0)) ∧
    ((∀ conditions, e.conditions? = some conditions → ∀ c ∈ conditions, c.Quiet) →
      u.register = last) ∧
    Eval.block (evalWithin (bound + 1)) env (before ++ .eval e :: after) s =
      Eval.statements (evalWithin (bound + 1)) env after u := by
  have begins : t.register = last := ran.register_eq
  have value : Eval.statement (evalWithin (bound + 1)) env (.eval e) t = .ok u.register u :=
    falls.step
  refine ⟨value, by rw [begins], ran.zero_of_first, fun quiet => ?_, ?_⟩
  · obtain ⟨conditional, turn, _⟩ := falls
    exact (turn.register_eq (quiet _ conditional)).trans begins
  · rw [ran.block_eq]
    simp only [Eval.statements, bind, EStateM.bind, value]
    rfl

/-- The state after an integer as the first statement of a block. -/
def afterInteger (n : Int64) : State :=
  { State.initial none with nextObject := 3, register := .scalar 2 (.integer n) }

theorem ran_integer (bound : Nat) (n : Int64) :
    Eval.Ran (evalWithin (bound + 1)) State.global (State.initial none)
      [.eval (.literal (.integer n))] (.scalar 2 (.integer n)) (afterInteger n) := by
  have run : Eval.statement (evalWithin (bound + 1)) State.global (.eval (.literal (.integer n)))
      { State.initial none with nextObject := 2, register := .scalar 1 (.integer 0) } =
      .ok (.scalar 2 (.integer n))
        { State.initial none with nextObject := 3, register := .scalar 1 (.integer 0) } := rfl
  exact .next .start run

/-- A conditional whose condition is `not true`. -/
def negatedCondition : Expr :=
  .conditional (.unary notSymbol (.literal (.boolean true))) (.literal (.integer 9)) none

/-- After 7, a conditional with a quiet condition that is false has the value 7. -/
theorem negatedCondition_repeats_seven :
    Eval.Ran (evalWithin 3) State.global (State.initial none) [.eval (.literal (.integer 7))]
      (.scalar 2 (.integer 7)) (afterInteger 7) ∧
    Eval.FallsThrough (evalWithin 2) State.global negatedCondition (afterInteger 7)
      { afterInteger 7 with nextObject := 5 } ∧
    Eval.statement (evalWithin 3) State.global (.eval negatedCondition) (afterInteger 7) =
      .ok (.scalar 2 (.integer 7)) { afterInteger 7 with nextObject := 5 } := by
  have falls : Eval.FallsThrough (evalWithin 2) State.global negatedCondition (afterInteger 7)
      { afterInteger 7 with nextObject := 5 } :=
    .intro rfl (.cons rfl .nil) (List.forall_mem_singleton.mpr ⟨4, rfl⟩)
  have quiet : (Expr.unary notSymbol (.literal (.boolean true))).Quiet :=
    .intro rfl (List.forall_mem_singleton.mpr (.intro rfl nofun))
  obtain ⟨value, _, _, repeats, _⟩ :=
    fall_through_gives_register 2 _ _ [] negatedCondition _ _ _ _ (ran_integer 2 7) falls
  refine ⟨ran_integer 2 7, falls, ?_⟩
  rw [value, repeats]
  rintro _ ⟨⟩
  exact List.forall_mem_singleton.mpr quiet

/-- A conditional whose condition is a block with `false` in it. -/
def blockCondition : Expr :=
  .conditional (.block [.eval (.literal (.boolean false))]) (.literal (.integer 1)) none

/-- After 5, a conditional whose condition is a block that gives `false` does not have the value 5. Its
value is the `false` of the condition. -/
theorem blockCondition_falls_through_to_false :
    Eval.Ran eval State.global (State.initial none) [.eval (.literal (.integer 5))]
      (.scalar 2 (.integer 5)) (afterInteger 5) ∧
    Eval.FallsThrough (evalWithin (nestingLimit - 1)) State.global blockCondition (afterInteger 5)
      { afterInteger 5 with nextObject := 5, register := .scalar 4 (.boolean false) } ∧
    (Eval.statement eval State.global (.eval blockCondition)).outcome (afterInteger 5) =
      .ok (.scalar 4 (.boolean false)) ∧
    Value.scalar 4 (.boolean false) ≠ .scalar 2 (.integer 5) ∧
    (Program.evaluate ⟨some [.eval (.literal (.integer 5)), .eval blockCondition]⟩
      State.global).outcome (State.initial none) = .ok (.scalar 4 (.boolean false)) := by
  refine ⟨ran_integer (nestingLimit - 1) 5, .intro rfl (.cons rfl .nil) ?_, rfl, nofun, rfl⟩
  exact List.forall_mem_singleton.mpr ⟨4, rfl⟩

end Smpl

import Smpl.Proofs.LazyTraces

/-!
# What evaluation is put together from

Evaluation calls itself for the parts of an expression; all else that it does, elementary machines do.
To see its calls, the evaluator is left open, and what is to be done is a routine. A routine is
*composed* (`Composed`) if it is put together from calls of the evaluator and from machines of some
kind. It calls the evaluator for the scope that it is in, or for one that it has made.

If the elementary machines are of the kind (`Elementary`), then each function of the evaluator is
composed, and in the end so is one step of evaluation (`Elementary.step`). Only a lazy expression needs
one machine more, which sets a memo (`Elementary.lazy`).

So a fact about routines that calls have, that machines of the kind have and that sequences keep is a
fact about evaluation.
-/

namespace Smpl

/-- A kind of machines. -/
abbrev MachineKind := ∀ α : Type, Machine α → Prop

/-- A routine that is put together from machines of a kind and from calls of the evaluator. -/
inductive Composed (kind : MachineKind) : ScopeId → {α : Type} → Routine α → Prop
  | machine {env : ScopeId} {α : Type} {m : Machine α} : kind α m → Composed kind env fun _ => m
  | call {env : ScopeId} (e : Expr) : Composed kind env fun eval => eval e env
  | bind {env : ScopeId} {α β : Type} {r : Routine α} {f : α → Routine β} :
      Composed kind env r → (∀ a, Composed kind env (f a)) →
      Composed kind env fun eval => r eval >>= fun a => f a eval
  /-- What follows is done in a new scope. -/
  | inside {env : ScopeId} {names : List String} {values : List Value} {parent : Option ScopeId}
      {β : Type} {f : ScopeId → Routine β} :
      kind ScopeId (Machine.newScope names values parent) → (∀ k, Composed kind k (f k)) →
      Composed kind env fun eval => Machine.newScope names values parent >>= fun k => f k eval

/-- The kind holds of the elementary machines, but perhaps not of the one that sets a memo. -/
structure Elementary (kind : MachineKind) : Prop where
  success {α : Type} (a : α) : kind α (pure a)
  fail {α : Type} (e : Failure) : kind α (throw e)
  newObjects (count : Nat) : kind ObjectId (Machine.newObjects count)
  newVector (slots : Array Value) : kind Value (Machine.newVector slots)
  newScope (names : List String) (values : List Value) (parent : Option ScopeId) :
    kind ScopeId (Machine.newScope names values parent)
  lookup (env : ScopeId) (name : String) : kind Value (Machine.lookup env name)
  putAll (env : ScopeId) (names : List String) (values : List Value) :
    kind Unit (Machine.putAll env names values)
  memo? (env : ScopeId) : kind (Option Value) (Machine.memo? env)
  vectorSize (id : VectorId) : kind Nat (Machine.vectorSize id)
  slot (id : VectorId) (position : Nat) : kind Value (Machine.slot id position)
  setSlot (id : VectorId) (position : Nat) (v : Value) : kind Unit (Machine.setSlot id position v)
  register : kind Value Machine.register
  setRegister (v : Value) : kind Unit (Machine.setRegister v)
  write (text : String) : kind Unit (Machine.write text)
  note (level : LogLevel) (text : String) : kind Unit (Machine.note level text)
  format (v : Value) : kind String (Machine.format v)
  binary (symbol : String) (left right : Value) : kind Scalar (Machine.binary symbol left right)
  readLine : kind String Machine.readLine
  readInteger : kind Int64 Machine.readInteger

namespace Elementary

open Composed (machine call bind inside)

variable {kind : MachineKind} (elementary : Elementary kind) {env : ScopeId}

include elementary

/-! ## Machines -/

theorem lift {α : Type} (x : Except Failure α) :
    Composed kind env fun _ => Machine.lift x := by
  cases x with
  | ok a => exact machine (elementary.success a)
  | error e => exact machine (elementary.fail e)

theorem result {α : Type} (a : α) : Composed kind env fun _ => (pure a : Machine α) :=
  machine (elementary.success a)

theorem failure {α : Type} (e : Failure) : Composed kind env fun _ => (throw e : Machine α) :=
  machine (elementary.fail e)

theorem newScalar (contents : Scalar) : Composed kind env fun _ => Machine.newScalar contents :=
  bind (machine (elementary.newObjects 1)) fun id => elementary.result (Value.scalar id contents)

theorem newList (values : List Value) : Composed kind env fun _ => Machine.newList values :=
  bind (machine (elementary.newObjects _)) fun id => elementary.result (Value.listFrom id values)

theorem newCons (head tail : Value) : Composed kind env fun _ => Machine.newCons head tail :=
  bind (machine (elementary.newObjects 1)) fun id => elementary.result (Value.cons id head tail)

/-! ## Parts -/

theorem evalAll (es : List Expr) : Composed kind env fun eval => Eval.evalAll eval env es := by
  induction es with
  | nil => exact elementary.result []
  | cons e rest ih =>
    exact bind (call e) fun v => bind ih fun vs => elementary.result (v :: vs)

theorem condition (operation : String) (e : Expr) :
    Composed kind env fun eval => Eval.condition eval operation e env :=
  bind (call e) fun v => elementary.lift (v.truth operation)

theorem integer (operation : String) (e : Expr) :
    Composed kind env fun eval => Eval.integer eval operation e env :=
  bind (call e) fun v => elementary.lift (v.int operation)

theorem findSlot (name : String) (index : Expr) :
    Composed kind env fun eval => Eval.findSlot eval name index env := by
  refine bind (call index) fun v => bind (elementary.lift _) fun position => ?_
  refine bind (machine (elementary.lookup env name)) fun target => ?_
  refine bind (elementary.lift _) fun id => bind (machine (elementary.vectorSize id)) fun size => ?_
  split
  · exact elementary.failure _
  · exact elementary.result _

/-! ## Calls and generators -/

theorem callProcedure (callee : Option Procedure) (arguments : List Value) :
    Composed kind env fun eval => Eval.callProcedure eval callee arguments := by
  unfold Eval.callProcedure
  cases callee with
  | none => exact elementary.failure _
  | some p =>
    simp only []
    cases p.declaration with
    | none => exact elementary.failure _
    | some d =>
      simp only []
      split
      · exact elementary.failure _
      have body (text : String) (k : ScopeId) :
          Composed kind k fun eval => (do Machine.note .verbose text; eval d.body k) :=
        bind (machine (elementary.note _ _)) fun _ => call d.body
      unfold Eval.callScope
      split
      · exact inside (elementary.newScope _ _ _) (body _)
      · simp only [bind_assoc]
        refine bind (elementary.newList _) fun surplus => ?_
        exact inside (elementary.newScope _ _ _) (body _)

theorem generate (d : Declaration) (scope : Option ScopeId) (remaining index : Nat)
    (made : Array Value) :
    Composed kind env fun eval => Eval.generate eval d scope remaining index made := by
  induction remaining generalizing env index made with
  | zero => exact elementary.result made
  | succ remaining ih =>
    have arguments : Composed kind env fun _ => Eval.generatorArguments d index := by
      unfold Eval.generatorArguments
      split
      · exact bind (elementary.newScalar _) fun i => elementary.result [i]
      · exact elementary.result []
    refine bind arguments fun values => inside (elementary.newScope _ _ _) fun k => ?_
    exact bind (call d.body) fun v => ih (index + 1) (made.push v)

theorem expand (count : Int64) (source : Option Procedure) (made : Array Value) :
    Composed kind env fun eval => Eval.expand eval count source made := by
  unfold Eval.expand
  split
  · exact elementary.failure _
  split
  · exact elementary.failure _
  split
  · exact elementary.failure _
  split
  · exact elementary.failure _
  split
  · exact elementary.generate _ _ _ _ _
  · split
    · exact elementary.result _
    · exact elementary.failure _

theorem evalElements (es : List Expr) (made : Array Value) :
    Composed kind env fun eval => Eval.evalElements eval env es made := by
  induction es generalizing made with
  | nil => exact elementary.result made
  | cons e rest ih =>
    refine bind (call e) fun v => ?_
    split
    · exact bind (elementary.expand _ _ _) fun made' => ih made'
    · exact ih _

/-! ## Statements -/

theorem defineNames (names : List String) (values : List Expr) :
    Composed kind env fun eval => Eval.defineNames eval env names values := by
  unfold Eval.defineNames
  split
  · refine bind (call _) fun v => ?_
    split
    · exact machine (elementary.putAll _ _ _)
    · exact elementary.failure _
  · split
    · exact bind (elementary.evalAll values) fun vs => machine (elementary.putAll _ _ _)
    · exact elementary.failure _

theorem assignSlot (name : String) (position : Expr) (values : List Expr) :
    Composed kind env fun eval => Eval.assignSlot eval env name position values := by
  unfold Eval.assignSlot
  split
  · refine bind (elementary.findSlot name position) fun found => ?_
    exact bind (call _) fun v => machine (elementary.setSlot found.1 found.2 v)
  · exact elementary.failure _

theorem statement (st : Stmt) : Composed kind env fun eval => Eval.statement eval env st := by
  cases st with
  | define names values =>
    exact bind (elementary.defineNames names values) fun _ => elementary.newScalar _
  | assign name position values =>
    exact bind (elementary.assignSlot name position values) fun _ => elementary.newScalar _
  | print value terminator =>
    refine bind (call value) fun v => bind (machine (elementary.format v)) fun text => ?_
    refine bind (machine (elementary.write _)) fun _ => ?_
    exact bind (machine (elementary.setRegister v)) fun _ => elementary.result v
  | eval e => exact call e

theorem statements (body : List Stmt) :
    Composed kind env fun eval => Eval.statements eval env body := by
  induction body with
  | nil => exact machine elementary.register
  | cons st rest ih =>
    refine bind (elementary.statement st) fun v => ?_
    exact bind (machine (elementary.setRegister v)) fun _ => ih

theorem block (body : List Stmt) : Composed kind env fun eval => Eval.block eval env body := by
  refine bind (elementary.newScalar _) fun zero => ?_
  exact bind (machine (elementary.setRegister zero)) fun _ => elementary.statements body

/-! ## Expressions -/

theorem branch (e : Expr) : Composed kind env fun eval => Eval.branch eval e env :=
  bind (call e) fun v => bind (machine (elementary.setRegister v)) fun _ => elementary.result v

theorem select (clauses : List (Expr × Expr)) :
    Composed kind env fun eval => Eval.select eval env clauses := by
  induction clauses with
  | nil => exact machine elementary.register
  | cons clause rest ih =>
    refine bind (call clause.1) fun v => bind (elementary.lift _) fun chosen => ?_
    split
    · exact elementary.branch clause.2
    · exact ih

/-- A lazy expression, if the machine that sets a memo is of the kind, too. -/
theorem lazy (setMemo : ∀ v, kind Unit (Machine.setMemo env v)) (body : Expr) :
    Composed kind env fun eval => Eval.lazy eval body env := by
  refine bind (machine (elementary.memo? env)) fun memo => ?_
  cases memo with
  | some v =>
    refine bind (machine (elementary.format v)) fun text => ?_
    refine bind (machine (elementary.note _ _)) fun _ => ?_
    exact bind (machine (elementary.setRegister v)) fun _ => elementary.result v
  | none =>
    exact bind (call body) fun v => bind (machine (setMemo v)) fun _ => elementary.result v

/-- One step of an expression that is not lazy. -/
theorem step {e : Expr} (other : ∀ body, e ≠ .lazy body) :
    Composed kind env fun eval => Eval.step eval e env := by
  cases e with
  | missing => exact elementary.failure _
  | block body => exact elementary.block body
  | letIn bindings body =>
    refine bind (elementary.evalAll _) fun values => ?_
    exact inside (elementary.newScope _ _ _) fun k => call body
  | identifier name => exact machine (elementary.lookup env name)
  | literal contents => exact elementary.newScalar contents
  | emptyList => exact elementary.result _
  | procedure parameters rest body =>
    exact bind (machine (elementary.newObjects 1)) fun id => elementary.result _
  | call callee arguments =>
    refine bind (call callee) fun v => bind (elementary.lift _) fun p => ?_
    refine bind (call arguments) fun w => bind (elementary.lift _) fun args => ?_
    exact elementary.callProcedure (some p) args
  | conditional test yes no =>
    refine bind (elementary.condition _ test) fun holds => ?_
    split
    · exact elementary.branch yes
    · split
      · exact elementary.branch _
      · exact machine elementary.register
  | select clauses => exact elementary.select clauses
  | «lazy» body => exact absurd rfl (other body)
  | define name body =>
    refine bind (call body) fun v => ?_
    exact bind (machine (elementary.putAll env [name] [v])) fun _ => elementary.result v
  | read => exact bind (machine elementary.readLine) fun _ => elementary.newScalar _
  | readInteger => exact bind (machine elementary.readInteger) fun _ => elementary.newScalar _
  | substring text start stop =>
    refine bind (call text) fun v => bind (elementary.lift _) fun s => ?_
    refine bind (elementary.integer _ start) fun a => bind (elementary.integer _ stop) fun b => ?_
    exact bind (elementary.lift _) fun _ => elementary.newScalar _
  | pair left right =>
    exact bind (call left) fun l => bind (call right) fun r => elementary.newCons l r
  | list elements => exact bind (elementary.evalAll elements) fun vs => elementary.newList vs
  | vector elements =>
    exact bind (elementary.evalElements elements #[]) fun slots =>
      machine (elementary.newVector slots)
  | generator count procedure =>
    refine bind (elementary.integer _ count) fun n => ?_
    split
    · exact elementary.failure _
    · refine bind (call procedure) fun v => bind (elementary.lift _) fun p => ?_
      exact bind (machine (elementary.newObjects 1)) fun id => elementary.result _
  | index name position =>
    exact bind (elementary.findSlot name position) fun found =>
      machine (elementary.slot found.1 found.2)
  | size operand =>
    refine bind (call operand) fun v => bind (elementary.lift _) fun id => ?_
    exact bind (machine (elementary.vectorSize id)) fun size => elementary.newScalar _
  | car operand => exact bind (call operand) fun _ => elementary.lift _
  | cdr operand => exact bind (call operand) fun _ => elementary.lift _
  | isPair operand =>
    exact bind (call operand) fun v => bind (elementary.lift _) fun _ => elementary.newScalar _
  | identical left right =>
    exact bind (call left) fun l => bind (call right) fun r => elementary.newScalar _
  | binary operator left right =>
    refine bind (call left) fun l => bind (call right) fun r => ?_
    exact bind (machine (elementary.binary operator l r)) fun _ => elementary.newScalar _
  | unary operator operand =>
    exact bind (call operand) fun v => bind (elementary.lift _) fun _ => elementary.newScalar _

end Elementary

end Smpl

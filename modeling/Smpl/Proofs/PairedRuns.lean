import Smpl.Proofs.PairedValues
import Smpl.Proofs.Runs

/-!
# Paired runs

A machine *follows* another one (`Machine.Follows`) if from paired states both end alike: with results
that belong together or with the same failure, and in paired states again. If the pairing says so, the
second machine may reach the bound on nesting instead.

* Each elementary machine follows itself, for paired arguments.
* So does each function of the evaluator, if its evaluators for the parts do.
* Evaluation within a bound follows evaluation within a greater one (`evalWithin_follows`).

In particular evaluation does not depend on which numbers objects have, nor on the log.
-/

namespace Smpl

variable {c : Pairing}

/-! ## Machines -/

/-- How two machines end that belong together. -/
inductive Ends (c : Pairing) {α β : Type} (R : α → β → Prop) :
    EStateM.Result Failure State α → EStateM.Result Failure State β → Prop
  | ok {a : α} {b : β} {s t : State} : R a b → s.Paired c t → Ends c R (.ok a s) (.ok b t)
  | error {e : Failure} {s t : State} : s.Paired c t → Ends c R (.error e s) (.error e t)
  | tooDeep {result : EStateM.Result Failure State α} {t : State} :
      c.shallow → Ends c R result (.error .tooDeep t)

/-- Machines that have ended alike go on alike. -/
theorem Ends.bind {α β γ δ : Type} {m : Machine α} {m' : Machine β} {R : α → β → Prop}
    {f : α → Machine γ} {f' : β → Machine δ} {R' : γ → δ → Prop} {s t : State}
    (first : Ends c R (m s) (m' t))
    (second : ∀ a b s₁ t₁, m s = .ok a s₁ → R a b → s₁.Paired c t₁ →
      Ends c R' (f a s₁) (f' b t₁)) : Ends c R' ((m >>= f) s) ((m' >>= f') t) := by
  show Ends c R' (EStateM.bind m f s) (EStateM.bind m' f' t)
  simp only [EStateM.bind]
  cases run : m s with
  | ok a s₁ =>
    rw [run] at first
    generalize m' t = result' at first ⊢
    cases first with
    | ok related states => exact second _ _ _ _ run related states
    | tooDeep shallow => exact .tooDeep shallow
  | error e s₁ =>
    rw [run] at first
    generalize m' t = result' at first ⊢
    cases first with
    | error states => exact .error states
    | tooDeep shallow => exact .tooDeep shallow

/-- A result may still be passed on. -/
theorem Ends.passed {α β γ : Type} {R : α → β → Prop} {R' : α → γ → Prop} {f : β → γ}
    {result : EStateM.Result Failure State α} {m' : Machine β} {t : State}
    (ended : Ends c R result (m' t)) (wider : ∀ a b, R a b → R' a (f b)) :
    Ends c R' result ((do let b ← m'; pure (f b) : Machine γ) t) := by
  show Ends c R' result (EStateM.bind m' _ t)
  simp only [EStateM.bind]
  generalize m' t = result' at ended ⊢
  cases ended with
  | ok related states => exact .ok (wider _ _ related) states
  | error states => exact .error states
  | tooDeep shallow => exact .tooDeep shallow

/-- From paired states two machines end alike. -/
def Machine.Follows (c : Pairing) {α β : Type} (m : Machine α) (m' : Machine β) (R : α → β → Prop) :
    Prop := ∀ s t, State.Paired c s t → Ends c R (m s) (m' t)

/-- Evaluators for two runs. -/
def Evaluator.Follows (c : Pairing) (eval eval' : Evaluator) : Prop :=
  ∀ e env, Machine.Follows c (eval e env) (eval' e env) (Value.Paired c)

namespace Machine.Follows

variable {α β γ δ : Type} {m : Machine α} {m' : Machine β} {R : α → β → Prop}

theorem pure {a : α} {b : β} (related : R a b) : Follows c (pure a) (pure b) R :=
  fun _ _ states => .ok related states

theorem fail (e : Failure) : Follows c (throw e : Machine α) (throw e : Machine β) R :=
  fun _ _ states => .error states

theorem bind {f : α → Machine γ} {f' : β → Machine δ} {R' : γ → δ → Prop}
    (first : Follows c m m' R) (second : ∀ a b, R a b → Follows c (f a) (f' b) R') :
    Follows c (m >>= f) (m' >>= f') R' :=
  fun s t paired => (first s t paired).bind fun a b _ _ _ related => second a b related _ _

theorem mono {R' : α → β → Prop} (h : Follows c m m' R) (wider : ∀ a b, R a b → R' a b) :
    Follows c m m' R' := by
  rw [← bind_pure m, ← bind_pure m']
  exact bind h fun a b related => pure (wider a b related)

/-- A machine also follows one that only has its result passed on. -/
theorem passed {R' : α → γ → Prop} {f : β → γ} (h : Follows c m m' R)
    (wider : ∀ a b, R a b → R' a (f b)) :
    Follows c m (do let b ← m'; Pure.pure (f b)) R' :=
  fun s t states => (h s t states).passed wider

/-- A machine also follows one that first adds a log line. -/
theorem noted (level : LogLevel) (text : String) (h : Follows c m m' R) :
    Follows c m (do Machine.note level text; m') R :=
  fun s t states => h s { t with log := t.log.push ⟨level, text⟩ } { states with }

theorem lift {x : Except Failure α} {y : Except Failure β} (h : Matched R x y) :
    Follows c (lift x) (lift y) R := by
  cases h with
  | ok related => exact pure related
  | error => exact fail _

/-- An operation with the same outcome in both runs. -/
theorem lift_eq {x y : Except Failure α} (same : x = y) :
    Follows c (Machine.lift x) (Machine.lift y) Eq := by
  subst same
  exact lift (Matched.refl x)

/-! ## Elementary machines -/

theorem newObjects (count : Nat) :
    Follows c (newObjects count) (newObjects count) fun id id' => id' = id + c.shift := by
  intro s t states
  refine .ok states.nextObject { states with nextObject := ?_ }
  show t.nextObject + count = s.nextObject + count + c.shift
  rw [states.nextObject, Nat.add_right_comm]

theorem newScalar (contents : Scalar) :
    Follows c (newScalar contents) (newScalar contents) (Value.Paired c) := by
  refine bind (newObjects 1) fun id id' numbers => ?_
  subst numbers
  exact pure .scalar

theorem newList {vs ws : List Value} (h : Value.AllPaired c vs ws) :
    Follows c (newList vs) (newList ws) (Value.Paired c) := by
  rw [Machine.newList, Machine.newList, ← h.length_eq]
  refine bind (newObjects vs.length) fun id id' numbers => ?_
  subst numbers
  exact pure (.listFrom h id)

theorem newCons {v v' w w' : Value} (head : v.Paired c w) (tail : v'.Paired c w') :
    Follows c (newCons v v') (newCons w w') (Value.Paired c) := by
  refine bind (newObjects 1) fun id id' numbers => ?_
  subst numbers
  exact pure (.cons head tail)

theorem newVector {slots slots' : Array Value}
    (h : Value.AllPaired c slots.toList slots'.toList) :
    Follows c (newVector slots) (newVector slots') (Value.Paired c) := by
  intro s t states
  rw [newVector_run, newVector_run, states.vectors.size_eq]
  exact .ok .vector (states.pushVector h)

theorem newScope (names : List String) {vs ws : List Value} (h : Value.AllPaired c vs ws)
    (parent : Option ScopeId) : Follows c (newScope names vs parent) (newScope names ws parent) Eq := by
  by_cases same : names.length = vs.length
  · intro s t states
    have same' : names.length = ws.length := same.trans h.length_eq
    have count : s.scopes.size = t.scopes.size := states.scopes.length_eq
    rw [newScope_run s parent same, newScope_run t parent same', count]
    exact .ok rfl (states.pushScope ⟨Bindings.Paired.putAll .nil names h, rfl, .none⟩)
  · rw [Machine.newScope, Machine.newScope, ← h.length_eq, if_neg same, if_neg same]
    exact fail _

theorem lookup (env : ScopeId) (name : String) :
    Follows c (lookup env name) (lookup env name) (Value.Paired c) := by
  intro s t states
  have found := states.lookup? env name
  rw [lookup_run, lookup_run]
  generalize s.lookup? env name = v at found ⊢
  generalize t.lookup? env name = w at found ⊢
  cases found with
  | some values => exact .ok values states
  | none => exact .error states

theorem putAll (env : ScopeId) (names : List String) {vs ws : List Value}
    (h : Value.AllPaired c vs ws) :
    Follows c (putAll env names vs) (putAll env names ws) fun _ _ => True :=
  fun _ _ states => .ok trivial (states.putAll env names h)

theorem put (env : ScopeId) (name : String) {v w : Value} (h : v.Paired c w) :
    Follows c (put env name v) (put env name w) fun _ _ => True :=
  putAll env [name] (.cons h .nil)

theorem memo? (env : ScopeId) : Follows c (memo? env) (memo? env) (Option.Rel (Value.Paired c)) :=
  fun _ _ states => .ok (states.memo? env) states

theorem setMemo (env : ScopeId) {v w : Value} (h : v.Paired c w) :
    Follows c (setMemo env v) (setMemo env w) fun _ _ => True :=
  fun _ _ states => .ok trivial (states.setMemo env h)

theorem vectorSize (id : VectorId) : Follows c (vectorSize id) (vectorSize id) Eq :=
  fun _ _ states => .ok (states.vectors.slots_size_eq id) states

theorem slot (id : VectorId) (i : Nat) :
    Follows c (slot id i) (slot id i) (Value.Paired c) := by
  intro s t states
  have found := states.slot? id i
  rw [slot_run, slot_run]
  generalize (s.vectors.slots id)[i]? = v at found ⊢
  generalize (t.vectors.slots id)[i]? = w at found ⊢
  cases found with
  | some values => exact .ok values states
  | none => exact .error states

theorem setSlot (id : VectorId) (i : Nat) {v w : Value} (h : v.Paired c w) :
    Follows c (setSlot id i v) (setSlot id i w) fun _ _ => True := by
  intro s t states
  rw [setSlot_run, setSlot_run, states.vectors.slots_size_eq id]
  split
  · exact .ok trivial (states.setSlot id i h)
  · exact .error states

theorem register : Follows c register register (Value.Paired c) :=
  fun _ _ states => .ok states.register states

theorem setRegister {v w : Value} (h : v.Paired c w) :
    Follows c (setRegister v) (setRegister w) fun _ _ => True :=
  fun _ _ states => .ok trivial { states with register := h }

theorem write (text : String) : Follows c (write text) (write text) fun _ _ => True :=
  fun _ _ states => .ok trivial { states with output := congrArg (· ++ text) states.output }

/-- Logs need not be the same. -/
theorem note (level : LogLevel) (text text' : String) :
    Follows c (note level text) (note level text') fun _ _ => True :=
  fun _ _ states => .ok trivial { states with }

theorem format {v w : Value} (h : v.Paired c w) : Follows c (format v) (format w) Eq :=
  fun _ _ states => .ok (h.format_eq states.vectors) states

theorem binary (symbol : String) {v v' w w' : Value} (h : v.Paired c w) (h' : v'.Paired c w') :
    Follows c (binary symbol v v') (binary symbol w w') Eq := by
  intro s t states
  rw [binary_run, binary_run, h.applyBinary_eq states.vectors h' symbol]
  cases applyBinary t.vectors symbol w w' with
  | ok contents => exact .ok rfl states
  | error e => exact .error states

theorem readLine : Follows c readLine readLine Eq := by
  intro s t states
  rw [readLine_run, readLine_run, states.console]
  cases t.console with
  | none => exact .error states
  | some console =>
    dsimp only
    cases console.readLine.1 with
    | some text => exact .ok rfl { states with console := rfl }
    | none => exact .error { states with console := rfl }

theorem readInteger : Follows c readInteger readInteger Eq := by
  intro s t states
  rw [readInteger_run, readInteger_run, states.console]
  cases t.console with
  | none => exact .error states
  | some console =>
    dsimp only
    cases console.readInteger.1 with
    | value n => exact .ok rfl { states with console := rfl }
    | rejected _ => exact .error { states with console := rfl }
    | endOfInput => exact .error { states with console := rfl }

end Machine.Follows

/-! ## Evaluation -/

namespace Evaluator.Follows

open Machine.Follows (bind lift lift_eq fail)

variable {eval eval' : Evaluator} (parts : Follows c eval eval')

include parts

/-! ### Parts -/

theorem evalAll (env : ScopeId) (es : List Expr) :
    Machine.Follows c (Eval.evalAll eval env es) (Eval.evalAll eval' env es) (Value.AllPaired c) := by
  induction es with
  | nil => exact .pure .nil
  | cons e rest ih =>
    refine bind (parts e env) fun v w first => ?_
    exact bind ih fun vs ws others => .pure (.cons first others)

theorem condition (operation : String) (e : Expr) (env : ScopeId) :
    Machine.Follows c (Eval.condition eval operation e env) (Eval.condition eval' operation e env)
      Eq :=
  bind (parts e env) fun _ _ values => lift_eq (values.truth_eq operation)

theorem integer (operation : String) (e : Expr) (env : ScopeId) :
    Machine.Follows c (Eval.integer eval operation e env) (Eval.integer eval' operation e env) Eq :=
  bind (parts e env) fun _ _ values => lift_eq (values.int_eq operation)

theorem findSlot (name : String) (index : Expr) (env : ScopeId) :
    Machine.Follows c (Eval.findSlot eval name index env) (Eval.findSlot eval' name index env) Eq := by
  refine bind (parts index env) fun _ _ values => ?_
  refine bind (lift_eq values.slotPosition_eq) fun position _ same => ?_
  subst same
  refine bind (.lookup env name) fun _ _ targets => ?_
  refine bind (lift_eq (targets.vectorOf_eq _)) fun id _ same => ?_
  subst same
  refine bind (.vectorSize id) fun size _ same => ?_
  subst same
  split
  · exact fail _
  · exact .pure rfl

/-! ### Calls -/

omit parts in
theorem callScope (d : Declaration) (scope : Option ScopeId) {vs ws : List Value}
    (h : Value.AllPaired c vs ws) :
    Machine.Follows c (Eval.callScope d scope vs) (Eval.callScope d scope ws) Eq := by
  have leading := List.forall₂_take (min ws.length d.parameters.length) h
  have surplus := List.forall₂_drop (min ws.length d.parameters.length) h
  rw [Eval.callScope, Eval.callScope, h.length_eq]
  cases d.restName? with
  | none => exact .newScope _ leading scope
  | some rest =>
    refine bind (.newList surplus) fun _ _ values => ?_
    exact .newScope _ (List.rel_append leading (.cons values .nil)) scope

theorem callProcedure (callee : Option Procedure) {vs ws : List Value}
    (h : Value.AllPaired c vs ws) :
    Machine.Follows c (Eval.callProcedure eval callee vs)
      (Eval.callProcedure eval' (callee.map (·.shifted c.shift)) ws) (Value.Paired c) := by
  cases callee with
  | none => exact fail _
  | some p =>
    have declaration : (p.shifted c.shift).declaration = p.declaration := rfl
    simp only [Eval.callProcedure, Option.map_some, declaration, h.length_eq]
    cases p.declaration with
    | none => exact fail _
    | some d =>
      dsimp only
      split
      · exact fail _
      · refine bind (callScope d p.scope h) fun env _ same => ?_
        subst same
        exact bind (.note _ _ _) fun _ _ _ => parts d.body env

/-! ### Vectors -/

omit parts in
theorem generatorArguments (d : Declaration) (index : Nat) :
    Machine.Follows c (Eval.generatorArguments d index) (Eval.generatorArguments d index)
      (Value.AllPaired c) := by
  unfold Eval.generatorArguments
  split
  · exact bind (.newScalar _) fun _ _ values => .pure (.cons values .nil)
  · exact .pure .nil

theorem generate (d : Declaration) (scope : Option ScopeId) (remaining index : Nat)
    {made made' : Array Value} (h : Value.AllPaired c made.toList made'.toList) :
    Machine.Follows c (Eval.generate eval d scope remaining index made)
      (Eval.generate eval' d scope remaining index made')
      fun vs ws => Value.AllPaired c vs.toList ws.toList := by
  induction remaining generalizing index made made' with
  | zero => exact .pure h
  | succ remaining ih =>
    refine bind (generatorArguments d index) fun _ _ arguments => ?_
    refine bind (.newScope _ arguments scope) fun env _ same => ?_
    subst same
    refine bind (parts d.body env) fun _ _ values => ih (index + 1) ?_
    simpa using List.rel_append h (.cons values .nil)

theorem expand (count : Int64) (source : Option Procedure) {made made' : Array Value}
    (h : Value.AllPaired c made.toList made'.toList) :
    Machine.Follows c (Eval.expand eval count source made)
      (Eval.expand eval' count (source.map (·.shifted c.shift)) made')
      fun vs ws => Value.AllPaired c vs.toList ws.toList := by
  cases source with
  | none => exact fail _
  | some p =>
    have declaration : (p.shifted c.shift).declaration = p.declaration := rfl
    have parameters : (p.shifted c.shift).parameters = p.parameters := rfl
    have restName? : (p.shifted c.shift).restName? = p.restName? := rfl
    simp only [Eval.expand, Option.map_some, declaration, parameters, restName?]
    split
    · exact fail _
    split
    · exact fail _
    split
    · exact fail _
    cases p.declaration with
    | some d => exact parts.generate d p.scope _ 0 h
    | none =>
      dsimp only
      split
      · exact .pure h
      · exact fail _

theorem evalElements (env : ScopeId) (es : List Expr) {made made' : Array Value}
    (h : Value.AllPaired c made.toList made'.toList) :
    Machine.Follows c (Eval.evalElements eval env es made) (Eval.evalElements eval' env es made')
      fun vs ws => Value.AllPaired c vs.toList ws.toList := by
  induction es generalizing made made' with
  | nil => exact .pure h
  | cons e rest ih =>
    refine bind (parts e env) fun v w values => ?_
    have appended := List.rel_append h (.cons values .nil)
    cases values with
    | generator => exact bind (parts.expand _ _ h) fun _ _ expanded => ih expanded
    | _ => exact ih (by simpa using appended)

/-! ### Statements -/

theorem defineNames (env : ScopeId) (names : List String) (values : List Expr) :
    Machine.Follows c (Eval.defineNames eval env names values)
      (Eval.defineNames eval' env names values) fun _ _ => True := by
  unfold Eval.defineNames
  split
  · next value =>
    refine bind (parts value env) fun v w values => ?_
    rw [values.isListLike_eq]
    split
    · exact .putAll env _ values.spine
    · exact fail _
  · split
    · exact bind (parts.evalAll env values) fun _ _ all => .putAll env names all
    · exact fail _

theorem assignSlot (env : ScopeId) (name : String) (position : Expr) (values : List Expr) :
    Machine.Follows c (Eval.assignSlot eval env name position values)
      (Eval.assignSlot eval' env name position values) fun _ _ => True := by
  unfold Eval.assignSlot
  split
  · next value =>
    refine bind (parts.findSlot name position env) fun found _ same => ?_
    subst same
    exact bind (parts value env) fun _ _ values => .setSlot found.1 found.2 values
  · exact fail _

theorem statement (env : ScopeId) (st : Stmt) :
    Machine.Follows c (Eval.statement eval env st) (Eval.statement eval' env st)
      (Value.Paired c) := by
  cases st with
  | define names values =>
    exact bind (parts.defineNames env names values) fun _ _ _ => .newScalar _
  | assign name position values =>
    exact bind (parts.assignSlot env name position values) fun _ _ _ => .newScalar _
  | print value terminator =>
    refine bind (parts value env) fun _ _ values => ?_
    refine bind (.format values) fun text _ same => ?_
    subst same
    refine bind (.write _) fun _ _ _ => ?_
    exact bind (.setRegister values) fun _ _ _ => .pure values
  | eval e => exact parts e env

theorem statements (env : ScopeId) (body : List Stmt) :
    Machine.Follows c (Eval.statements eval env body) (Eval.statements eval' env body)
      (Value.Paired c) := by
  induction body with
  | nil => exact .register
  | cons st rest ih =>
    refine bind (parts.statement env st) fun _ _ values => ?_
    exact bind (.setRegister values) fun _ _ _ => ih

theorem block (env : ScopeId) (body : List Stmt) :
    Machine.Follows c (Eval.block eval env body) (Eval.block eval' env body) (Value.Paired c) := by
  refine bind (.newScalar _) fun _ _ values => ?_
  exact bind (.setRegister values) fun _ _ _ => parts.statements env body

/-! ### Expressions -/

theorem branch (e : Expr) (env : ScopeId) :
    Machine.Follows c (Eval.branch eval e env) (Eval.branch eval' e env) (Value.Paired c) := by
  refine bind (parts e env) fun _ _ values => ?_
  exact bind (.setRegister values) fun _ _ _ => .pure values

theorem select (env : ScopeId) (clauses : List (Expr × Expr)) :
    Machine.Follows c (Eval.select eval env clauses) (Eval.select eval' env clauses)
      (Value.Paired c) := by
  induction clauses with
  | nil => exact .register
  | cons clause rest ih =>
    refine bind (parts clause.1 env) fun _ _ values => ?_
    refine bind (lift_eq values.selects_eq) fun chosen _ same => ?_
    subst same
    split
    · exact parts.branch clause.2 env
    · exact ih

theorem «lazy» (body : Expr) (env : ScopeId) :
    Machine.Follows c (Eval.lazy eval body env) (Eval.lazy eval' body env) (Value.Paired c) := by
  refine bind (.memo? env) fun _ _ memos => ?_
  cases memos with
  | some values =>
    refine bind (.format values) fun _ _ _ => ?_
    refine bind (.note _ _ _) fun _ _ _ => ?_
    exact bind (.setRegister values) fun _ _ _ => .pure values
  | none =>
    refine bind (parts body env) fun _ _ values => ?_
    exact bind (.setMemo env values) fun _ _ _ => .pure values

theorem letIn (bindings : List (String × Expr)) (body : Expr) (env : ScopeId) :
    Machine.Follows c (Eval.step eval (.letIn bindings body) env)
      (Eval.step eval' (.letIn bindings body) env) (Value.Paired c) := by
  refine bind (parts.evalAll env _) fun _ _ all => ?_
  refine bind (.newScope _ all (some env)) fun inner _ same => ?_
  subst same
  exact parts body inner

theorem call (callee arguments : Expr) (env : ScopeId) :
    Machine.Follows c (Eval.step eval (.call callee arguments) env)
      (Eval.step eval' (.call callee arguments) env) (Value.Paired c) := by
  refine bind (parts callee env) fun _ _ values => ?_
  refine bind (lift (values.procedureOf _)) fun p _ same => ?_
  subst same
  refine bind (parts arguments env) fun _ _ lists => ?_
  exact bind (lift lists.argumentsOf) fun _ _ all => parts.callProcedure (some p) all

theorem conditional (test yes : Expr) (no : Option Expr) (env : ScopeId) :
    Machine.Follows c (Eval.step eval (.conditional test yes no) env)
      (Eval.step eval' (.conditional test yes no) env) (Value.Paired c) := by
  refine bind (parts.condition "if" test env) fun holds _ same => ?_
  subst same
  split
  · exact parts.branch yes env
  · cases no with
    | some other => exact parts.branch other env
    | none => exact .register

theorem substring (text start stop : Expr) (env : ScopeId) :
    Machine.Follows c (Eval.step eval (.substring text start stop) env)
      (Eval.step eval' (.substring text start stop) env) (Value.Paired c) := by
  refine bind (parts text env) fun _ _ values => ?_
  refine bind (lift_eq (values.textOf_eq _)) fun s _ same => ?_
  subst same
  refine bind (parts.integer _ start env) fun a _ same => ?_
  subst same
  refine bind (parts.integer _ stop env) fun b _ same => ?_
  subst same
  refine bind (lift_eq rfl) fun part _ same => ?_
  subst same
  exact .newScalar _

theorem generator (count procedure : Expr) (env : ScopeId) :
    Machine.Follows c (Eval.step eval (.generator count procedure) env)
      (Eval.step eval' (.generator count procedure) env) (Value.Paired c) := by
  refine bind (parts.integer _ count env) fun n _ same => ?_
  subst same
  split
  · exact fail _
  · refine bind (parts procedure env) fun _ _ values => ?_
    refine bind (lift (values.procedureOf _)) fun p _ same => ?_
    subst same
    refine bind (.newObjects 1) fun id _ numbers => ?_
    subst numbers
    exact .pure .generator

/-- Two parts, evaluated from left to right, and then something that both values go into. -/
theorem sides {f : Value → Value → Machine Value} (left right : Expr) (env : ScopeId)
    (after : ∀ v w v' w', v.Paired c w → v'.Paired c w' →
      Machine.Follows c (f v v') (f w w') (Value.Paired c)) :
    Machine.Follows c (do let l ← eval left env; let r ← eval right env; f l r)
      (do let l ← eval' left env; let r ← eval' right env; f l r) (Value.Paired c) := by
  refine bind (parts left env) fun v w first => ?_
  exact bind (parts right env) fun v' w' second => after v w v' w' first second

/-- One evaluation step, with the forms that have no lemma of their own. -/
theorem step (e : Expr) (env : ScopeId) :
    Machine.Follows c (Eval.step eval e env) (Eval.step eval' e env) (Value.Paired c) := by
  cases e with
  | missing => exact fail _
  | block body => exact parts.block env body
  | letIn bindings body => exact parts.letIn bindings body env
  | identifier name => exact .lookup env name
  | literal value => exact .newScalar value
  | emptyList => exact .pure .empty
  | procedure parameters rest body =>
    refine bind (.newObjects 1) fun id _ numbers => ?_
    subst numbers
    exact .pure .procedure
  | call callee arguments => exact parts.call callee arguments env
  | conditional test yes no => exact parts.conditional test yes no env
  | select clauses => exact parts.select env clauses
  | «lazy» body => exact parts.lazy body env
  | define name body =>
    refine bind (parts body env) fun _ _ values => ?_
    exact bind (.put env name values) fun _ _ _ => .pure values
  | read =>
    refine bind .readLine fun line _ same => ?_
    subst same
    exact .newScalar _
  | readInteger =>
    refine bind .readInteger fun n _ same => ?_
    subst same
    exact .newScalar _
  | substring text start stop => exact parts.substring text start stop env
  | pair left right => exact parts.sides left right env fun _ _ _ _ => .newCons
  | list elements => exact bind (parts.evalAll env elements) fun _ _ => .newList
  | vector elements => exact bind (parts.evalElements env elements .nil) fun _ _ => .newVector
  | generator count procedure => exact parts.generator count procedure env
  | index name position =>
    refine bind (parts.findSlot name position env) fun found _ same => ?_
    subst same
    exact .slot found.1 found.2
  | size operand =>
    refine bind (parts operand env) fun _ _ values => ?_
    refine bind (lift_eq (values.vectorOf_eq _)) fun id _ same => ?_
    subst same
    refine bind (.vectorSize id) fun size _ same => ?_
    subst same
    exact .newScalar _
  | car operand => exact bind (parts operand env) fun _ _ values => lift values.first
  | cdr operand => exact bind (parts operand env) fun _ _ values => lift values.second
  | isPair operand =>
    refine bind (parts operand env) fun _ _ values => ?_
    refine bind (lift_eq values.pairTest_eq) fun holds _ same => ?_
    subst same
    exact .newScalar _
  | identical left right =>
    refine parts.sides left right env fun _ _ _ _ first second => ?_
    rw [first.identical_eq second]
    exact .newScalar _
  | binary operator left right =>
    refine parts.sides left right env fun _ _ _ _ first second => ?_
    refine bind (.binary operator first second) fun result _ same => ?_
    subst same
    exact .newScalar _
  | unary operator operand =>
    refine bind (parts operand env) fun _ _ values => ?_
    refine bind (lift_eq (values.applyUnary_eq operator)) fun result _ same => ?_
    subst same
    exact .newScalar _

end Evaluator.Follows

/-- Evaluation within a bound follows evaluation within a greater one: it does the same, unless it
reaches its bound. -/
theorem evalWithin_follows (extra : Nat) (allowed : c.shallow ∨ extra = 0) (bound : Nat) :
    Evaluator.Follows c (evalWithin (bound + extra)) (evalWithin bound) := by
  -- One step needs its parts evaluated alike, and these have the smaller bounds.
  induction bound with
  | zero =>
    intro e env s t states
    rcases allowed with shallow | rfl
    · exact .tooDeep shallow
    · exact .error states
  | succ bound ih =>
    rw [Nat.add_right_comm]
    exact ih.step

/-! ## Runs that differ in the log -/

/-- Two runs with the same objects. -/
def sameObjects : Pairing where
  shift := 0
  absent := True
  shallow := False

/-- Two runs with the same objects, of which the second one may reach the bound on nesting. -/
def sameObjectsWithin : Pairing := { sameObjects with shallow := True }

/-- The runs of a pairing have the same objects, and there may be absent values in them. -/
structure Pairing.KeepsObjects (c : Pairing) : Prop where
  shift : c.shift = 0
  absent : c.absent

theorem sameObjects_keepsObjects : sameObjects.KeepsObjects := ⟨rfl, trivial⟩

theorem sameObjectsWithin_keepsObjects : sameObjectsWithin.KeepsObjects := ⟨rfl, trivial⟩

/-- A state that differs from another one in the log at most. -/
def State.SameBesidesLog (s t : State) : Prop := ∃ log, t = { s with log := log }

/-- Lists of things that are paired when they are the same. -/
theorem forall₂_eq_iff {α : Type} {R : α → α → Prop} (same : ∀ a b, R a b ↔ a = b) {as bs : List α} :
    List.Forall₂ R as bs ↔ as = bs := by
  have relation : R = Eq := by
    funext a b
    exact propext (same a b)
  rw [relation, List.forall₂_eq_eq_eq]

namespace Pairing.KeepsObjects

variable (keeps : c.KeepsObjects)

include keeps

theorem value {v w : Value} : v.Paired c w ↔ v = w := by
  obtain ⟨shift, absent, shallow⟩ := c
  obtain ⟨rfl, allowed⟩ := keeps
  constructor
  · intro h
    induction h with
    | pair _ _ ih₁ ih₂ =>
      rw [ih₁, ih₂]
      rfl
    | cell _ _ ih₁ ih₂ =>
      rw [ih₁, ih₂]
      rfl
    | @generator id count source => cases source <;> rfl
    | _ => rfl
  · rintro rfl
    induction v with
    | nothing => exact .nothing allowed
    | scalar id contents => exact .scalar
    | empty => exact .empty
    | pair id a b ih₁ ih₂ => exact .pair ih₁ ih₂
    | cell id a b ih₁ ih₂ => exact .cell ih₁ ih₂
    | vector id => exact .vector
    | generator id count source =>
      have made := @Value.Paired.generator ⟨0, absent, shallow⟩ id count source
      cases source <;> exact made
    | procedure p => exact .procedure

theorem values {vs ws : List Value} : Value.AllPaired c vs ws ↔ vs = ws :=
  forall₂_eq_iff fun _ _ => keeps.value

theorem bindings {a b : Bindings} : a.Paired c b ↔ a = b := by
  refine forall₂_eq_iff fun x y => ?_
  rw [keeps.value, Prod.ext_iff]

theorem scope {a b : Scope} : a.Paired c b ↔ a = b := by
  have memos : ∀ x y, Option.Rel (Value.Paired c) x y ↔ x = y := by
    intro x y
    constructor
    · rintro (related | _)
      · rw [keeps.value.mp related]
      · rfl
    · rintro rfl
      cases x with
      | none => exact .none
      | some v => exact .some (keeps.value.mpr rfl)
  constructor
  · intro h
    obtain ⟨bindings, parent, memo⟩ := a
    obtain ⟨bindings', parent', memo'⟩ := b
    obtain ⟨sameBindings, sameParent, sameMemo⟩ := h
    rw [keeps.bindings] at sameBindings
    rw [memos] at sameMemo
    cases sameBindings
    cases sameParent
    cases sameMemo
    rfl
  · rintro rfl
    exact ⟨keeps.bindings.mpr rfl, rfl, (memos _ _).mpr rfl⟩

theorem vectors {a b : Vectors} : a.Paired c b ↔ a = b := by
  rw [Vectors.Paired, ← Array.toList_inj]
  refine forall₂_eq_iff fun x y => ?_
  rw [keeps.values, Array.toList_inj]

theorem state {s t : State} : s.Paired c t ↔ s.SameBesidesLog t := by
  constructor
  · intro h
    obtain ⟨scopes, vectors, nextObject, register, console, output, log⟩ := s
    obtain ⟨scopes', vectors', nextObject', register', console', output', log'⟩ := t
    obtain ⟨sameScopes, sameVectors, sameNext, sameRegister, sameConsole, sameOutput⟩ := h
    rw [forall₂_eq_iff fun _ _ => keeps.scope, Array.toList_inj] at sameScopes
    rw [keeps.vectors] at sameVectors
    rw [keeps.value] at sameRegister
    rw [keeps.shift] at sameNext
    cases sameScopes
    cases sameVectors
    cases sameNext
    cases sameRegister
    cases sameConsole
    cases sameOutput
    exact ⟨log', rfl⟩
  · rintro ⟨log, rfl⟩
    exact ⟨(forall₂_eq_iff fun _ _ => keeps.scope).mpr rfl, keeps.vectors.mpr rfl,
      by rw [keeps.shift]; rfl, keeps.value.mpr rfl, rfl, rfl⟩

theorem refl (s : State) : s.Paired c s := keeps.state.mpr ⟨s.log, rfl⟩

end Pairing.KeepsObjects

theorem Value.paired_sameObjects {v w : Value} : v.Paired sameObjects w ↔ v = w :=
  sameObjects_keepsObjects.value

theorem Value.allPaired_sameObjects {vs ws : List Value} :
    Value.AllPaired sameObjects vs ws ↔ vs = ws := sameObjects_keepsObjects.values

section SameObjects

variable {α : Type} {m m' : Machine α} {s s' : State} {a : α}

/-- A machine that ends like one with the same objects ends in a value only if that one does. -/
theorem Ends.eq_ok (ended : Ends sameObjects Eq (m s) (m' s)) (run : m s = .ok a s') :
    ∃ t, m' s = .ok a t ∧ s'.SameBesidesLog t := by
  rw [run] at ended
  generalize m' s = right at ended ⊢
  cases ended with
  | @ok _ b _ t same states => exact ⟨t, same ▸ rfl, sameObjects_keepsObjects.state.mp states⟩
  | tooDeep shallow => exact shallow.elim

/-- Machines that end alike with the same objects have the same value or the same failure, and states
that differ in the log at most, unless the second one reaches the bound on nesting. -/
theorem Ends.alike_unless (keeps : c.KeepsObjects) (ended : Ends c Eq (m s) (m' s)) :
    (c.shallow ∧ m'.outcome s = .error .tooDeep) ∨
      (m.outcome s = m'.outcome s ∧ (m.after s).SameBesidesLog (m'.after s)) := by
  rw [Machine.outcome, Machine.outcome, Machine.after, Machine.after]
  generalize m s = left at ended ⊢
  generalize m' s = right at ended ⊢
  cases ended with
  | ok same states => exact .inr ⟨congrArg Except.ok same, keeps.state.mp states⟩
  | error states => exact .inr ⟨rfl, keeps.state.mp states⟩
  | tooDeep shallow => exact .inl ⟨shallow, rfl⟩

theorem Ends.alike (ended : Ends sameObjects Eq (m s) (m' s)) :
    m.outcome s = m'.outcome s ∧ (m.after s).SameBesidesLog (m'.after s) :=
  (ended.alike_unless sameObjects_keepsObjects).resolve_left fun deep => deep.1

/-- Machines that follow each other from the same objects end alike, unless the second one reaches the
bound on nesting. -/
theorem Machine.Follows.ends_unless (keeps : c.KeepsObjects) (h : Follows c m m' Eq) (s : State) :
    (c.shallow ∧ m'.outcome s = .error .tooDeep) ∨
      (m.outcome s = m'.outcome s ∧ (m.after s).SameBesidesLog (m'.after s)) :=
  (h s s (keeps.refl s)).alike_unless keeps

theorem Machine.Follows.ends (h : Follows sameObjects m m' Eq) (s : State) :
    m.outcome s = m'.outcome s ∧ (m.after s).SameBesidesLog (m'.after s) :=
  (h s s (sameObjects_keepsObjects.refl s)).alike

end SameObjects

end Smpl

import Smpl.Machine.Run
import Smpl.Proofs.PairedRuns

/-!
# The scope of a call

The body of a procedure runs in a new scope under the scope of the closure. The scope binds the leading
parameters to the arguments that there are, and the rest parameter to the list of the others
(`Scope.Receives`). Of equal names the last one counts, as for all names that are bound together
(`Bindings.get?_putAll_eq`).

* `call_binds_arguments`: a call with too many arguments fails before anything happens, and every other
  call evaluates the body in such a scope, from a state that is otherwise the same. The arguments of a
  call expression are the elements of the list that it is given.
* `missing_argument_unbound_iff`: a parameter without an argument is not bound in this scope. So its name
  has whatever value it has in the scope of the closure, and is unbound only if it has none there.
-/

namespace Smpl

/-! ## Evaluating one after the other -/

namespace Eval

/-- Expressions are evaluated one after the other, each from the state that the one before leaves. -/
inductive InTurn (eval : Evaluator) (env : ScopeId) :
    List Expr → State → List Value → State → Prop
  | nil {s : State} : InTurn eval env [] s [] s
  | cons {e : Expr} {rest : List Expr} {v : Value} {vs : List Value} {s t u : State} :
      eval e env s = .ok v t → InTurn eval env rest t vs u →
      InTurn eval env (e :: rest) s (v :: vs) u

variable {eval : Evaluator} {env : ScopeId} {es : List Expr} {vs : List Value} {s t u : State}

theorem InTurn.length_eq (turn : InTurn eval env es s vs t) : es.length = vs.length := by
  induction turn with
  | nil => rfl
  | cons _ _ ih => rw [List.length_cons, List.length_cons, ih]

theorem evalAll_eq_ok : evalAll eval env es s = .ok vs t ↔ InTurn eval env es s vs t := by
  constructor
  · intro run
    induction es generalizing s vs with
    | nil =>
      cases run
      exact .nil
    | cons e rest ih =>
      obtain ⟨v, _, first, later⟩ := Machine.bind_eq_ok.mp run
      obtain ⟨others, _, following, last⟩ := Machine.bind_eq_ok.mp later
      cases last
      exact .cons first (ih following)
  · intro turn
    induction turn with
    | nil => rfl
    | cons first _ ih =>
      exact Machine.bind_eq_ok.mpr ⟨_, _, first, Machine.bind_eq_ok.mpr ⟨_, _, ih, rfl⟩⟩

/-- The first failure ends the evaluation. -/
theorem evalAll_eq_error {before after : List Expr} {e : Expr} {failure : Failure}
    (earlier : InTurn eval env before s vs t) (failed : eval e env t = .error failure u) :
    evalAll eval env (before ++ e :: after) s = .error failure u := by
  induction earlier with
  | nil => simp only [List.nil_append, evalAll, bind, EStateM.bind, failed]
  | cons first _ ih =>
    simp only [List.cons_append, evalAll, bind, EStateM.bind, first, ih failed]

end Eval

/-! ## Names that are bound together -/

/-- After `putAll` a name has the value that it was given last, else the one that it had before. -/
theorem Bindings.get?_putAll_eq (names : List String) (values : List Value) (bindings : Bindings)
    (name : String) :
    (bindings.putAll names values).get? name =
      ((names.zip values).reverse.lookup name).or (bindings.get? name) := by
  induction names generalizing values bindings with
  | nil => rfl
  | cons key keys ih =>
    cases values with
    | nil => rfl
    | cons value values =>
      rw [Bindings.putAll, ih, get?_put, List.zip_cons_cons, List.reverse_cons, List.lookup_append,
        Option.or_assoc, List.lookup_cons, List.lookup_nil]
      congr 1
      by_cases same : key = name
      · subst same
        simp
      · rw [if_neg same, beq_false_of_ne (Ne.symm same)]
        rfl

theorem Value.elements_listFrom (id : ObjectId) (values : List Value) :
    (Value.listFrom id values).elements = .ok values := by
  induction values generalizing id with
  | nil => rfl
  | cons v rest ih => rw [Value.listFrom, Value.elements, ih]

/-! ## The scope -/

/-- The bindings of a call in order: parameters with their arguments, then the rest parameter, if there
is one, with the list of the surplus arguments. -/
def Declaration.received (d : Declaration) (arguments : List Value) (surplus : Value) :
    List (String × Value) :=
  d.parameters.zip arguments ++ d.restName?.toList.map (·, surplus)

/-- A scope for a call of a closure. -/
structure Scope.Receives (scope : Scope) (d : Declaration) (closure : Option ScopeId)
    (arguments : List Value) : Prop where
  parent : scope.parent = closure
  memo : scope.memo = none
  bindings : ∃ surplus, surplus.elements = .ok (arguments.drop d.parameters.length) ∧
    (arguments.length ≤ d.parameters.length → surplus = .empty) ∧
    ∀ name, scope.bindings.get? name = (d.received arguments surplus).reverse.lookup name

namespace Eval

section Leading

variable (names : List String) (values : List Value)

theorem zip_leading : (names.take (min values.length names.length)).zip
    (values.take (min values.length names.length)) = names.zip values := by
  rw [Nat.min_comm]
  exact List.zip_eq_zip_take_min.symm

theorem length_leading : (names.take (min values.length names.length)).length =
    (values.take (min values.length names.length)).length := by
  rw [List.length_take, List.length_take]
  omega

theorem drop_leading : values.drop (min values.length names.length) = values.drop names.length := by
  rcases Nat.le_total values.length names.length with few | many
  · rw [Nat.min_eq_left few, List.drop_eq_nil_of_le (Nat.le_refl _), List.drop_eq_nil_of_le few]
  · rw [Nat.min_eq_right many]

end Leading

theorem callScope_receives (d : Declaration) (closure : Option ScopeId) (arguments : List Value)
    (s : State) : ∃ scope made, scope.Receives d closure arguments ∧
      callScope d closure arguments s = .ok s.scopes.size
        { s with scopes := s.scopes.push scope, nextObject := s.nextObject + made } := by
  have same := length_leading d.parameters arguments
  have none_left (few : arguments.length ≤ d.parameters.length) :
      Value.listFrom s.nextObject (arguments.drop d.parameters.length) = .empty := by
    rw [List.drop_eq_nil_of_le few]
    rfl
  rw [callScope, drop_leading]
  cases rest : d.restName? with
  | none =>
    refine ⟨_, 0, ⟨rfl, rfl, _, Value.elements_listFrom s.nextObject _, none_left, fun name => ?_⟩,
      Machine.newScope_run s closure same⟩
    rw [Bindings.get?_putAll_eq, zip_leading, Declaration.received, rest]
    simp [Bindings.get?]
  | some restName =>
    refine ⟨_, (arguments.drop d.parameters.length).length,
      ⟨rfl, rfl, _, Value.elements_listFrom s.nextObject _, none_left, fun name => ?_⟩,
      Machine.newScope_run _ closure (by simp [same])⟩
    rw [Bindings.get?_putAll_eq, List.zip_append same, zip_leading, Declaration.received, rest]
    simp [Bindings.get?]

/-! ## Calls -/

variable {eval : Evaluator} {p : Procedure} {d : Declaration} {arguments : List Value} {s : State}

/-- A call that is not refused evaluates the body in a scope for its arguments. -/
theorem callProcedure_enters (eval : Evaluator) (declared : p.declaration = some d)
    (accepted : ¬(d.parameters.length < arguments.length ∧ d.restName? = none)) (s : State) :
    ∃ scope made log, scope.Receives d p.scope arguments ∧
      callProcedure eval (some p) arguments s = eval d.body s.scopes.size
        { s with scopes := s.scopes.push scope, nextObject := s.nextObject + made, log := log } := by
  obtain ⟨scope, made, receives, run⟩ := callScope_receives d p.scope arguments s
  refine ⟨scope, made, s.log.push ⟨.verbose, callNote d arguments.length⟩, receives, ?_⟩
  simp only [callProcedure, declared, if_neg accepted, bind, EStateM.bind, run]
  rfl

theorem callProcedure_refused (eval : Evaluator) (declared : p.declaration = some d)
    (refused : d.parameters.length < arguments.length ∧ d.restName? = none) (s : State) :
    callProcedure eval (some p) arguments s =
      .error (.arity .procedureCall d.parameters.length arguments.length) s := by
  simp only [callProcedure, declared, if_pos refused]
  rfl

theorem callScope_full {d : Declaration} (plain : d.restName? = none) {arguments : List Value}
    (full : d.parameters.length = arguments.length) (scope : Option ScopeId) :
    callScope d scope arguments = Machine.newScope d.parameters arguments scope := by
  have bound : min arguments.length d.parameters.length = d.parameters.length := by omega
  rw [callScope, plain, bound, List.take_length, full, List.take_length]

end Eval

/-- A call with an argument for each parameter is the evaluation of the body in a scope for them. -/
theorem callProcedure_follows {eval : Evaluator} (alike : Evaluator.Follows sameObjects eval eval)
    {p : Procedure} {d : Declaration} (declared : p.declaration = some d)
    (plain : d.restName? = none) {arguments : List Value}
    (full : d.parameters.length = arguments.length) :
    Machine.Follows sameObjects
      (do let env ← Machine.newScope d.parameters arguments p.scope; eval d.body env)
      (Eval.callProcedure eval (some p) arguments) Eq := by
  have enough : ¬(d.parameters.length < arguments.length ∧ d.restName? = none) := by omega
  simp only [Eval.callProcedure, declared, if_neg enough, Eval.callScope_full plain full]
  refine .bind (.newScope _ (Value.allPaired_sameObjects.mpr rfl) _) fun env _ same => ?_
  subst same
  exact .noted _ _ ((alike d.body env).mono fun _ _ => Value.paired_sameObjects.mp)

/-- The arguments of a call expression are the elements of the value that it has for them. -/
theorem evalWithin_call {bound : Nat} {callee arguments : Expr} {env : ScopeId} {p : Procedure}
    {v : Value} {s s₁ s₂ : State} (called : evalWithin bound callee env s = .ok (.procedure p) s₁)
    (given : evalWithin bound arguments env s₁ = .ok v s₂) :
    evalWithin (bound + 1) (.call callee arguments) env s =
      match v.elements with
      | .ok passed => Eval.callProcedure (evalWithin bound) (some p) passed s₂
      | .error other => .error (.kindOf "list" other [.list, .emptyList]) s₂ := by
  simp only [evalWithin, Eval.step, bind, EStateM.bind, called, Eval.procedureOf, Machine.lift, pure,
    EStateM.pure, given, Eval.argumentsOf]
  cases v.elements <;> rfl

/-- A list expression has a list of the values of its elements as its value. -/
theorem evalWithin_list_elements (bound : Nat) (es : List Expr) (env : ScopeId) (s : State)
    (vs : List Value) :
    (∃ v t, evalWithin (bound + 1) (.list es) env s = .ok v t ∧ v.elements = .ok vs) ↔
      ∃ t, Eval.InTurn (evalWithin bound) env es s vs t := by
  constructor
  · rintro ⟨v, t, run, elements⟩
    obtain ⟨values, s₁, evaluated, made⟩ := Machine.bind_eq_ok.mp run
    cases made
    rw [Value.elements_listFrom] at elements
    cases elements
    exact ⟨s₁, Eval.evalAll_eq_ok.mp evaluated⟩
  · rintro ⟨t, turn⟩
    refine ⟨_, _, Machine.bind_eq_ok.mpr ⟨vs, t, Eval.evalAll_eq_ok.mpr turn, rfl⟩, ?_⟩
    exact Value.elements_listFrom t.nextObject vs

/-- A call with more arguments than parameters and no rest parameter fails, and nothing has happened.
Every other call evaluates the body in a new scope under the scope of the closure. This scope binds the
parameters to the arguments that there are and the rest parameter to the list of those that are left;
of equal names the last one counts. Beside it only a log line and the cells of the list are new.

A call expression passes the elements of the list that it is given, and fails if it is given none. For
a list expression these are the values of its elements in order. -/
theorem call_binds_arguments (bound : Nat) :
    (∀ (p : Procedure) (d : Declaration) (arguments : List Value) (s : State),
      p.declaration = some d →
      if d.parameters.length < arguments.length ∧ d.restName? = none then
        Eval.callProcedure (evalWithin bound) (some p) arguments s =
          .error (.arity .procedureCall d.parameters.length arguments.length) s
      else
        ∃ scope made log, scope.Receives d p.scope arguments ∧
          Eval.callProcedure (evalWithin bound) (some p) arguments s =
            evalWithin bound d.body s.scopes.size
              { s with scopes := s.scopes.push scope, nextObject := s.nextObject + made, log := log }) ∧
    (∀ callee arguments env p v s s₁ s₂,
      evalWithin bound callee env s = .ok (.procedure p) s₁ →
      evalWithin bound arguments env s₁ = .ok v s₂ →
      evalWithin (bound + 1) (.call callee arguments) env s =
        match v.elements with
        | .ok passed => Eval.callProcedure (evalWithin bound) (some p) passed s₂
        | .error other => .error (.kindOf "list" other [.list, .emptyList]) s₂) ∧
    (∀ es env s vs,
      (∃ v t, evalWithin (bound + 1) (.list es) env s = .ok v t ∧ v.elements = .ok vs) ↔
        ∃ t, Eval.InTurn (evalWithin bound) env es s vs t) := by
  refine ⟨fun p d arguments s declared => ?_, ?_, ?_⟩
  · split
    · next refused => exact Eval.callProcedure_refused _ declared refused s
    · next accepted => exact Eval.callProcedure_enters _ declared accepted s
  · intro callee arguments env p v s s₁ s₂ called given
    exact evalWithin_call called given
  · exact evalWithin_list_elements bound

/-- The number `n` as the object `n`. -/
def numberedInteger (n : Nat) : Value := .scalar n (.integer (Int64.ofNat n))

/-- A closure over the global scope with two parameters of one name and a rest parameter. -/
def doubledParameter : Procedure := ⟨0, some ⟨["a", "a"], some "others", .identifier "a"⟩, some 0⟩

/-- A closure over the global scope with one parameter. -/
def oneParameter : Procedure := ⟨0, some ⟨["a"], none, .identifier "a"⟩, some 0⟩

/-- Of four arguments the second one is bound to the name that both parameters have, and the last two
are in the list. A procedure with one parameter does not take two arguments. -/
theorem doubledParameter_bound :
    (∃ scope s, Eval.callProcedure (evalWithin 1) (some doubledParameter)
        [numberedInteger 1, numberedInteger 2, numberedInteger 3, numberedInteger 4]
        (State.initial none) = evalWithin 1 (.identifier "a") 1 s ∧
      s.scopes[1]? = some scope ∧ scope.parent = some 0 ∧
      scope.bindings.get? "a" = some (numberedInteger 2) ∧
      (∃ others, scope.bindings.get? "others" = some others ∧
        others.elements = .ok [numberedInteger 3, numberedInteger 4]) ∧
      scope.bindings.get? "b" = none) ∧
    Eval.callProcedure (evalWithin 1) (some oneParameter) [numberedInteger 1, numberedInteger 2]
        (State.initial none) = .error (.arity .procedureCall 1 2) (State.initial none) := by
  obtain ⟨calls, _⟩ := call_binds_arguments 1
  constructor
  · obtain ⟨scope, made, log, receives, run⟩ := calls doubledParameter _
      [numberedInteger 1, numberedInteger 2, numberedInteger 3, numberedInteger 4]
      (State.initial none) rfl
    obtain ⟨surplus, elements, _, bound⟩ := receives.bindings
    exact ⟨scope, _, run, rfl, receives.parent, bound "a", ⟨surplus, bound "others", elements⟩,
      bound "b"⟩
  · exact calls oneParameter _ [numberedInteger 1, numberedInteger 2] (State.initial none) rfl

/-! ## Missing arguments -/

namespace State

/-- A new scope does not change what names stand for in the scopes that are there. -/
theorem lookupIn?_push {scopes : Array Scope} {env : ScopeId} (old : env < scopes.size) (scope : Scope)
    (name : String) : lookupIn? (scopes.push scope) name env = lookupIn? scopes name env := by
  have kept {k : ScopeId} (old : k < scopes.size) : (scopes.push scope)[k]? = scopes[k]? := by
    rw [Array.getElem?_push_lt old, Array.getElem?_eq_getElem old]
  fun_induction lookupIn? scopes name env with
  | case1 env absent => rw [lookupIn?, kept old, absent]
  | case2 env found here value bound => rw [lookupIn?_of_found ((kept old).trans here), bound]
  | case3 env found here unbound top =>
    rw [lookupIn?_of_found ((kept old).trans here), unbound, top]
  | case4 env found here unbound parent under older ih =>
    rw [lookupIn?_of_found ((kept old).trans here), unbound, under]
    simpa only [if_pos older] using ih (Nat.lt_trans older old)
  | case5 env found here unbound parent under younger =>
    rw [lookupIn?_of_found ((kept old).trans here), unbound, under]
    simp only [if_neg younger]

/-- In a new scope a name stands for the value that the scope binds to it, else for what it stands for
in the parent. -/
theorem lookupIn?_new (scopes : Array Scope) (scope : Scope) (name : String) :
    lookupIn? (scopes.push scope) name scopes.size =
      (scope.bindings.get? name).or (scope.parent.bind fun parent => lookupIn? scopes name parent) := by
  have new : (scopes.push scope)[scopes.size]? = some scope := Array.getElem?_push_size
  rw [lookupIn?_of_found new]
  cases scope.bindings.get? name with
  | some value => rfl
  | none =>
    cases scope.parent with
    | none => rfl
    | some parent =>
      dsimp only
      split
      · next older => exact lookupIn?_push older scope name
      · next younger =>
        have absent : scopes[parent]? = none := Array.getElem?_eq_none (Nat.le_of_not_lt younger)
        show none = lookupIn? scopes name parent
        rw [lookupIn?, absent]

end State

/-- Of distinct parameters those without an argument are not among the names that a call binds. -/
theorem Declaration.lookup_received_missing {d : Declaration} (distinct : d.parameters.Nodup)
    {arguments : List Value} {position : Nat} {name : String}
    (parameter : d.parameters[position]? = some name) (missing : arguments.length ≤ position)
    (other : d.restName? ≠ some name) (surplus : Value) :
    (d.received arguments surplus).reverse.lookup name = none := by
  rw [List.lookup_eq_none_iff]
  intro b member
  rw [bne_iff_ne]
  rintro rfl
  rcases List.mem_append.mp (List.mem_reverse.mp member) with given | rest
  · obtain ⟨i, here⟩ := List.mem_iff_getElem?.mp given
    obtain ⟨first, second⟩ := List.getElem?_zip_eq_some.mp here
    -- The name would stand at two places.
    have placed : i < arguments.length := (List.getElem?_eq_some_iff.mp second).1
    have inside : i < d.parameters.length := (List.getElem?_eq_some_iff.mp first).1
    have same : i = position := (List.getElem?_inj inside distinct).mp (first.trans parameter.symm)
    omega
  · obtain ⟨restName, has, rfl⟩ := List.mem_map.mp rest
    exact other (Option.mem_toList.mp has)

theorem outcome_identifier (bound : Nat) (name : String) (env : ScopeId) (s : State) :
    (evalWithin (bound + 1) (.identifier name) env).outcome s =
      match s.lookup? env name with
      | some value => .ok value
      | none => .error (.unbound name) := by
  show (Machine.lookup env name).outcome s = _
  rw [Machine.outcome, Machine.lookup_run]
  cases s.lookup? env name <;> rfl

/-- As the body of a call, a parameter without an argument has the value that its name has in the scope
of the closure. -/
theorem missing_argument_outcome (bound : Nat) (p : Procedure) {d : Declaration}
    (declared : p.declaration = some d) (distinct : d.parameters.Nodup) (arguments : List Value)
    {position : Nat} {name : String} (parameter : d.parameters[position]? = some name)
    (missing : arguments.length ≤ position) (other : d.restName? ≠ some name)
    (body : d.body = .identifier name) (s : State) :
    (Eval.callProcedure (evalWithin (bound + 1)) (some p) arguments).outcome s =
      match p.scope.bind fun closure => s.lookup? closure name with
      | some value => .ok value
      | none => .error (.unbound name) := by
  have inside : position < d.parameters.length := (List.getElem?_eq_some_iff.mp parameter).1
  have accepted : ¬(d.parameters.length < arguments.length ∧ d.restName? = none) := by omega
  obtain ⟨scope, made, log, receives, run⟩ :=
    Eval.callProcedure_enters (evalWithin (bound + 1)) declared accepted s
  obtain ⟨surplus, _, _, bindings⟩ := receives.bindings
  have unbound : scope.bindings.get? name = none :=
    (bindings name).trans (d.lookup_received_missing distinct parameter missing other surplus)
  have found := State.lookupIn?_new s.scopes scope name
  rw [unbound, receives.parent, Option.none_or] at found
  have entered := outcome_identifier bound name s.scopes.size
    { s with scopes := s.scopes.push scope, nextObject := s.nextObject + made, log := log }
  rw [State.lookup?, found] at entered
  rw [Machine.outcome, run, body]
  exact entered

/-- Of distinct parameters one without an argument fails as unbound, if it is all of the body, exactly
when its name is bound neither in the scope of the closure nor in those around it. Else it has the value
that is bound there. -/
theorem missing_argument_unbound_iff (bound : Nat) (p : Procedure) (d : Declaration)
    (declared : p.declaration = some d) (distinct : d.parameters.Nodup) (arguments : List Value)
    (position : Nat) (name : String) (parameter : d.parameters[position]? = some name)
    (missing : arguments.length ≤ position) (other : d.restName? ≠ some name)
    (body : d.body = .identifier name) (s : State) :
    ((Eval.callProcedure (evalWithin (bound + 1)) (some p) arguments).outcome s =
        .error (.unbound name) ↔
      ∀ closure, p.scope = some closure → s.lookup? closure name = none) ∧
    (∀ closure value, p.scope = some closure → s.lookup? closure name = some value →
      (Eval.callProcedure (evalWithin (bound + 1)) (some p) arguments).outcome s = .ok value) := by
  rw [missing_argument_outcome bound p declared distinct arguments parameter missing other body s]
  constructor
  · cases p.scope with
    | none => simp
    | some closure => cases found : s.lookup? closure name <;> simp [found]
  · intro closure value captured found
    simp [captured, found]

/-- A closure over the global scope that gives its second parameter. -/
def secondParameter : Procedure := ⟨0, some ⟨["a", "b"], none, .identifier "b"⟩, some 0⟩

theorem secondParameter_unbound :
    (Eval.callProcedure (evalWithin 1) (some secondParameter) [numberedInteger 1]).outcome
      (State.initial none) = .error (.unbound "b") := by
  have unbound : (State.initial none).lookup? 0 "b" = none := by
    have global : (State.initial none).scopes[0]? = some { bindings := [] } := rfl
    rw [State.lookup?, State.lookupIn?_of_found global]
    rfl
  refine (missing_argument_unbound_iff 0 secondParameter _ rfl (by decide) [numberedInteger 1] 1 "b"
    rfl (Nat.le_refl 1) (by decide) rfl (State.initial none)).1.mpr ?_
  rintro closure captured
  cases captured
  exact unbound

/-- A global scope that binds `b` to 7. -/
def outerBinding : State :=
  { State.initial none with
    scopes := #[{ bindings := [("b", numberedInteger 7)] }]
    nextObject := 8 }

/-- A call without the second argument does not fail: it gives the 7 that is bound outside. -/
theorem secondParameter_taken_outside :
    secondParameter.parameters = ["a", "b"] ∧ secondParameter.restName? = none ∧
    (callProcedure (some secondParameter) [numberedInteger 1]).outcome outerBinding =
      .ok (numberedInteger 7) ∧
    (callProcedure (some secondParameter) [numberedInteger 1]).outcome outerBinding ≠
      .error (.unbound "b") := by
  have bound : outerBinding.lookup? 0 "b" = some (numberedInteger 7) := by
    have global : outerBinding.scopes[0]? = some { bindings := [("b", numberedInteger 7)] } := rfl
    rw [State.lookup?, State.lookupIn?_of_found global]
    rfl
  have taken : (callProcedure (some secondParameter) [numberedInteger 1]).outcome outerBinding =
      .ok (numberedInteger 7) := by
    have outcome := missing_argument_outcome (nestingLimit - 1) secondParameter rfl (by decide)
      [numberedInteger 1] rfl (Nat.le_refl 1) (by decide) rfl outerBinding
    have captured : secondParameter.scope = some 0 := rfl
    rw [captured, Option.bind_some, bound] at outcome
    exact outcome
  refine ⟨rfl, rfl, taken, fun failed => ?_⟩
  rw [taken] at failed
  cases failed

end Smpl

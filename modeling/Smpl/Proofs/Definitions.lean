import Smpl.Proofs.CallScopes
import Smpl.Proofs.VectorSlots

/-!
# Definitions bind all or nothing

A definition first evaluates its parts, and then binds its names or writes its slot. Which parts are
evaluated before which check depends on its form:
* names and values in equal number: the numbers are compared first, then all values are evaluated;
* several names and one value: the value is evaluated, and then it must be a list;
* a slot: there must be one value; then the index is evaluated and the slot looked for, and then the
  value is evaluated.

`Eval.Halts` lists the ways in which a definition can fail. In each of them the state is the one that
the parts evaluated so far have left (`Eval.Halts.left_by_parts`): the definition itself has bound no
name and written no slot.

If a definition of names succeeds, only its scope has changed since its values were evaluated, and
there its names have the new values (`Bindings.Overwritten`).

Main result: `definition_binds_all_or_nothing`.
-/

namespace Smpl

/-! ## Names that are bound anew -/

/-- Bindings in which names have been bound to values, as far as there are both. Of equal names the last
one counts, and every other name is as before. -/
structure Bindings.Overwritten (before after : Bindings) (names : List String)
    (values : List Value) : Prop where
  last : ∀ (i : Nat) (name : String) (value : Value), names[i]? = some name →
    values[i]? = some value → (∀ j < values.length, i < j → names[j]? ≠ some name) →
    after.get? name = some value
  other : ∀ name, (∀ i < values.length, names[i]? ≠ some name) →
    after.get? name = before.get? name

theorem Bindings.overwritten_putAll (names : List String) (values : List Value)
    (bindings : Bindings) : bindings.Overwritten (bindings.putAll names values) names values := by
  fun_induction putAll names values bindings with
  | case1 name names value values bindings ih =>
    constructor
    · intro i name' value' named given latest
      cases i with
      | zero =>
        -- The first name is not bound again later, so it keeps its value.
        cases named
        cases given
        rw [ih.other name fun j inside => ?_, get?_put, if_pos rfl]
        exact latest (j + 1) (Nat.succ_lt_succ inside) (Nat.succ_pos j)
      | succ i =>
        refine ih.last i name' value' named given fun j inside later => ?_
        exact latest (j + 1) (Nat.succ_lt_succ inside) (Nat.succ_lt_succ later)
    · intro name' absent
      rw [ih.other name' fun j inside => absent (j + 1) (Nat.succ_lt_succ inside), get?_put, if_neg]
      rintro rfl
      exact absent 0 (Nat.succ_pos _) rfl
  | case2 names values bindings ended =>
    constructor
    · intro i name value named given _
      cases names with
      | nil => cases named
      | cons first names =>
        cases values with
        | nil => cases given
        | cons given values => exact absurd rfl (ended _ _ _ _ rfl)
    · exact fun _ _ => rfl

/-- How a state differs from an earlier one after names have been bound in a scope: in the bindings of
this scope, and by one new object. -/
structure State.Defined (before after : State) (env : ScopeId) (names : List String)
    (values : List Value) : Prop where
  beside : after = { before with scopes := after.scopes, nextObject := before.nextObject + 1 }
  others : ∀ k, k ≠ env → after.scopes[k]? = before.scopes[k]?
  own : ∀ scope, before.scopes[env]? = some scope →
    ∃ bindings, after.scopes[env]? = some { scope with bindings := bindings } ∧
      scope.bindings.Overwritten bindings names values

theorem State.defined_putAll (s : State) (env : ScopeId) (names : List String)
    (values : List Value) :
    s.Defined { s.putAll env names values with nextObject := s.nextObject + 1 } env names values where
  beside := rfl
  others := fun k other => by
    show (s.scopes.modify env _)[k]? = s.scopes[k]?
    rw [Array.getElem?_modify, if_neg (Ne.symm other)]
  own := fun scope found => by
    refine ⟨scope.bindings.putAll names values, ?_, Bindings.overwritten_putAll _ _ _⟩
    show (s.scopes.modify env _)[env]? = _
    rw [Array.getElem?_modify, if_pos rfl, found]
    rfl

/-- Whether a statement is a definition: of names or of a slot. -/
def Stmt.isDefinition : Stmt → Bool
  | .define _ _ => true
  | .assign _ _ _ => true
  | _ => false

namespace Eval

variable {eval : Evaluator} {env : ScopeId} {s t : State} {failure : Failure}

/-! ## Failures -/

theorem evalAll_fails_iff {es : List Expr} :
    evalAll eval env es s = .error failure t ↔
      ∃ before e after values s₁, es = before ++ e :: after ∧
        InTurn eval env before s values s₁ ∧ eval e env s₁ = .error failure t := by
  constructor
  · intro failed
    induction es generalizing s with
    | nil => cases failed
    | cons e rest ih =>
      rcases Machine.bind_eq_error.mp failed with here | ⟨v, s₁, first, later⟩
      · exact ⟨[], e, rest, [], s, rfl, .nil, here⟩
      · rcases Machine.bind_eq_error.mp later with there | ⟨_, _, _, ended⟩
        · obtain ⟨before, e', after, values, s₂, rfl, turn, last⟩ := ih there
          exact ⟨e :: before, e', after, v :: values, s₂, rfl, .cons first turn, last⟩
        · cases ended
  · rintro ⟨before, e, after, values, s₁, rfl, turn, last⟩
    exact evalAll_eq_error turn last

/-- The slot that an index stands for in the vector of a name, as things are in a state. -/
def slotIn (s : State) (env : ScopeId) (name : String) (index : Value) :
    Except Failure (VectorId × Nat) := do
  let position ← slotPosition index
  let target ← (s.lookup? env name).elim (.error (.unbound name)) .ok
  let id ← vectorOf "vector index" target
  let size := (s.vectors.slots id).size
  if position < 0 ∨ size ≤ position.toInt.toNat then .error (.slotBounds position size name)
  else .ok (id, position.toInt.toNat)

/-- A slot is looked for in the state that the index leaves. -/
theorem findSlot_run (eval : Evaluator) (name : String) (position : Expr) (env : ScopeId)
    (s : State) :
    findSlot eval name position env s =
      match eval position env s with
      | .ok index t =>
        match slotIn t env name index with
        | .ok found => .ok found t
        | .error failure => .error failure t
      | .error failure t => .error failure t := by
  simp only [findSlot, bind, EStateM.bind]
  cases eval position env s with
  | error failure t => rfl
  | ok index t =>
    simp only [slotIn, bind, Except.bind]
    cases slotPosition index with
    | error failure => rfl
    | ok p =>
      simp only [Machine.lift, pure, EStateM.pure, Machine.lookup_run]
      cases t.lookup? env name with
      | none => rfl
      | some target =>
        simp only [Option.elim]
        cases vectorOf "vector index" target with
        | error failure => rfl
        | ok id =>
          by_cases outside : p < 0 ∨ (t.vectors.slots id).size ≤ p.toInt.toNat
          · simp only [EStateM.pure, Machine.vectorSize_run, if_pos outside]
            rfl
          · simp only [EStateM.pure, Machine.vectorSize_run, if_neg outside]

/-- How a definition fails, and in which state. -/
inductive Halts (eval : Evaluator) (env : ScopeId) (s : State) : Stmt → Failure → State → Prop
  /-- Names and values differ in number. Nothing has been evaluated yet. -/
  | counts {names : List String} {values : List Expr} :
      names.length ≠ values.length → ¬(1 < names.length ∧ values.length = 1) →
      Halts eval env s (.define names values) (.arity .definition names.length values.length) s
  /-- A value fails, after those before it have been evaluated. -/
  | value {names : List String} {before after : List Expr} {e : Expr} {values : List Value}
      {s₁ t : State} {failure : Failure} :
      names.length = (before ++ e :: after).length ∨
        1 < names.length ∧ (before ++ e :: after).length = 1 →
      InTurn eval env before s values s₁ → eval e env s₁ = .error failure t →
      Halts eval env s (.define names (before ++ e :: after)) failure t
  /-- The one value for several names is no list. -/
  | noList {names : List String} {value : Expr} {v : Value} {t : State} :
      1 < names.length → eval value env s = .ok v t → v.isListLike = false →
      Halts eval env s (.define names [value]) (.arity .definition names.length 1) t
  /-- A slot takes one value. Nothing has been evaluated yet. -/
  | slotCount {name : String} {position : Expr} {values : List Expr} :
      values.length ≠ 1 →
      Halts eval env s (.assign name position values) (.arity .slotAssignment 1 values.length) s
  /-- The index fails. -/
  | index {name : String} {position value : Expr} {t : State} {failure : Failure} :
      eval position env s = .error failure t →
      Halts eval env s (.assign name position [value]) failure t
  /-- There is no such slot once the index has been evaluated. -/
  | noSlot {name : String} {position value : Expr} {index : Value} {t : State}
      {failure : Failure} :
      eval position env s = .ok index t → slotIn t env name index = .error failure →
      Halts eval env s (.assign name position [value]) failure t
  /-- There is a slot, and the value for it fails. -/
  | slotValue {name : String} {position value : Expr} {index : Value} {found : VectorId × Nat}
      {s₁ t : State} {failure : Failure} :
      eval position env s = .ok index s₁ → slotIn s₁ env name index = .ok found →
      eval value env s₁ = .error failure t →
      Halts eval env s (.assign name position [value]) failure t

/-- A definition that fails has done no more than evaluate some of its parts. -/
theorem Halts.left_by_parts {d : Stmt} (h : Halts eval env s d failure t) :
    ∃ evaluated, evaluated <+: d.parts ∧ (evalAll eval env evaluated).after s = t := by
  cases h with
  | counts _ _ => exact ⟨[], List.nil_prefix, rfl⟩
  | @value _ before after e _ _ _ _ _ turn failed =>
    refine ⟨before ++ [e], ⟨after, by simp [Stmt.parts]⟩, ?_⟩
    exact Machine.after_of_error (evalAll_eq_error turn failed)
  | @noList _ value _ _ _ run _ =>
    have turn : InTurn eval env [value] s _ t := .cons run .nil
    exact ⟨[value], List.prefix_refl _, Machine.after_of_ok (evalAll_eq_ok.mpr turn)⟩
  | slotCount _ => exact ⟨[], List.nil_prefix, rfl⟩
  | @index _ position _ _ _ failed =>
    have first : evalAll eval env ([] ++ [position]) s = .error failure t :=
      evalAll_eq_error .nil failed
    exact ⟨[position], ⟨_, rfl⟩, Machine.after_of_error first⟩
  | @noSlot _ position _ _ _ _ run _ =>
    have turn : InTurn eval env [position] s _ t := .cons run .nil
    exact ⟨[position], ⟨_, rfl⟩, Machine.after_of_ok (evalAll_eq_ok.mpr turn)⟩
  | @slotValue _ position value _ _ _ _ _ run _ failed =>
    have second : evalAll eval env ([position] ++ [value]) s = .error failure t :=
      evalAll_eq_error (.cons run .nil) failed
    exact ⟨[position, value], List.prefix_refl _, Machine.after_of_error second⟩

/-! ## Definitions of names -/

section Names

variable {names : List String}

theorem defineNames_several (several : 1 < names.length) (value : Expr) :
    defineNames eval env names [value] = (do
      let v ← eval value env
      if v.isListLike then Machine.putAll env names (spine v)
      else throw (.arity .definition names.length 1)) := by
  match names, several with
  | _ :: _ :: _, _ => rfl

theorem defineNames_each {values : List Expr} (each : ¬(1 < names.length ∧ values.length = 1)) :
    defineNames eval env names values =
      if names.length = values.length then do
        let vs ← evalAll eval env values
        Machine.putAll env names vs
      else throw (.arity .definition names.length values.length) := by
  unfold defineNames
  split
  · exact absurd ⟨Nat.succ_lt_succ (Nat.succ_pos _), rfl⟩ each
  · rfl

theorem halts_of_defineNames {values : List Expr}
    (failed : defineNames eval env names values s = .error failure t) :
    Halts eval env s (.define names values) failure t := by
  by_cases several : 1 < names.length ∧ values.length = 1
  · obtain ⟨value, rfl⟩ := List.length_eq_one_iff.mp several.2
    rw [defineNames_several several.1] at failed
    rcases Machine.bind_eq_error.mp failed with here | ⟨v, s₁, run, later⟩
    · have only : Halts eval env s (.define names ([] ++ [value])) failure t :=
        .value (.inr several) .nil here
      exact only
    · split at later
      · cases later
      · next other =>
        cases later
        exact .noList several.1 run (Bool.eq_false_iff.mpr other)
  · rw [defineNames_each several] at failed
    split at failed
    · next same =>
      rcases Machine.bind_eq_error.mp failed with here | ⟨_, _, _, never⟩
      · obtain ⟨before, e, after, vs, s₁, rfl, turn, last⟩ := evalAll_fails_iff.mp here
        exact .value (.inl same) turn last
      · cases never
    · next differ =>
      cases failed
      exact .counts differ several

theorem Halts.defineNames {values : List Expr}
    (h : Halts eval env s (.define names values) failure t) :
    Eval.defineNames eval env names values s = .error failure t := by
  cases h with
  | counts differ several =>
    rw [defineNames_each several, if_neg differ]
    rfl
  | @value _ before after e _ _ _ _ counted turn last =>
    by_cases several : 1 < names.length ∧ (before ++ e :: after).length = 1
    · have only : before = [] ∧ after = [] := by
        have := several.2
        simp only [List.length_append, List.length_cons] at this
        exact ⟨List.length_eq_zero_iff.mp (by omega), List.length_eq_zero_iff.mp (by omega)⟩
      obtain ⟨rfl, rfl⟩ := only
      cases turn
      rw [List.nil_append, defineNames_several several.1]
      exact Machine.bind_eq_error.mpr (.inl last)
    · rw [defineNames_each several, if_pos (counted.resolve_right several)]
      exact Machine.bind_eq_error.mpr (.inl (evalAll_eq_error turn last))
  | noList several run other =>
    rw [defineNames_several several]
    refine Machine.bind_eq_error.mpr (.inr ⟨_, _, run, ?_⟩)
    rw [if_neg (Bool.eq_false_iff.mp other)]
    rfl

theorem define_eq_ok {values : List Expr} {r : Value} :
    statement eval env (.define names values) s = .ok r t ↔
      ∃ t₁, defineNames eval env names values s = .ok () t₁ ∧
        r = .scalar t₁.nextObject (.boolean true) ∧
        t = { t₁ with nextObject := t₁.nextObject + 1 } := by
  constructor
  · intro run
    obtain ⟨_, t₁, defined, made⟩ := Machine.bind_eq_ok.mp run
    cases made
    exact ⟨t₁, defined, rfl, rfl⟩
  · rintro ⟨t₁, defined, rfl, rfl⟩
    exact Machine.bind_eq_ok.mpr ⟨(), t₁, defined, rfl⟩

/-- A definition with a value for each name that succeeds. -/
theorem define_each_binds {values : List Expr} {r : Value}
    (each : ¬(1 < names.length ∧ values.length = 1))
    (run : statement eval env (.define names values) s = .ok r t) :
    names.length = values.length ∧ ∃ vs t₁, InTurn eval env values s vs t₁ ∧
      r = .scalar t₁.nextObject (.boolean true) ∧ t₁.Defined t env names vs := by
  obtain ⟨t₂, defined, rfl, rfl⟩ := define_eq_ok.mp run
  rw [defineNames_each each] at defined
  split at defined
  · next same =>
    obtain ⟨vs, t₁, evaluated, bound⟩ := Machine.bind_eq_ok.mp defined
    cases bound
    exact ⟨same, vs, t₁, evalAll_eq_ok.mp evaluated, rfl, t₁.defined_putAll env names vs⟩
  · cases defined

/-- A definition of several names by one list that succeeds. -/
theorem define_several_binds {value : Expr} {r : Value} (several : 1 < names.length)
    (run : statement eval env (.define names [value]) s = .ok r t) :
    ∃ v t₁, eval value env s = .ok v t₁ ∧ v.isListLike = true ∧
      r = .scalar t₁.nextObject (.boolean true) ∧ t₁.Defined t env names (spine v) := by
  obtain ⟨t₂, defined, rfl, rfl⟩ := define_eq_ok.mp run
  rw [defineNames_several several] at defined
  obtain ⟨v, t₁, evaluated, bound⟩ := Machine.bind_eq_ok.mp defined
  split at bound
  · next list =>
    cases bound
    exact ⟨v, t₁, evaluated, list, rfl, t₁.defined_putAll env names (spine v)⟩
  · cases bound

theorem spine_of_elements {v : Value} {elements : List Value} (h : v.elements = .ok elements) :
    spine v = elements := by
  induction v generalizing elements with
  | empty =>
    cases h
    rfl
  | cell _ head tail _ ih =>
    rw [Value.elements] at h
    cases rest : tail.elements with
    | ok others =>
      rw [rest] at h
      cases h
      rw [spine, ih rest]
    | error other =>
      rw [rest] at h
      cases h
  | _ => cases h

end Names

/-! ## Assignments to slots -/

section Slots

variable {name : String} {position : Expr} {values : List Expr}

theorem halts_of_assignSlot {bound : Nat}
    (failed : assignSlot (evalWithin bound) env name position values s = .error failure t) :
    Halts (evalWithin bound) env s (.assign name position values) failure t := by
  unfold assignSlot at failed
  split at failed
  · next value =>
    rcases Machine.bind_eq_error.mp failed with unfound | ⟨⟨id, i⟩, s₁, found, later⟩
    · rw [findSlot_run] at unfound
      split at unfound
      · next index s₁ run =>
        split at unfound
        · cases unfound
        · next absent =>
          cases unfound
          exact .noSlot run absent
      · next run =>
        cases unfound
        exact .index run
    · obtain ⟨_, _, _, _, _, _, _, inside⟩ := findSlot_eq_ok.mp found
      rw [findSlot_run] at found
      split at found
      · next index s₂ run =>
        split at found
        · next present =>
          cases found
          rcases Machine.bind_eq_error.mp later with here | ⟨v, s₃, evaluated, unwritten⟩
          · exact .slotValue run present here
          · -- The slot is still there when the value has been evaluated.
            rw [Machine.setSlot_run, if_pos (slot_outlasts bound evaluated inside)] at unwritten
            cases unwritten
        · cases found
      · cases found
  · next several =>
    cases failed
    refine .slotCount fun single => ?_
    obtain ⟨value, rfl⟩ := List.length_eq_one_iff.mp single
    exact several value rfl

theorem Halts.assignSlot (h : Halts eval env s (.assign name position values) failure t) :
    Eval.assignSlot eval env name position values s = .error failure t := by
  cases h with
  | slotCount several =>
    unfold Eval.assignSlot
    split
    · exact absurd rfl several
    · rfl
  | index failed =>
    refine Machine.bind_eq_error.mpr (.inl ?_)
    rw [findSlot_run, failed]
  | noSlot run absent =>
    refine Machine.bind_eq_error.mpr (.inl ?_)
    rw [findSlot_run, run]
    simp only [absent]
  | @slotValue _ _ _ _ found s₁ _ _ run present failed =>
    have located : findSlot eval name position env s = .ok found s₁ := by
      rw [findSlot_run, run]
      simp only [present]
    exact Machine.bind_eq_error.mpr
      (.inr ⟨found, s₁, located, Machine.bind_eq_error.mpr (.inl failed)⟩)

end Slots

/-! ## Both forms -/

/-- Making the value that a definition has never fails. -/
theorem marked_eq_error {m : Machine Unit} {contents : Scalar} :
    (do m; Machine.newScalar contents) s = .error failure t ↔ m s = .error failure t := by
  refine Machine.bind_eq_error.trans ⟨?_, .inl⟩
  rintro (failed | ⟨_, _, _, never⟩)
  · exact failed
  · cases never

theorem definition_fails_iff {bound : Nat} {d : Stmt} (definition : d.isDefinition = true) :
    statement (evalWithin bound) env d s = .error failure t ↔
      Halts (evalWithin bound) env s d failure t := by
  cases d with
  | define names values => exact marked_eq_error.trans ⟨halts_of_defineNames, Halts.defineNames⟩
  | assign name position values =>
    exact marked_eq_error.trans ⟨halts_of_assignSlot, Halts.assignSlot⟩
  | print value terminator => cases definition
  | eval e => cases definition

end Eval

/-- A definition fails exactly in the ways of `Eval.Halts`, and then the state is the one that its parts
have left, as far as they were evaluated. Numbers that do not fit are among these ways, with nothing
evaluated.

A definition with a value for each name that succeeds has evaluated the values in order, and then bound
each name to its value; of equal names the last one counts. A definition of several names by one list
has evaluated the list, and then bound the names that there are elements for. All other bindings, all
other scopes and all that is beside the scopes stay as the values have left them. -/
theorem definition_binds_all_or_nothing (bound : Nat) (env : ScopeId) (s : State) :
    (∀ d failure t, d.isDefinition = true →
      (Eval.statement (evalWithin bound) env d s = .error failure t ↔
        Eval.Halts (evalWithin bound) env s d failure t)) ∧
    (∀ d failure t, Eval.Halts (evalWithin bound) env s d failure t →
      ∃ evaluated, evaluated <+: d.parts ∧
        (Eval.evalAll (evalWithin bound) env evaluated).after s = t) ∧
    (∀ names values r t, ¬(1 < names.length ∧ values.length = 1) →
      Eval.statement (evalWithin bound) env (.define names values) s = .ok r t →
      names.length = values.length ∧
        ∃ vs t₁, Eval.InTurn (evalWithin bound) env values s vs t₁ ∧
          r = .scalar t₁.nextObject (.boolean true) ∧ t₁.Defined t env names vs) ∧
    (∀ names value r t, 1 < names.length →
      Eval.statement (evalWithin bound) env (.define names [value]) s = .ok r t →
      ∃ v t₁, evalWithin bound value env s = .ok v t₁ ∧ v.isListLike = true ∧
        r = .scalar t₁.nextObject (.boolean true) ∧ t₁.Defined t env names (Eval.spine v) ∧
        ∀ elements, v.elements = .ok elements → Eval.spine v = elements) := by
  refine ⟨fun d failure t => Eval.definition_fails_iff, fun d failure t => Eval.Halts.left_by_parts,
    fun names values r t => Eval.define_each_binds, fun names value r t several run => ?_⟩
  obtain ⟨v, t₁, evaluated, list, marker, defined⟩ := Eval.define_several_binds several run
  exact ⟨v, t₁, evaluated, list, marker, defined, fun _ => Eval.spine_of_elements⟩

/-- A value that binds `x` itself, and then one that fails. -/
def failingDefinition : Stmt :=
  .define ["x", "y"] [.define "x" (.literal (.integer 1)), .missing]

/-- The state in which `failingDefinition` fails: `x` has been bound by the first value. -/
def boundByValue : State :=
  { State.initial none with
    scopes := #[{ bindings := [("x", .scalar 1 (.integer 1))] }]
    nextObject := 2 }

/-- The failing definition leaves what its first value has left. Of a name that is defined twice the
second value counts, and a list with one element leaves the second name unbound. -/
theorem failingDefinition_binds_nothing :
    Eval.statement (evalWithin 2) 0 failingDefinition (State.initial none) =
      .error .missingNode boundByValue ∧
    (∃ evaluated, evaluated <+: failingDefinition.parts ∧
      (Eval.evalAll (evalWithin 2) 0 evaluated).after (State.initial none) = boundByValue) ∧
    (∃ scope, ((Eval.statement (evalWithin 2) 0
        (.define ["x", "x"] [.literal (.integer 1), .literal (.integer 2)])).after
          (State.initial none)).scopes[0]? = some scope ∧
      scope.bindings.get? "x" = some (.scalar 2 (.integer 2))) ∧
    (∃ scope, ((Eval.statement (evalWithin 2) 0
        (.define ["x", "y"] [.list [.literal (.integer 1)]])).after
          (State.initial none)).scopes[0]? = some scope ∧
      scope.bindings.get? "x" = some (.scalar 1 (.integer 1)) ∧
      scope.bindings.get? "y" = none) := by
  obtain ⟨fails, leaves, each, several⟩ :=
    definition_binds_all_or_nothing 2 0 (State.initial none)
  have failed : Eval.statement (evalWithin 2) 0 failingDefinition (State.initial none) =
      .error .missingNode boundByValue := rfl
  refine ⟨failed, leaves _ _ _ ((fails _ _ _ rfl).mp failed), ?_, ?_⟩
  · obtain ⟨_, vs, t₁, turn, _, defined⟩ := each ["x", "x"] [.literal (.integer 1),
      .literal (.integer 2)] _ _ (by decide) rfl
    cases turn with
    | cons first rest =>
      cases first
      cases rest with
      | cons second rest =>
        cases second
        cases rest
        obtain ⟨bindings, found, overwritten⟩ := defined.own { } rfl
        exact ⟨_, found, overwritten.last 1 "x" _ rfl rfl (by decide)⟩
  · obtain ⟨v, t₁, run, _, _, defined, _⟩ := several ["x", "y"] (.list [.literal (.integer 1)]) _ _
      (by decide) rfl
    cases run
    obtain ⟨bindings, found, overwritten⟩ := defined.own { } rfl
    exact ⟨_, found, overwritten.last 0 "x" _ rfl rfl (by decide), overwritten.other "y" (by decide)⟩

end Smpl

import Smpl.Console
import Smpl.Log
import Smpl.Value.Failure

/-!
# The state of a run

A run has scopes, vectors, a register, perhaps a console, the text printed so far and its log.
* A scope is a table of bindings, a link to its parent and the slot of its lazy expressions. A scope
  is made after its parent, so a parent has a smaller number; scope `0` is the global one.
* Objects are numbered as they are made; `nextObject` is the next number.
* The register holds the value of the last statement; a conditional that falls through gives it.

Nothing is ever removed: scopes and vectors are only added or changed in place.
-/

namespace Smpl

/-- The bindings of one scope. -/
abbrev Bindings := List (String × Value)

/-- Binds a name, in place of its earlier binding if it has one. -/
def Bindings.put (name : String) (value : Value) : Bindings → Bindings
  | [] => [(name, value)]
  | (key, old) :: rest =>
    if key = name then (name, value) :: rest else (key, old) :: Bindings.put name value rest

/-- The value bound to a name. -/
def Bindings.get? (name : String) : Bindings → Option Value
  | [] => none
  | (key, value) :: rest => if key = name then some value else Bindings.get? name rest

/-- Binds names to values in order; a later name wins over an equal earlier one. -/
def Bindings.putAll : List String → List Value → Bindings → Bindings
  | name :: names, value :: values, bindings => putAll names values (bindings.put name value)
  | _, _, bindings => bindings

namespace Bindings

theorem mem_put {name : String} {value : Value} {bindings : Bindings} {b : String × Value}
    (h : b ∈ bindings.put name value) : b = (name, value) ∨ b ∈ bindings := by
  induction bindings with
  | nil => exact .inl (List.mem_singleton.mp h)
  | cons first rest ih =>
    simp only [put] at h
    split at h
    · rcases List.mem_cons.mp h with new | old
      · exact .inl new
      · exact .inr (List.mem_cons_of_mem _ old)
    · rcases List.mem_cons.mp h with rfl | later
      · exact .inr List.mem_cons_self
      · exact (ih later).imp id (List.mem_cons_of_mem _)

/-- Every value that is bound after `putAll` was given to it or was bound before. -/
theorem mem_putAll {names : List String} {values : List Value} {bindings : Bindings}
    {b : String × Value} (h : b ∈ bindings.putAll names values) : b.2 ∈ values ∨ b ∈ bindings := by
  fun_induction putAll names values bindings with
  | case1 name names value values bindings ih =>
    rcases ih h with given | old
    · exact .inl (List.mem_cons_of_mem _ given)
    · rcases mem_put old with rfl | old
      · exact .inl List.mem_cons_self
      · exact .inr old
  | case2 => exact .inr h

theorem mem_of_get? {name : String} {value : Value} {bindings : Bindings}
    (h : bindings.get? name = some value) : (name, value) ∈ bindings := by
  induction bindings with
  | nil => cases h
  | cons first rest ih =>
    simp only [get?] at h
    split at h
    · next same =>
      cases h
      cases same
      exact List.mem_cons_self
    · exact List.mem_cons_of_mem _ (ih h)

theorem get?_put (name other : String) (value : Value) (bindings : Bindings) :
    (bindings.put name value).get? other = if name = other then some value else bindings.get? other := by
  induction bindings with
  | nil => rfl
  | cons first rest ih =>
    obtain ⟨key, old⟩ := first
    by_cases same : key = name
    · subst same
      by_cases here : key = other
      · simp [put, get?, here]
      · simp [put, get?, here]
    · by_cases here : key = other
      · subst here
        simp [put, get?, same, Ne.symm same]
      · simp [put, get?, same, here, ih]

/-- A name that has a value after `putAll` was given it or had it before. -/
theorem get?_putAll {names : List String} {values : List Value} {bindings : Bindings}
    {name : String} {value : Value} (h : (bindings.putAll names values).get? name = some value) :
    value ∈ values ∨ bindings.get? name = some value := by
  fun_induction putAll names values bindings with
  | case1 key keys given values bindings ih =>
    rcases ih h with later | old
    · exact .inl (List.mem_cons_of_mem _ later)
    · rw [get?_put] at old
      split at old
      · cases old
        exact .inl List.mem_cons_self
      · exact .inr old
  | case2 => exact .inr h

theorem get?_putAll_congr {names : List String} {values : List Value} {a b : Bindings}
    (same : ∀ name, a.get? name = b.get? name) (name : String) :
    (a.putAll names values).get? name = (b.putAll names values).get? name := by
  induction names generalizing values a b with
  | nil => exact same name
  | cons key keys ih =>
    cases values with
    | nil => exact same name
    | cons value values =>
      refine ih fun other => ?_
      rw [get?_put, get?_put, same other]

end Bindings

/-- A scope. -/
structure Scope where
  bindings : Bindings := []
  parent : Option ScopeId := none
  memo : Option Value := none
  deriving Inhabited

/-- Binds a name in a scope. -/
def Scope.put (s : Scope) (name : String) (value : Value) : Scope :=
  { s with bindings := s.bindings.put name value }

/-- Fills the slot of the lazy expressions; no value empties it. -/
def Scope.setMemo (s : Scope) (value : Value) : Scope :=
  { s with memo := match value with | .nothing => none | v => some v }

/-- The state of a run. -/
structure State where
  scopes : Array Scope
  vectors : Vectors
  nextObject : ObjectId
  register : Value
  console : Option Console
  output : String
  log : Array LogLine
  deriving Inhabited

namespace State

/-- The global scope. -/
def global : ScopeId := 0

/-- The state before a run: an empty global scope, and an integer zero in the register. -/
def initial (console : Option Console) : State where
  scopes := #[{}]
  vectors := #[]
  nextObject := 1
  register := .scalar 0 (.integer 0)
  console := console
  output := ""
  log := #[]

/-- The value of a name in a scope or the nearest enclosing one that binds it. -/
def lookupIn? (scopes : Array Scope) (name : String) (env : ScopeId) : Option Value :=
  match scopes[env]? with
  | none => none
  | some scope =>
    match scope.bindings.get? name with
    | some value => some value
    | none =>
      match scope.parent with
      | none => none
      | some parent => if parent < env then lookupIn? scopes name parent else none
termination_by env

theorem lookupIn?_of_found {scopes : Array Scope} {env : ScopeId} {scope : Scope}
    (found : scopes[env]? = some scope) (name : String) :
    lookupIn? scopes name env =
      match scope.bindings.get? name with
      | some value => some value
      | none =>
        match scope.parent with
        | none => none
        | some parent => if parent < env then lookupIn? scopes name parent else none := by
  rw [lookupIn?, found]

/-- The value of a name in a scope or the nearest enclosing one that binds it. -/
def lookup? (s : State) (env : ScopeId) (name : String) : Option Value :=
  lookupIn? s.scopes name env

/-- The memo of a scope. -/
def memo? (s : State) (env : ScopeId) : Option Value :=
  match s.scopes[env]? with
  | some scope => scope.memo
  | none => none

/-- Binds a name in one scope. -/
def put (env : ScopeId) (name : String) (value : Value) (s : State) : State :=
  { s with scopes := s.scopes.modify env (·.put name value) }

/-- Binds names to values in one scope, in order. -/
def putAll (env : ScopeId) (names : List String) (values : List Value) (s : State) : State :=
  { s with
    scopes := s.scopes.modify env fun scope =>
      { scope with bindings := scope.bindings.putAll names values } }

/-- Sets the memo of one scope. -/
def setMemo (env : ScopeId) (value : Value) (s : State) : State :=
  { s with scopes := s.scopes.modify env (·.setMemo value) }

/-- Overwrites one slot of one vector. -/
def setSlot (id : VectorId) (position : Nat) (value : Value) (s : State) : State :=
  { s with vectors := s.vectors.modify id (·.setIfInBounds position value) }

end State

end Smpl

import Smpl.Machine.State
import Smpl.Value.Format
import Smpl.Value.Operators

/-!
# Machines

A machine reads and changes the state of a run and ends in a value or a failure. The state survives
a failure: what was printed, bound and read before it stays.

This module has the elementary machines, one for each thing that can be done to a state.
-/

namespace Smpl

/-- A step of a run. -/
abbrev Machine := EStateM Failure State

namespace Machine

/-- Ends with the outcome of a pure operation. -/
def lift {α : Type} : Except Failure α → Machine α
  | .ok a => pure a
  | .error e => throw e

/-- The first number of some new objects; the others follow it. -/
def newObjects (count : Nat) : Machine ObjectId :=
  modifyGet fun s => (s.nextObject, { s with nextObject := s.nextObject + count })

/-- The number of a new object. -/
def newObject : Machine ObjectId := newObjects 1

/-- A new value without parts. -/
def newScalar (contents : Scalar) : Machine Value := do
  let id ← newObject
  pure (.scalar id contents)

/-- A new list of some values. -/
def newList (values : List Value) : Machine Value := do
  let id ← newObjects values.length
  pure (Value.listFrom id values)

/-- A new pair, or a list when the tail is one. -/
def newCons (head tail : Value) : Machine Value := do
  let id ← newObject
  pure (Value.cons id head tail)

/-- A new vector. -/
def newVector (slots : Array Value) : Machine Value :=
  modifyGet fun s => (.vector s.vectors.size, { s with vectors := s.vectors.push slots })

/-- A new scope under a parent that binds names to values, which must be as many. -/
def newScope (names : List String) (values : List Value) (parent : Option ScopeId) :
    Machine ScopeId :=
  if names.length = values.length then
    modifyGet fun s =>
      let scope := { bindings := Bindings.putAll names values [], parent := parent }
      (s.scopes.size, { s with scopes := s.scopes.push scope })
  else throw (.arity .scopeBindings names.length values.length)

/-- The value of a name. -/
def lookup (env : ScopeId) (name : String) : Machine Value := do
  match (← get).lookup? env name with
  | some value => pure value
  | none => throw (.unbound name)

/-- Binds a name in one scope. -/
def put (env : ScopeId) (name : String) (value : Value) : Machine Unit :=
  modify (State.put env name value)

/-- Binds names to values in one scope. -/
def putAll (env : ScopeId) (names : List String) (values : List Value) : Machine Unit :=
  modify (State.putAll env names values)

/-- The memo of a scope. -/
def memo? (env : ScopeId) : Machine (Option Value) := do
  pure ((← get).memo? env)

/-- Sets the memo of a scope. -/
def setMemo (env : ScopeId) (value : Value) : Machine Unit :=
  modify (State.setMemo env value)

/-- The number of slots of a vector. -/
def vectorSize (id : VectorId) : Machine Nat := do
  pure ((← get).vectors.slots id).size

/-- The value in one slot of one vector, which must have the slot. -/
def slot (id : VectorId) (position : Nat) : Machine Value := do
  match ((← get).vectors.slots id)[position]? with
  | some value => pure value
  | none => throw .outOfRange

/-- Overwrites one slot of one vector, which must have the slot. -/
def setSlot (id : VectorId) (position : Nat) (value : Value) : Machine Unit := do
  if position < ((← get).vectors.slots id).size then modify (State.setSlot id position value)
  else throw .outOfRange

/-- The value in the register. -/
def register : Machine Value := do
  pure (← get).register

/-- Puts a value into the register. -/
def setRegister (value : Value) : Machine Unit :=
  modify fun s => { s with register := value }

/-- Prints text. -/
def write (text : String) : Machine Unit :=
  modify fun s => { s with output := s.output ++ text }

/-- Adds a log line. -/
def note (level : LogLevel) (text : String) : Machine Unit :=
  modify fun s => { s with log := s.log.push ⟨level, text⟩ }

/-- The printed form of a value. -/
def format (value : Value) : Machine String := do
  pure (value.format (← get).vectors)

/-- The contents that the binary operator of a symbol gives. -/
def binary (symbol : String) (left right : Value) : Machine Scalar := do
  lift (applyBinary (← get).vectors symbol left right)

/-- Reads a line from the console. -/
def readLine : Machine String := do
  match (← get).console with
  | none => throw (.noConsole "read")
  | some console =>
    let (line, console') := console.readLine
    modify fun s => { s with console := some console' }
    match line with
    | some text => pure (String.ofList text)
    | none => throw (.endOfInput "read")

/-- Reads an integer from the console. -/
def readInteger : Machine Int64 := do
  match (← get).console with
  | none => throw (.noConsole "read-integer")
  | some console =>
    let (input, console') := console.readInteger
    modify fun s => { s with console := some console' }
    match input with
    | .value n => pure n
    | .rejected _ => throw (.wrongKind "read-integer" [.integer] (some .string))
    | .endOfInput => throw (.endOfInput "read-integer")

end Machine

end Smpl

import Smpl.Machine.Basic

/-!
# What the elementary machines do

One equation for each elementary machine: its value or failure, and the state after it. Before them
stand the facts about the store that invariants of it rest on: what holds of each value in the store
(`State.Each`) is kept by each kind of write, and holds of a value that is read.
-/

namespace Smpl

/-! ## Writing to the store -/

section Each

variable {α : Type} {items : Array α} {holds : Nat → α → Prop}

theorem each_push (each : ∀ (k : Nat) (a : α), items[k]? = some a → holds k a) {new : α}
    (last : holds items.size new) : ∀ (k : Nat) (a : α), (items.push new)[k]? = some a → holds k a := by
  intro k a found
  rw [Array.getElem?_push] at found
  split at found
  · next here =>
    cases found
    exact here ▸ last
  · exact each k a found

theorem each_modify (each : ∀ (k : Nat) (a : α), items[k]? = some a → holds k a) {i : Nat} {f : α → α}
    (kept : ∀ k a, holds k a → holds k (f a)) :
    ∀ (k : Nat) (a : α), (items.modify i f)[k]? = some a → holds k a := by
  intro k a found
  rw [Array.getElem?_modify] at found
  split at found
  · obtain ⟨old, foundOld, rfl⟩ := Option.map_eq_some_iff.mp found
    exact kept k old (each k old foundOld)
  · exact each k a found

theorem each_setIfInBounds {p : α → Prop} (each : ∀ a ∈ items, p a) {new : α} (holds : p new) (i : Nat) :
    ∀ a ∈ items.setIfInBounds i new, p a := by
  intro a member
  rcases Array.mem_or_eq_of_mem_setIfInBounds member with was | rfl
  · exact each a was
  · exact holds

end Each

/-! ## Reading the store -/

namespace State

variable {s : State} {v : Value}

/-- A value that a name has is bound to it in some scope. -/
theorem exists_binding {env : ScopeId} {name : String} (found : s.lookup? env name = some v) :
    ∃ (k : ScopeId) (scope : Scope), s.scopes[k]? = some scope ∧ (name, v) ∈ scope.bindings := by
  rw [lookup?] at found
  fun_induction lookupIn? s.scopes name env with
  | case1 => cases found
  | case2 env scope here value bound =>
    cases found
    exact ⟨env, scope, here, Bindings.mem_of_get? bound⟩
  | case3 => cases found
  | case4 _ _ _ _ _ _ _ ih => exact ih found
  | case5 => cases found

theorem exists_memo {env : ScopeId} (found : s.memo? env = some v) :
    ∃ scope, s.scopes[env]? = some scope ∧ v ∈ scope.memo := by
  unfold memo? at found
  split at found
  · next scope here => exact ⟨scope, here, found⟩
  · cases found

theorem exists_slot {id : VectorId} {i : Nat} (found : (s.vectors.slots id)[i]? = some v) :
    ∃ slots, s.vectors[id]? = some slots ∧ v ∈ slots := by
  rw [Vectors.slots, Array.getD_eq_getD_getElem?] at found
  cases here : s.vectors[id]? with
  | none => simp [here] at found
  | some slots =>
    rw [here, Option.getD_some] at found
    exact ⟨slots, rfl, Array.mem_of_getElem? found⟩

end State

/-! ## What holds of each value in the store -/

/-- The values of a scope satisfy something. -/
structure Scope.Each (holds : Value → Prop) (scope : Scope) : Prop where
  bindings : ∀ b ∈ scope.bindings, holds b.2
  memo : ∀ v ∈ scope.memo, holds v

namespace Scope.Each

variable {scope : Scope} {holds : Value → Prop}

theorem mono {holds' : Value → Prop} (h : scope.Each holds) (wider : ∀ v, holds v → holds' v) :
    scope.Each holds' :=
  ⟨fun b bound => wider b.2 (h.bindings b bound), fun v kept => wider v (h.memo v kept)⟩

theorem putAll (h : scope.Each holds) {names : List String} {values : List Value}
    (new : ∀ v ∈ values, holds v) :
    Scope.Each holds { scope with bindings := scope.bindings.putAll names values } := by
  refine ⟨fun b bound => ?_, h.memo⟩
  rcases Bindings.mem_putAll bound with given | was
  · exact new b.2 given
  · exact h.bindings b was

theorem setMemo (h : scope.Each holds) {v : Value} (new : holds v) :
    (scope.setMemo v).Each holds := by
  refine ⟨h.bindings, fun u kept => ?_⟩
  unfold Scope.setMemo at kept
  split at kept <;> cases kept
  exact new

/-- A new scope holds the values that it is made with. -/
theorem made {names : List String} {values : List Value} {parent : Option ScopeId}
    (new : ∀ v ∈ values, holds v) :
    Scope.Each holds ⟨Bindings.putAll names values [], parent, none⟩ := by
  have bare : Scope.Each holds ⟨[], parent, none⟩ := ⟨nofun, nofun⟩
  exact bare.putAll new

end Scope.Each

/-- The values in the scopes and in the vectors satisfy something. Nothing is said of the register. -/
structure State.Each (holds : Value → Prop) (s : State) : Prop where
  scopes : ∀ (k : ScopeId) (scope : Scope), s.scopes[k]? = some scope → scope.Each holds
  slots : ∀ (id : VectorId) (slots : Array Value), s.vectors[id]? = some slots →
    ∀ v ∈ slots, holds v

namespace State.Each

variable {s : State} {holds : Value → Prop}

theorem initial (console : Option Console) : (State.initial console).Each holds := by
  refine ⟨fun k scope found => ?_, by simp [State.initial]⟩
  cases k with
  | zero =>
    cases found
    exact ⟨nofun, nofun⟩
  | succ k => simp [State.initial] at found

theorem mono {holds' : Value → Prop} (h : s.Each holds) (wider : ∀ v, holds v → holds' v) :
    s.Each holds' where
  scopes k scope found := (h.scopes k scope found).mono wider
  slots id slots found v inside := wider v (h.slots id slots found v inside)

/-! ### Changes to a store -/

/-- A change to anything but the scopes and the vectors. -/
theorem of_store {s' : State} (h : s.Each holds) (scopes : s'.scopes = s.scopes)
    (vectors : s'.vectors = s.vectors) : s'.Each holds :=
  ⟨scopes ▸ h.scopes, vectors ▸ h.slots⟩

theorem pushScope (h : s.Each holds) {scope : Scope} (new : scope.Each holds) :
    State.Each holds { s with scopes := s.scopes.push scope } :=
  ⟨each_push h.scopes new, h.slots⟩

theorem modifyScope (h : s.Each holds) {env : ScopeId} {f : Scope → Scope}
    (kept : ∀ scope : Scope, scope.Each holds → (f scope).Each holds) :
    State.Each holds { s with scopes := s.scopes.modify env f } :=
  ⟨each_modify h.scopes fun _ => kept, h.slots⟩

theorem putAll (h : s.Each holds) {values : List Value} (new : ∀ v ∈ values, holds v)
    (env : ScopeId) (names : List String) : (s.putAll env names values).Each holds :=
  h.modifyScope fun _ old => old.putAll new

theorem setMemo (h : s.Each holds) {v : Value} (new : holds v) (env : ScopeId) :
    (s.setMemo env v).Each holds :=
  h.modifyScope fun _ old => old.setMemo new

theorem pushVector (h : s.Each holds) {slots : Array Value} (new : ∀ v ∈ slots, holds v) :
    State.Each holds { s with vectors := s.vectors.push slots } :=
  ⟨h.scopes, each_push h.slots new⟩

theorem setSlot (h : s.Each holds) {v : Value} (new : holds v) (id : VectorId) (i : Nat) :
    (s.setSlot id i v).Each holds :=
  ⟨h.scopes, each_modify h.slots fun _ _ old => each_setIfInBounds old new i⟩

/-! ### Reading a store -/

theorem lookup (h : s.Each holds) {env : ScopeId} {name : String} {v : Value}
    (found : s.lookup? env name = some v) : holds v := by
  obtain ⟨k, scope, here, bound⟩ := State.exists_binding found
  exact (h.scopes k scope here).bindings _ bound

theorem memo (h : s.Each holds) {env : ScopeId} {v : Value} (found : s.memo? env = some v) :
    holds v := by
  obtain ⟨scope, here, kept⟩ := State.exists_memo found
  exact (h.scopes env scope here).memo v kept

theorem slot (h : s.Each holds) {id : VectorId} {i : Nat} {v : Value}
    (found : (s.vectors.slots id)[i]? = some v) : holds v := by
  obtain ⟨slots, here, member⟩ := State.exists_slot found
  exact h.slots id slots here v member

end State.Each

namespace Machine

/-- The state that a machine leaves behind, whether it ends in a value or in a failure. -/
def after {α : Type} (m : Machine α) (s : State) : State :=
  match m s with
  | .ok _ s' => s'
  | .error _ s' => s'

theorem after_of_ok {α : Type} {m : Machine α} {s s' : State} {a : α} (run : m s = .ok a s') :
    m.after s = s' := by
  rw [after, run]

theorem after_of_error {α : Type} {m : Machine α} {s s' : State} {e : Failure}
    (run : m s = .error e s') : m.after s = s' := by
  rw [after, run]

/-- How a machine ends: with a value or with a failure. -/
def outcome {α : Type} (m : Machine α) (s : State) : Except Failure α :=
  match m s with
  | .ok a _ => .ok a
  | .error e _ => .error e

variable (s : State)

/-! ## Machines that succeed -/

theorem bind_eq_ok {α β : Type} {m : Machine α} {f : α → Machine β} {b : β} {s s' : State} :
    (m >>= f) s = .ok b s' ↔ ∃ a s₁, m s = .ok a s₁ ∧ f a s₁ = .ok b s' := by
  simp only [bind, EStateM.bind]
  constructor
  · intro h
    split at h
    · next a s₁ run => exact ⟨a, s₁, run, h⟩
    · cases h
  · rintro ⟨a, s₁, run, h⟩
    rw [run]
    exact h

theorem lift_eq_ok {α : Type} {x : Except Failure α} {a : α} {s s' : State} :
    lift x s = .ok a s' ↔ x = .ok a ∧ s' = s := by
  cases x with
  | ok b =>
    show EStateM.Result.ok b s = .ok a s' ↔ _
    simp [eq_comm]
  | error e =>
    show EStateM.Result.error e s = .ok a s' ↔ _
    simp

/-! ## Machines that fail -/

theorem bind_eq_error {α β : Type} {m : Machine α} {f : α → Machine β} {e : Failure}
    {s s' : State} :
    (m >>= f) s = .error e s' ↔
      m s = .error e s' ∨ ∃ a s₁, m s = .ok a s₁ ∧ f a s₁ = .error e s' := by
  simp only [bind, EStateM.bind]
  cases run : m s with
  | ok a s₁ =>
    constructor
    · exact fun failed => .inr ⟨a, s₁, rfl, failed⟩
    · rintro (failed | ⟨_, _, same, failed⟩)
      · cases failed
      · cases same
        exact failed
  | error e' s₁ => simp

/-! ## New objects -/

theorem newObjects_run (count : Nat) :
    newObjects count s = .ok s.nextObject { s with nextObject := s.nextObject + count } := rfl

theorem newVector_run (slots : Array Value) :
    newVector slots s = .ok (.vector s.vectors.size) { s with vectors := s.vectors.push slots } := rfl

theorem newScope_run {names : List String} {values : List Value} (parent : Option ScopeId)
    (same : names.length = values.length) :
    newScope names values parent s = .ok s.scopes.size
      { s with scopes := s.scopes.push ⟨Bindings.putAll names values [], parent, none⟩ } := by
  simp only [newScope, if_pos same]
  rfl

/-! ## Scopes -/

theorem lookup_run (env : ScopeId) (name : String) :
    lookup env name s =
      match s.lookup? env name with
      | some value => .ok value s
      | none => .error (.unbound name) s := by
  show (match s.lookup? env name with
    | some value => pure value
    | none => throw (.unbound name) : Machine Value) s = _
  cases s.lookup? env name <;> rfl

theorem lookup_eq_ok {env : ScopeId} {name : String} {v : Value} {s s' : State} :
    lookup env name s = .ok v s' ↔ s.lookup? env name = some v ∧ s' = s := by
  rw [lookup_run]
  cases s.lookup? env name with
  | some value => simp [eq_comm]
  | none => simp

theorem putAll_run (env : ScopeId) (names : List String) (values : List Value) :
    putAll env names values s = .ok () (s.putAll env names values) := rfl

theorem memo?_run (env : ScopeId) : memo? env s = .ok (s.memo? env) s := rfl

theorem setMemo_run (env : ScopeId) (value : Value) :
    setMemo env value s = .ok () (s.setMemo env value) := rfl

/-! ## Vectors -/

theorem vectorSize_run (id : VectorId) : vectorSize id s = .ok (s.vectors.slots id).size s := rfl

theorem slot_run (id : VectorId) (position : Nat) :
    slot id position s =
      match (s.vectors.slots id)[position]? with
      | some value => .ok value s
      | none => .error .outOfRange s := by
  show (match (s.vectors.slots id)[position]? with
    | some value => pure value
    | none => throw .outOfRange : Machine Value) s = _
  cases (s.vectors.slots id)[position]? <;> rfl

theorem setSlot_run (id : VectorId) (position : Nat) (value : Value) :
    setSlot id position value s =
      if position < (s.vectors.slots id).size then .ok () (s.setSlot id position value)
      else .error .outOfRange s := by
  show (if position < (s.vectors.slots id).size then modify (State.setSlot id position value)
    else throw .outOfRange : Machine Unit) s = _
  split <;> rfl

theorem binary_run (symbol : String) (left right : Value) :
    binary symbol left right s =
      match applyBinary s.vectors symbol left right with
      | .ok contents => .ok contents s
      | .error e => .error e s := by
  show lift (applyBinary s.vectors symbol left right) s = _
  cases applyBinary s.vectors symbol left right <;> rfl

theorem format_run (value : Value) : format value s = .ok (value.format s.vectors) s := rfl

/-! ## The register, the output and the log -/

theorem register_run : register s = .ok s.register s := rfl

theorem setRegister_run (value : Value) :
    setRegister value s = .ok () { s with register := value } := rfl

theorem write_run (text : String) :
    write text s = .ok () { s with output := s.output ++ text } := rfl

theorem note_run (level : LogLevel) (text : String) :
    note level text s = .ok () { s with log := s.log.push ⟨level, text⟩ } := rfl

/-! ## The console -/

theorem readLine_run :
    readLine s =
      match s.console with
      | none => .error (.noConsole "read") s
      | some console =>
        match console.readLine.1 with
        | some text => .ok (String.ofList text) { s with console := some console.readLine.2 }
        | none => .error (.endOfInput "read") { s with console := some console.readLine.2 } := by
  obtain ⟨scopes, vectors, nextObject, register, console, output, log⟩ := s
  cases console with
  | none => rfl
  | some console =>
    show (do
      modify fun s => { s with console := some console.readLine.2 }
      match console.readLine.1 with
      | some text => pure (String.ofList text)
      | none => throw (.endOfInput "read") : Machine String) _ = _
    dsimp only
    cases console.readLine.1 <;> rfl

theorem readInteger_run :
    readInteger s =
      match s.console with
      | none => .error (.noConsole "read-integer") s
      | some console =>
        match console.readInteger.1 with
        | .value n => .ok n { s with console := some console.readInteger.2 }
        | .rejected _ =>
          .error (.wrongKind "read-integer" [.integer] (some .string))
            { s with console := some console.readInteger.2 }
        | .endOfInput =>
          .error (.endOfInput "read-integer") { s with console := some console.readInteger.2 } := by
  obtain ⟨scopes, vectors, nextObject, register, console, output, log⟩ := s
  cases console with
  | none => rfl
  | some console =>
    show (do
      modify fun s => { s with console := some console.readInteger.2 }
      match console.readInteger.1 with
      | .value n => pure n
      | .rejected _ => throw (.wrongKind "read-integer" [.integer] (some .string))
      | .endOfInput => throw (.endOfInput "read-integer") : Machine Int64) _ = _
    dsimp only
    cases console.readInteger.1 <;> rfl

/-- Reading a line changes the console only. -/
theorem readLine_after : ∃ console, readLine.after s = { s with console := console } := by
  rw [after, readLine_run]
  cases s.console with
  | none => exact ⟨s.console, rfl⟩
  | some console =>
    refine ⟨some console.readLine.2, ?_⟩
    simp only []
    cases console.readLine.1 <;> rfl

/-- Reading an integer changes the console only. -/
theorem readInteger_after : ∃ console, readInteger.after s = { s with console := console } := by
  rw [after, readInteger_run]
  cases s.console with
  | none => exact ⟨s.console, rfl⟩
  | some console =>
    refine ⟨some console.readInteger.2, ?_⟩
    simp only []
    cases console.readInteger.1 <;> rfl

end Machine

end Smpl

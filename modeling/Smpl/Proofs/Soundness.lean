import Mathlib.Order.Basic
import Smpl.Machine.Run
import Smpl.Proofs.Evaluation
import Smpl.Proofs.Runs

/-!
# The store of a run

A run of complete programs keeps its store in order (`State.Sound`):
* every value in it is sound and refers only to scopes and vectors that exist;
* the global scope has no parent, and the parent of any other scope is older than the scope.

The store only grows (`Extent`): there come to be more scopes and more vectors, and a vector keeps
its number of slots. So what a value refers to goes on existing, and a slot that was found stays a
slot. Whether evaluation ends in a value or in a failure makes no difference to this, and the
failures are those that complete programs can run into.
-/

namespace Smpl

/-! ## Extents -/

/-- How far a store extends: the number of its scopes and the number of slots of each vector. -/
structure Extent where
  scopes : Nat
  lengths : List Nat

namespace Extent

instance : Preorder Extent where
  le x y := x.scopes ≤ y.scopes ∧ x.lengths <+: y.lengths
  le_refl _ := ⟨Nat.le_refl _, List.prefix_refl _⟩
  le_trans _ _ _ h₁ h₂ := ⟨Nat.le_trans h₁.1 h₂.1, h₁.2.trans h₂.2⟩

/-- The scopes and vectors that exist. -/
def region (x : Extent) : Region := ⟨fun k => k < x.scopes, fun id => id < x.lengths.length⟩

/-- A vector has a slot. -/
def HasSlot (x : Extent) (id : VectorId) (i : Nat) : Prop := ∃ n, x.lengths[id]? = some n ∧ i < n

theorem scope_mono {x y : Extent} (h : x ≤ y) {k : ScopeId} (hk : x.region.scope k) :
    y.region.scope k := Nat.lt_of_lt_of_le hk h.1

theorem vector_mono {x y : Extent} (h : x ≤ y) {id : VectorId} (hid : x.region.vector id) :
    y.region.vector id := Nat.lt_of_lt_of_le hid h.2.length_le

theorem slot_mono {x y : Extent} (h : x ≤ y) {id : VectorId} {i : Nat} (slot : x.HasSlot id i) :
    y.HasSlot id i := by
  obtain ⟨n, found, inside⟩ := slot
  obtain ⟨old, same⟩ := List.getElem?_eq_some_iff.mp found
  refine ⟨n, ?_, inside⟩
  rw [List.prefix_iff_getElem?.mp h.2 id old, same]

end Extent

/-- The extent of the store of a state. -/
def State.extent (s : State) : Extent := ⟨s.scopes.size, s.vectors.toList.map Array.size⟩

/-! ## The invariant -/

/-- A sound value whose scopes and vectors exist. -/
def Value.Valid (x : Extent) (v : Value) : Prop := v.Within x.region ∧ v.Sound

theorem Value.Valid.mono {x y : Extent} (h : x ≤ y) {v : Value} (valid : v.Valid x) : v.Valid y :=
  ⟨valid.1.mono (fun _ => Extent.scope_mono h) (fun _ => Extent.vector_mono h), valid.2⟩

/-- A parent is older than its scope; only the global scope has none. -/
def Linked (k : ScopeId) (parent : Option ScopeId) : Prop :=
  (k = State.global ∧ parent = none) ∨ ∃ p < k, parent = some p

/-- A store in order. -/
structure State.Sound (s : State) : Prop where
  started : 0 < s.scopes.size
  linked : ∀ (k : ScopeId) (scope : Scope), s.scopes[k]? = some scope → Linked k scope.parent
  stored : s.Each (Value.Valid s.extent)
  register : s.register.Valid s.extent

theorem State.sound_initial (console : Option Console) : (State.initial console).Sound where
  started := Nat.one_pos
  linked := by
    intro k scope found
    cases k with
    | zero =>
      cases found
      exact .inl ⟨rfl, rfl⟩
    | succ k => simp [State.initial] at found
  stored := .initial console
  register := ⟨trivial, trivial⟩

namespace State.Sound

variable {s : State}

/-- A change to anything but the store. -/
theorem of_store {s' : State} (h : s.Sound) (scopes : s'.scopes = s.scopes)
    (vectors : s'.vectors = s.vectors) (register : s'.register = s.register) : s'.Sound := by
  have extent : s'.extent = s.extent := by rw [State.extent, State.extent, scopes, vectors]
  refine ⟨?_, ?_, ?_, ?_⟩
  · rw [scopes]
    exact h.started
  · rw [scopes]
    exact h.linked
  · rw [extent]
    exact h.stored.of_store scopes vectors
  · rw [register, extent]
    exact h.register

theorem setRegister (h : s.Sound) {v : Value} (valid : v.Valid s.extent) :
    State.Sound { s with register := v } :=
  ⟨h.started, h.linked, h.stored.of_store rfl rfl, valid⟩

theorem extent_le_pushScope (scope : Scope) :
    s.extent ≤ State.extent { s with scopes := s.scopes.push scope } :=
  ⟨by simp [State.extent], List.prefix_refl _⟩

theorem pushScope (h : s.Sound) {scope : Scope} (valid : scope.Each (Value.Valid s.extent))
    (linked : Linked s.scopes.size scope.parent) :
    State.Sound { s with scopes := s.scopes.push scope } := by
  -- What was valid stays valid in the larger extent.
  have grows := extent_le_pushScope (s := s) scope
  exact ⟨by simp, each_push h.linked linked, (h.stored.pushScope valid).mono fun _ => .mono grows,
    h.register.mono grows⟩

/-- A scope is changed, but not its parent. -/
theorem modifyScope (h : s.Sound) {env : ScopeId} {f : Scope → Scope}
    (parent : ∀ scope : Scope, (f scope).parent = scope.parent)
    (valid : ∀ scope : Scope, scope.Each (Value.Valid s.extent) →
      (f scope).Each (Value.Valid s.extent)) :
    State.Sound { s with scopes := s.scopes.modify env f } := by
  have extent : State.extent { s with scopes := s.scopes.modify env f } = s.extent := by
    simp [State.extent]
  refine ⟨by simpa using h.started, ?_, ?_, ?_⟩
  · refine each_modify h.linked fun k scope linked => ?_
    rw [parent]
    exact linked
  · rw [extent]
    exact h.stored.modifyScope valid
  · rw [extent]
    exact h.register

theorem extent_le_pushVector (slots : Array Value) :
    s.extent ≤ State.extent { s with vectors := s.vectors.push slots } :=
  ⟨Nat.le_refl _, by simp [State.extent]⟩

theorem pushVector (h : s.Sound) {slots : Array Value} (valid : ∀ v ∈ slots, v.Valid s.extent) :
    State.Sound { s with vectors := s.vectors.push slots } := by
  have grows := extent_le_pushVector (s := s) slots
  exact ⟨h.started, h.linked, (h.stored.pushVector valid).mono fun _ => .mono grows,
    h.register.mono grows⟩

theorem setSlot (h : s.Sound) {v : Value} (valid : v.Valid s.extent) (id : VectorId) (i : Nat) :
    (s.setSlot id i v).Sound ∧ (s.setSlot id i v).extent = s.extent := by
  -- Overwriting a slot changes no length.
  have extent : (s.setSlot id i v).extent = s.extent := by
    have sizes : (s.vectors.modify id (·.setIfInBounds i v)).toList.map Array.size =
        s.vectors.toList.map Array.size := by
      apply List.ext_getElem?
      intro k
      simp only [List.getElem?_map, Array.getElem?_toList, Array.getElem?_modify]
      split
      · cases s.vectors[k]? <;> simp
      · rfl
    rw [State.extent, State.extent, State.setSlot, sizes]
  refine ⟨⟨h.started, h.linked, ?_, ?_⟩, extent⟩
  · rw [extent]
    exact h.stored.setSlot valid id i
  · rw [extent]
    exact h.register

theorem hasSlot_iff (s : State) (id : VectorId) (i : Nat) :
    s.extent.HasSlot id i ↔ i < (s.vectors.slots id).size := by
  rw [Extent.HasSlot, Vectors.slots, Array.getD_eq_getD_getElem?, State.extent]
  cases here : s.vectors[id]? with
  | none => simp [here]
  | some slots => simp [here]

end State.Sound

/-! ## The judgement -/

/-- Machines that keep a store in order. -/
def storing : Judgement Extent where
  strict := True
  region := Extent.region
  Writable := fun x env => env < x.scopes
  HasSlot := Extent.HasSlot
  Holds := Machine.Keeps (fun x s => x = s.extent ∧ s.Sound) True

namespace Storing

variable {x : Extent} {α : Type} {m : Machine α} {Q : Extent → α → Prop}

theorem admits_iff {v : Value} : storing.Admits x v ↔ v.Valid x :=
  ⟨fun h => ⟨h.within, h.sound trivial⟩, fun h => ⟨h.1, fun _ => h.2, False.elim, v.numbered_all⟩⟩

/-- A machine that does not fail. -/
theorem holds_of_ok {value : State → α} {next : State → State}
    (run : ∀ s, m s = .ok (value s) (next s))
    (h : ∀ s, x = s.extent → s.Sound →
      s.extent ≤ (next s).extent ∧ (next s).Sound ∧ Q (next s).extent (value s)) :
    storing.Holds x m Q := by
  refine ⟨fun s kept => ?_⟩
  obtain ⟨rfl, sound⟩ := kept
  obtain ⟨grows, sound', holds⟩ := h s rfl sound
  rw [run]
  exact ⟨_, grows, ⟨rfl, sound'⟩, holds⟩

/-- A machine that leaves the store alone. -/
theorem holds_of_store {value : State → α} {next : State → State}
    (run : ∀ s, m s = .ok (value s) (next s))
    (same : ∀ s, (next s).scopes = s.scopes ∧ (next s).vectors = s.vectors ∧
      (next s).register = s.register)
    (h : ∀ s, s.Sound → Q s.extent (value s)) : storing.Holds x m Q := by
  refine holds_of_ok run fun s _ sound => ?_
  obtain ⟨scopes, vectors, register⟩ := same s
  have extent : (next s).extent = s.extent := by rw [State.extent, State.extent, scopes, vectors]
  rw [extent]
  exact ⟨le_refl _, sound.of_store scopes vectors register, h s sound⟩

/-- A machine that can fail. -/
theorem holds_of_run
    (h : ∀ s, x = s.extent → s.Sound →
      match m s with
      | .ok a s' => s.extent ≤ s'.extent ∧ s'.Sound ∧ Q s'.extent a
      | .error e s' => s.extent ≤ s'.extent ∧ s'.Sound ∧ e.expected) :
    storing.Holds x m Q := by
  refine ⟨fun s kept => ?_⟩
  obtain ⟨rfl, sound⟩ := kept
  have outcome := h s rfl sound
  cases run : m s with
  | ok a s' =>
    rw [run] at outcome
    obtain ⟨grows, sound', holds⟩ := outcome
    exact ⟨_, grows, ⟨rfl, sound'⟩, holds⟩
  | error e s' =>
    rw [run] at outcome
    obtain ⟨grows, sound', expected⟩ := outcome
    exact ⟨_, grows, ⟨rfl, sound'⟩, fun _ => .inl expected⟩

theorem linked_of_encloses {s : State} {parent : Option ScopeId}
    (h : storing.Encloses s.extent parent) : Linked s.scopes.size parent := by
  obtain ⟨p, rfl⟩ := Option.isSome_iff_exists.mp (h.2 trivial)
  exact .inr ⟨p, h.1 p rfl, rfl⟩

theorem newScope {names : List String} {values : List Value} {parent : Option ScopeId}
    (same : names.length = values.length) (admitted : ∀ v ∈ values, storing.Admits x v)
    (encloses : storing.Encloses x parent) :
    storing.Holds x (Machine.newScope names values parent) storing.Writable := by
  refine holds_of_ok (fun s => Machine.newScope_run s parent same) fun s here sound => ?_
  subst here
  have valid : Scope.Each (Value.Valid s.extent) ⟨Bindings.putAll names values [], parent, none⟩ :=
    .made fun v given => admits_iff.mp (admitted v given)
  refine ⟨State.Sound.extent_le_pushScope _, sound.pushScope valid (linked_of_encloses encloses), ?_⟩
  simp [storing, State.extent]

theorem putAll {env : ScopeId} {names : List String} {values : List Value}
    (admitted : ∀ v ∈ values, storing.Admits x v) :
    storing.Holds x (Machine.putAll env names values) fun _ _ => True := by
  refine holds_of_ok (fun s => Machine.putAll_run s env names values) fun s here sound => ?_
  subst here
  have valid : ∀ v ∈ values, v.Valid s.extent := fun v given => admits_iff.mp (admitted v given)
  have sound' : (s.putAll env names values).Sound :=
    sound.modifyScope (fun _ => rfl) fun _ old => old.putAll valid
  exact ⟨by simp [State.putAll, State.extent], sound', trivial⟩

theorem setMemo {env : ScopeId} {v : Value} (admitted : storing.Admits x v) :
    storing.Holds x (Machine.setMemo env v) fun _ _ => True := by
  refine holds_of_ok (fun s => Machine.setMemo_run s env v) fun s here sound => ?_
  subst here
  have sound' : (s.setMemo env v).Sound :=
    sound.modifyScope (fun _ => rfl) fun _ old => old.setMemo (admits_iff.mp admitted)
  exact ⟨by simp [State.setMemo, State.extent], sound', trivial⟩

theorem slot {id : VectorId} {i : Nat} (has : x.HasSlot id i) :
    storing.Holds x (Machine.slot id i) storing.Admits := by
  refine holds_of_run fun s here sound => ?_
  subst here
  have inside := (State.Sound.hasSlot_iff s id i).mp has
  rw [Machine.slot_run]
  cases found : (s.vectors.slots id)[i]? with
  | some v => exact ⟨le_refl _, sound, admits_iff.mpr (sound.stored.slot found)⟩
  | none =>
    -- The slot was seen in this vector, so it is not missing now.
    have outside := Array.getElem?_eq_none_iff.mp found
    omega

theorem setSlot {id : VectorId} {i : Nat} {v : Value} (has : x.HasSlot id i)
    (admitted : storing.Admits x v) :
    storing.Holds x (Machine.setSlot id i v) fun _ _ => True := by
  refine holds_of_run fun s here sound => ?_
  subst here
  have inside := (State.Sound.hasSlot_iff s id i).mp has
  obtain ⟨sound', extent⟩ := sound.setSlot (admits_iff.mp admitted) id i
  rw [Machine.setSlot_run, if_pos inside]
  exact ⟨by rw [extent], sound', trivial⟩

theorem readLine : storing.Holds x Machine.readLine fun _ _ => True := by
  refine holds_of_run fun s _ sound => ?_
  have sound' (console : Option Console) : State.Sound { s with console := console } :=
    sound.of_store rfl rfl rfl
  rw [Machine.readLine_run]
  cases s.console with
  | none => exact ⟨le_refl _, sound, rfl⟩
  | some console =>
    simp only []
    cases console.readLine.1 with
    | none => exact ⟨le_refl _, sound' _, rfl⟩
    | some text => exact ⟨le_refl _, sound' _, trivial⟩

theorem readInteger : storing.Holds x Machine.readInteger fun _ _ => True := by
  refine holds_of_run fun s _ sound => ?_
  have sound' (console : Option Console) : State.Sound { s with console := console } :=
    sound.of_store rfl rfl rfl
  rw [Machine.readInteger_run]
  cases s.console with
  | none => exact ⟨le_refl _, sound, rfl⟩
  | some console =>
    simp only []
    cases console.readInteger.1 with
    | value n => exact ⟨le_refl _, sound' _, trivial⟩
    | rejected text => exact ⟨le_refl _, sound' _, rfl⟩
    | endOfInput => exact ⟨le_refl _, sound' _, rfl⟩

theorem lawful : storing.Lawful where
  scope_mono := fun later old => Extent.scope_mono later old
  vector_mono := fun later old => Extent.vector_mono later old
  made_mono := fun _ _ => trivial
  writable_mono := fun later old => Extent.scope_mono later old
  slot_mono := fun later has => Extent.slot_mono later has
  writable_scope := fun h => h
  pure := Machine.keeps_pure
  fail := fun expected => Machine.keeps_fail fun strict => .inl (expected strict)
  outgrown := fun outgrown => Machine.keeps_fail fun _ => .inr outgrown
  bind := Machine.keeps_bind
  newObjects := holds_of_store (fun s => Machine.newObjects_run s _) (fun _ => ⟨rfl, rfl, rfl⟩)
    fun _ _ _ _ => trivial
  newVector := by
    intro x slots admitted
    refine holds_of_ok (fun s => Machine.newVector_run s slots) fun s here sound => ?_
    subst here
    have valid : ∀ v ∈ slots, v.Valid s.extent := fun v hv => admits_iff.mp (admitted v hv)
    refine ⟨State.Sound.extent_le_pushVector slots, sound.pushVector valid, ?_⟩
    exact admits_iff.mpr ⟨by simp [Value.Within, Extent.region, State.extent], trivial⟩
  newScope := newScope
  lookup := by
    intro x env name _
    refine holds_of_run fun s _ sound => ?_
    rw [Machine.lookup_run]
    cases found : s.lookup? env name with
    | some v => exact ⟨le_refl _, sound, admits_iff.mpr (sound.stored.lookup found)⟩
    | none => exact ⟨le_refl _, sound, rfl⟩
  putAll := fun _ => putAll
  memo? := fun _ => holds_of_store (fun s => Machine.memo?_run s _) (fun _ => ⟨rfl, rfl, rfl⟩)
    fun _ sound => ⟨fun _ found => admits_iff.mpr (sound.stored.memo found), fun _ => trivial⟩
  setMemo := fun _ _ => setMemo
  vectorSize := fun _ => holds_of_store (fun s => Machine.vectorSize_run s _)
    (fun _ => ⟨rfl, rfl, rfl⟩) fun s _ i inside => (State.Sound.hasSlot_iff s _ i).mpr inside
  slot := slot
  setSlot := setSlot
  register := fun _ => holds_of_store (fun s => Machine.register_run s) (fun _ => ⟨rfl, rfl, rfl⟩)
    fun _ sound => admits_iff.mpr sound.register
  setRegister := by
    intro x v admitted
    refine holds_of_ok (fun s => Machine.setRegister_run s v) fun s here sound => ?_
    subst here
    exact ⟨le_refl _, sound.setRegister (admits_iff.mp admitted), trivial⟩
  write := holds_of_store (fun s => Machine.write_run s _) (fun _ => ⟨rfl, rfl, rfl⟩)
    fun _ _ => trivial
  note := holds_of_store (fun s => Machine.note_run s _ _) (fun _ => ⟨rfl, rfl, rfl⟩)
    fun _ _ => trivial
  format := fun _ => holds_of_store (fun s => Machine.format_run s _) (fun _ => ⟨rfl, rfl, rfl⟩)
    fun _ _ => trivial
  binary := by
    intro x symbol l r hl hr
    refine holds_of_run fun s _ sound => ?_
    rw [Machine.binary_run]
    cases applied : applyBinary s.vectors symbol l r with
    | ok contents => exact ⟨le_refl _, sound, trivial⟩
    | error e => exact ⟨le_refl _, sound, applyBinary_expected (hl.sound trivial) (hr.sound trivial) applied⟩
  readLine := readLine
  readInteger := readInteger

end Storing

/-! ## Programs -/

/-- Evaluating a complete program keeps the store in order and fails only as it may. -/
theorem evaluateProgram_sound {p : Program} (complete : p.Complete) {s : State} (sound : s.Sound) :
    match evaluateProgram (some p) s with
    | .ok v s' => s'.Sound ∧ v.Valid s'.extent
    | .error e s' => s'.Sound ∧ (e.expected ∨ e.outgrown) := by
  have law := Storing.lawful
  have global : storing.Writable s.extent State.global := sound.started
  have body {x : Extent} (later : s.extent ≤ x) :
      storing.Holds x (p.evaluate State.global) storing.Admits :=
    law.block (law.evaluates nestingLimit) (fun st member => ⟨fun _ => complete st member, False.elim⟩)
      (law.writable_mono later global)
  have run : storing.Holds s.extent (evaluateProgram (some p)) storing.Admits := by
    unfold evaluateProgram
    simp only []
    split
    · exact law.bind law.note fun _ _ later _ => body later
    · exact body (le_refl _)
  have outcome := run.outcome s ⟨rfl, sound⟩
  cases ended : evaluateProgram (some p) s with
  | ok v s' =>
    rw [ended] at outcome
    obtain ⟨_, _, ⟨rfl, sound'⟩, admitted⟩ := outcome
    exact ⟨sound', Storing.admits_iff.mp admitted⟩
  | error e s' =>
    rw [ended] at outcome
    obtain ⟨_, _, ⟨rfl, sound'⟩, expected⟩ := outcome
    exact ⟨sound', expected trivial⟩

end Smpl

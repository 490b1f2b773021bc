import Smpl.Machine.Run
import Smpl.Proofs.Evaluation
import Smpl.Proofs.Runs

/-!
# Programs that do not see the register

Blocks, branches, printing and lazy expressions write the register. It is read in two places only:
at the end of a block, which has written it by then, and where a conditional or a selection falls
through. So exhaustive programs cannot see what it held at the start: from two states that differ
only in the register, they end in the same value or failure, and in states that differ only in the
register.

A run also evaluates the bodies of the closures that it comes across, so the store has to be
exhaustive too (`State.Exhaustive`), and it stays so. Nothing is asked of the value in the register:
it may be a closure that falls through, since no exhaustive program gets hold of it.
-/

namespace Smpl

/-! ## Exhaustive stores -/

/-- A store whose values are exhaustive. -/
def State.Exhaustive (s : State) : Prop := s.Each Value.Exhaustive

/-! ## Two runs -/

/-- A state that differs from another one in the register at most. -/
def State.SameBesidesRegister (s t : State) : Prop := ∃ r, t = { s with register := r }

/-- The states of two runs that do not see the register. -/
structure Unseen (s t : State) : Prop where
  same : s.SameBesidesRegister t
  store : s.Exhaustive

/-- A machine that does nothing with the register: whatever it holds, the machine leaves it alone and
does the same. -/
def Machine.Blind {α : Type} (m : Machine α) : Prop :=
  ∀ (s : State) (r : Value), m { s with register := r } =
    match m s with
    | .ok a s' => .ok a { s' with register := r }
    | .error e s' => .error e { s' with register := r }

namespace Machine

theorem lookup_blind (env : ScopeId) (name : String) : (lookup env name).Blind := by
  intro s r
  have same : State.lookup? { s with register := r } env name = s.lookup? env name := rfl
  rw [lookup_run, lookup_run, same]
  cases s.lookup? env name <;> rfl

theorem slot_blind (id : VectorId) (i : Nat) : (slot id i).Blind := by
  intro s r
  rw [slot_run, slot_run]
  cases (s.vectors.slots id)[i]? <;> rfl

theorem setSlot_blind (id : VectorId) (i : Nat) (v : Value) : (setSlot id i v).Blind := by
  intro s r
  rw [setSlot_run, setSlot_run]
  by_cases inside : i < (s.vectors.slots id).size
  · rw [if_pos inside, if_pos inside]
    rfl
  · rw [if_neg inside, if_neg inside]

theorem binary_blind (symbol : String) (l r : Value) : (binary symbol l r).Blind := by
  intro s v
  rw [binary_run, binary_run]
  cases applyBinary s.vectors symbol l r <;> rfl

theorem readLine_blind : readLine.Blind := by
  rintro ⟨scopes, vectors, nextObject, register, console, output, log⟩ r
  rw [readLine_run, readLine_run]
  cases console with
  | none => rfl
  | some console =>
    simp only []
    cases console.readLine.1 <;> rfl

theorem readInteger_blind : readInteger.Blind := by
  rintro ⟨scopes, vectors, nextObject, register, console, output, log⟩ r
  rw [readInteger_run, readInteger_run]
  cases console with
  | none => rfl
  | some console =>
    simp only []
    cases console.readInteger.1 <;> rfl

end Machine

/-- The two runs of a machine in lockstep end alike. -/
theorem Machine.Lockstep.ends {inv : State → State → Prop} {α : Type} {m : Machine α} {Q : α → Prop}
    (h : m.Lockstep inv Q) {s t : State} (start : inv s t) :
    m.outcome s = m.outcome t ∧ inv (m.after s) (m.after t) := by
  obtain ⟨s', t', related, ⟨a, left, right, _⟩ | ⟨e, left, right⟩⟩ := h.runs s t start
  · simp only [outcome, after, left, right]
    exact ⟨trivial, related⟩
  · simp only [outcome, after, left, right]
    exact ⟨trivial, related⟩

/-! ## The judgement -/

/-- Machines that run alike whatever the register holds. -/
def oblivious : Judgement OneWorld where
  strict := False
  total := True
  region := fun _ => Region.all
  Writable := fun _ _ => True
  HasSlot := fun _ _ _ => True
  Holds := fun _ m Q => m.Lockstep Unseen (Q .only)

namespace Oblivious

variable {w : OneWorld} {α : Type} {m : Machine α} {Q : OneWorld → α → Prop}

theorem admits_iff {v : Value} : oblivious.Admits w v ↔ v.Exhaustive :=
  ⟨fun h => h.exhaustive trivial, fun h => ⟨v.within_all, False.elim, fun _ => h, v.numbered_all⟩⟩

/-- A machine that does nothing with the register has only its own run to answer for. -/
theorem holds_of_blind (blind : m.Blind)
    (kept : ∀ s, s.Exhaustive →
      match m s with
      | .ok a s' => s'.Exhaustive ∧ Q .only a
      | .error _ s' => s'.Exhaustive) :
    oblivious.Holds w m Q := by
  constructor
  rintro s t ⟨⟨r, rfl⟩, store⟩
  have second := blind s r
  have after := kept s store
  cases run : m s with
  | ok a s' =>
    rw [run] at second after
    exact ⟨s', { s' with register := r }, ⟨⟨r, rfl⟩, after.1⟩, .inl ⟨a, rfl, second, after.2⟩⟩
  | error e s' =>
    rw [run] at second after
    exact ⟨s', { s' with register := r }, ⟨⟨r, rfl⟩, after⟩, .inr ⟨e, rfl, second⟩⟩

/-- The same for a machine whose value does not matter. -/
theorem holds_of_after (blind : m.Blind) (kept : ∀ s, s.Exhaustive → (m.after s).Exhaustive)
    (all : ∀ a, Q .only a) : oblivious.Holds w m Q := by
  refine holds_of_blind blind fun s store => ?_
  have after := kept s store
  rw [Machine.after] at after
  cases run : m s with
  | ok a s' =>
    rw [run] at after
    exact ⟨after, all a⟩
  | error e s' =>
    rw [run] at after
    exact after

theorem newScope {names : List String} {values : List Value} {parent : Option ScopeId}
    (same : names.length = values.length) (admitted : ∀ v ∈ values, oblivious.Admits w v) :
    oblivious.Holds w (Machine.newScope names values parent) oblivious.Writable := by
  refine holds_of_blind (fun s r => ?_) fun s store => ?_
  · rw [Machine.newScope_run _ parent same, Machine.newScope_run _ parent same]
  · rw [Machine.newScope_run s parent same]
    exact ⟨store.pushScope (.made fun v given => admits_iff.mp (admitted v given)), trivial⟩

theorem lookup {env : ScopeId} {name : String} :
    oblivious.Holds w (Machine.lookup env name) oblivious.Admits := by
  refine holds_of_blind (Machine.lookup_blind env name) fun s store => ?_
  rw [Machine.lookup_run]
  cases found : s.lookup? env name with
  | some v => exact ⟨store, admits_iff.mpr (store.lookup found)⟩
  | none => exact store

theorem slot {id : VectorId} {i : Nat} :
    oblivious.Holds w (Machine.slot id i) oblivious.Admits := by
  refine holds_of_blind (Machine.slot_blind id i) fun s store => ?_
  rw [Machine.slot_run]
  cases found : (s.vectors.slots id)[i]? with
  | some v => exact ⟨store, admits_iff.mpr (store.slot found)⟩
  | none => exact store

theorem setSlot {id : VectorId} {i : Nat} {v : Value} (admitted : oblivious.Admits w v) :
    oblivious.Holds w (Machine.setSlot id i v) fun _ _ => True := by
  refine holds_of_after (Machine.setSlot_blind id i v) (fun s store => ?_) fun _ => trivial
  rw [Machine.after, Machine.setSlot_run]
  by_cases inside : i < (s.vectors.slots id).size
  · rw [if_pos inside]
    exact store.setSlot (admits_iff.mp admitted) id i
  · rw [if_neg inside]
    exact store

theorem binary {symbol : String} {l r : Value} :
    oblivious.Holds w (Machine.binary symbol l r) fun _ _ => True := by
  refine holds_of_after (Machine.binary_blind symbol l r) (fun s store => ?_) fun _ => trivial
  rw [Machine.after, Machine.binary_run]
  cases applyBinary s.vectors symbol l r <;> exact store

theorem readLine : oblivious.Holds w Machine.readLine fun _ _ => True := by
  refine holds_of_after Machine.readLine_blind (fun s store => ?_) fun _ => trivial
  obtain ⟨console, same⟩ := Machine.readLine_after s
  rw [same]
  exact store.of_store rfl rfl

theorem readInteger : oblivious.Holds w Machine.readInteger fun _ _ => True := by
  refine holds_of_after Machine.readInteger_blind (fun s store => ?_) fun _ => trivial
  obtain ⟨console, same⟩ := Machine.readInteger_after s
  rw [same]
  exact store.of_store rfl rfl

theorem lawful : oblivious.Lawful where
  scope_mono := fun _ h => h
  vector_mono := fun _ h => h
  made_mono := fun _ h => h
  writable_mono := fun _ h => h
  slot_mono := fun _ h => h
  writable_scope := fun _ => trivial
  pure := fun holds => holds_of_blind (fun _ _ => rfl) fun _ store => ⟨store, holds⟩
  fail := fun _ => Machine.lockstep_fail
  outgrown := fun _ => Machine.lockstep_fail
  bind := fun first second =>
    Machine.lockstep_bind first fun a holds => second a .only (le_refl _) holds
  newObjects := holds_of_blind (fun _ _ => rfl) fun _ store =>
    ⟨store.of_store rfl rfl, fun _ _ => trivial⟩
  newVector := fun admitted => holds_of_blind (fun _ _ => rfl) fun _ store =>
    ⟨store.pushVector fun v slot => admits_iff.mp (admitted v slot), admits_iff.mpr trivial⟩
  newScope := fun same admitted _ => newScope same admitted
  lookup := fun _ => lookup
  putAll := fun _ admitted => holds_of_blind (fun _ _ => rfl) fun _ store =>
    ⟨store.putAll (fun v given => admits_iff.mp (admitted v given)) _ _, trivial⟩
  memo? := fun _ => holds_of_blind (fun _ _ => rfl) fun _ store =>
    ⟨store, fun _ found => admits_iff.mpr (store.memo found), fun _ => trivial⟩
  setMemo := fun _ _ admitted => holds_of_blind (fun _ _ => rfl) fun _ store =>
    ⟨store.setMemo (admits_iff.mp admitted) _, trivial⟩
  vectorSize := fun _ => holds_of_blind (fun _ _ => rfl) fun _ store => ⟨store, fun _ _ => trivial⟩
  slot := fun _ => slot
  setSlot := fun _ admitted => setSlot admitted
  register := fun partly => (partly trivial).elim
  setRegister := fun _ => Machine.lockstep_of_ok (fun s => Machine.setRegister_run s _) <| by
    rintro s t ⟨⟨r, rfl⟩, store⟩
    exact ⟨rfl, ⟨⟨_, rfl⟩, store.of_store rfl rfl⟩, trivial⟩
  write := holds_of_blind (fun _ _ => rfl) fun _ store => ⟨store.of_store rfl rfl, trivial⟩
  note := holds_of_blind (fun _ _ => rfl) fun _ store => ⟨store.of_store rfl rfl, trivial⟩
  format := fun _ => holds_of_blind (fun _ _ => rfl) fun _ store => ⟨store, trivial⟩
  binary := fun _ _ => binary
  readLine := readLine
  readInteger := readInteger

theorem allowsStmt {st : Stmt} (h : ∀ p ∈ st.parts, p.Exhaustive) : oblivious.AllowsStmt st :=
  ⟨False.elim, fun _ => h⟩

theorem evaluate {n : Node} (exhaustive : n.Exhaustive) (env : ScopeId) :
    oblivious.Holds .only (n.evaluate env) oblivious.Admits := by
  have parts := lawful.evaluates nestingLimit
  cases n with
  | program p =>
    refine lawful.block parts (fun st member => allowsStmt fun e inside => ?_) trivial
    exact exhaustive e (List.mem_flatMap.mpr ⟨st, member, inside⟩)
  | statement st => exact lawful.statement parts (allowsStmt exhaustive) trivial
  | binding name value => exact Machine.lockstep_fail
  | clause condition result => exact Machine.lockstep_fail

end Oblivious

/-! ## Evaluation -/

/-- An exhaustive node that is evaluated in an exhaustive store does not see the register: two states
that differ only in the register give the same value or failure, and after that differ only in the
register. In particular both runs print the same, read the same and leave the same scopes and
vectors. -/
theorem evaluation_ignores_register (n : Node) (env : ScopeId) (s t : State)
    (exhaustive : n.Exhaustive) (store : s.Exhaustive) (same : s.SameBesidesRegister t) :
    (n.evaluate env).outcome s = (n.evaluate env).outcome t ∧
    ((n.evaluate env).after s).SameBesidesRegister ((n.evaluate env).after t) := by
  obtain ⟨outcome, unseen⟩ := (Oblivious.evaluate exhaustive env).ends ⟨same, store⟩
  exact ⟨outcome, unseen.same⟩

/-- A conditional that falls through gives whatever the register holds. -/
example (r : Value) :
    (Node.evaluate (.statement (.eval (.conditional (.literal (.boolean false)) .emptyList none)))
      0).outcome { State.initial none with register := r } = .ok r := rfl

/-- A closure over the global scope whose body is a conditional with a selection in its second
branch. -/
def choosing : Procedure :=
  ⟨1, some ⟨[], none, .conditional (.literal (.boolean false)) .emptyList
    (some (.select [(.literal (.string elseCondition), .literal (.integer 2))]))⟩, some 0⟩

/-- A closure that falls through. -/
def fallingThrough : Procedure :=
  ⟨2, some ⟨[], none, .conditional (.literal (.boolean false)) .emptyList none⟩, some 0⟩

/-- A store with a closure in a pair, in a memo and in a generator. -/
def closureStore : State :=
  { State.initial none with
    scopes := #[⟨[("p", .pair 3 (.procedure choosing) .empty)], none, some (.procedure choosing)⟩]
    vectors := #[#[.generator 4 1 (some choosing)]]
    nextObject := 5 }

/-- Calls the closure in the memo of the scope. -/
def callMemo : Node := .statement (.eval (.call (.lazy .missing) (.list [])))

theorem choosing_exhaustive : choosing.Exhaustive := by
  have other :
      (Expr.select [(.literal (.string elseCondition), .literal (.integer 2))]).Exhaustive := by
    refine .intro rfl ?_
    simpa [Expr.parts] using ⟨.single rfl rfl, .single rfl rfl⟩
  rintro d ⟨⟩
  refine .intro rfl ?_
  simpa [Expr.parts] using ⟨.single rfl rfl, .single rfl rfl, other⟩

theorem closureStore_exhaustive : closureStore.Exhaustive := by
  have closure := choosing_exhaustive
  constructor
  · intro k scope found
    have only := Array.mem_of_getElem? found
    cases List.mem_singleton.mp (Array.mem_def.mp only)
    refine ⟨?_, ?_⟩
    · simpa [Value.Exhaustive] using closure
    · simpa [Value.Exhaustive] using closure
  · intro id slots found
    have only := Array.mem_of_getElem? found
    cases List.mem_singleton.mp (Array.mem_def.mp only)
    simpa [Value.Exhaustive] using closure

theorem callMemo_exhaustive : callMemo.Exhaustive := by
  have memo : (Expr.lazy .missing).Exhaustive :=
    .intro rfl (by simpa [Expr.parts] using .single rfl rfl)
  have call : (Expr.call (.lazy .missing) (.list [])).Exhaustive :=
    .intro rfl (by simpa [Expr.parts] using ⟨memo, .single rfl rfl⟩)
  simpa [Node.Exhaustive, callMemo, Node.parts, Stmt.parts] using call

/-- The closure in the memo is called, and gives 2 even if the register holds a closure that falls
through. -/
theorem callMemo_ignores_register :
    callMemo.Exhaustive ∧ closureStore.Exhaustive ∧
    ¬ (Value.procedure fallingThrough).Exhaustive ∧
    (callMemo.evaluate 0).outcome { closureStore with register := .procedure fallingThrough } =
      .ok (.scalar 7 (.integer 2)) ∧
    ((callMemo.evaluate 0).after closureStore).SameBesidesRegister
      ((callMemo.evaluate 0).after { closureStore with register := .procedure fallingThrough }) := by
  have falls : ¬ (Value.procedure fallingThrough).Exhaustive := fun h => by
    cases h _ rfl with
    | intro here _ => cases here
  obtain ⟨outcome, after⟩ := evaluation_ignores_register callMemo 0 closureStore _
    callMemo_exhaustive closureStore_exhaustive ⟨.procedure fallingThrough, rfl⟩
  exact ⟨callMemo_exhaustive, closureStore_exhaustive, falls, outcome.symm.trans rfl, after⟩

end Smpl

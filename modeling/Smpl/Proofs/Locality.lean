import Smpl.Machine.Run
import Smpl.Proofs.Agreement
import Smpl.Proofs.Evaluation
import Smpl.Proofs.Runs

/-!
# What a call depends on

The outcome of a call depends only on what can be reached from the closure, the arguments and the
register, besides the console and the numbers that new objects are given. Two states that agree on
these give the same value or failure, the same printed text and the same input read, and agree
again afterwards. In particular it does not matter to a call what names the scope of the caller
binds, unless that scope can be reached.

The two runs go in lockstep (`Machine.Lockstep`). They are compared on a region that never changes
(`Alike`): all that can be reached at the start, and all places that are still to be made.
-/

namespace Smpl

/-! ## The invariant -/

/-- The states of two runs that started in two given states. They agree on a closed region that
holds the register and all places still to be made, and the runs have printed and noted the same. -/
structure Alike (r : Region) (s₀ t₀ s t : State) : Prop where
  agree : State.Agree r s t
  closed : s.Closed r
  register : s.register.Within r
  newScopes : ∀ k, s.scopes.size ≤ k → r.scope k
  newVectors : ∀ id, s.vectors.size ≤ id → r.vector id
  printed : ∃ text, s.output = s₀.output ++ text ∧ t.output = t₀.output ++ text
  noted : ∃ lines : Array LogLine, s.log = s₀.log ++ lines ∧ t.log = t₀.log ++ lines

namespace Alike

variable {r : Region} {s₀ t₀ s t : State}

theorem newObjects (h : Alike r s₀ t₀ s t) (count : Nat) :
    Alike r s₀ t₀ { s with nextObject := s.nextObject + count }
      { t with nextObject := t.nextObject + count } :=
  { h with
    agree := { h.agree with nextObject := by rw [h.agree.nextObject] }
    closed := ⟨h.closed.scopes, h.closed.slots⟩ }

theorem setRegister (h : Alike r s₀ t₀ s t) {v : Value} (within : v.Within r) :
    Alike r s₀ t₀ { s with register := v } { t with register := v } :=
  { h with
    agree := { h.agree with register := rfl }
    closed := ⟨h.closed.scopes, h.closed.slots⟩
    register := within }

theorem setConsole (h : Alike r s₀ t₀ s t) (console : Option Console) :
    Alike r s₀ t₀ { s with console := console } { t with console := console } :=
  { h with
    agree := { h.agree with console := rfl }
    closed := ⟨h.closed.scopes, h.closed.slots⟩ }

theorem write (h : Alike r s₀ t₀ s t) (text : String) :
    Alike r s₀ t₀ { s with output := s.output ++ text } { t with output := t.output ++ text } := by
  obtain ⟨before, left, right⟩ := h.printed
  exact { h with
    agree := { h.agree with }
    closed := ⟨h.closed.scopes, h.closed.slots⟩
    printed := ⟨before ++ text, by rw [left, String.append_assoc], by rw [right, String.append_assoc]⟩ }

theorem note (h : Alike r s₀ t₀ s t) (line : LogLine) :
    Alike r s₀ t₀ { s with log := s.log.push line } { t with log := t.log.push line } := by
  obtain ⟨before, left, right⟩ := h.noted
  exact { h with
    agree := { h.agree with }
    closed := ⟨h.closed.scopes, h.closed.slots⟩
    noted := ⟨before.push line, by rw [left, Array.append_push], by rw [right, Array.append_push]⟩ }

theorem pushScope (h : Alike r s₀ t₀ s t) {scope : Scope} (within : scope.Within r) :
    Alike r s₀ t₀ { s with scopes := s.scopes.push scope } { t with scopes := t.scopes.push scope } := by
  have count := h.agree.scopeCount
  refine { h with
    agree := { h.agree with scopeCount := ?_, scopes := ?_ }
    closed := ⟨?_, h.closed.slots⟩
    newScopes := ?_ }
  · simp only [Array.size_push, count]
  · intro k a inside found
    rw [Array.getElem?_push] at found ⊢
    rw [← count]
    split at found
    · cases found
      exact ⟨scope, by simp [*], ⟨fun _ => rfl, rfl, rfl⟩⟩
    · next old =>
      rw [if_neg old]
      exact h.agree.scopes k a inside found
  · intro k a inside found
    rw [Array.getElem?_push] at found
    split at found
    · cases found
      exact within
    · exact h.closed.scopes k a inside found
  · intro k new
    rw [Array.size_push] at new
    exact h.newScopes k (Nat.le_of_succ_le new)

/-- A scope is changed in both states by a change that does not tell equal scopes apart. -/
theorem modifyScope (h : Alike r s₀ t₀ s t) (env : ScopeId) {f : Scope → Scope}
    (same : ∀ a b, a.Same b → (f a).Same (f b)) (within : ∀ a, a.Within r → (f a).Within r) :
    Alike r s₀ t₀ { s with scopes := s.scopes.modify env f }
      { t with scopes := t.scopes.modify env f } := by
  refine { h with
    agree := { h.agree with scopeCount := ?_, scopes := ?_ }
    closed := ⟨?_, h.closed.slots⟩
    newScopes := ?_ }
  · simp only [Array.size_modify, h.agree.scopeCount]
  · intro k a inside found
    rw [Array.getElem?_modify] at found ⊢
    split at found
    · next here =>
      obtain ⟨old, foundOld, rfl⟩ := Option.map_eq_some_iff.mp found
      obtain ⟨b, found', alike⟩ := h.agree.scopes k old inside foundOld
      rw [if_pos here, found']
      exact ⟨f b, rfl, same old b alike⟩
    · next other =>
      rw [if_neg other]
      exact h.agree.scopes k a inside found
  · intro k a inside found
    rw [Array.getElem?_modify] at found
    split at found
    · obtain ⟨old, foundOld, rfl⟩ := Option.map_eq_some_iff.mp found
      exact within old (h.closed.scopes k old inside foundOld)
    · exact h.closed.scopes k a inside found
  · intro k new
    rw [Array.size_modify] at new
    exact h.newScopes k new

theorem pushVector (h : Alike r s₀ t₀ s t) {slots : Array Value} (within : ∀ v ∈ slots, v.Within r) :
    Alike r s₀ t₀ { s with vectors := s.vectors.push slots }
      { t with vectors := t.vectors.push slots } := by
  have count := h.agree.vectorCount
  refine { h with
    agree := { h.agree with vectorCount := ?_, vectors := ?_ }
    closed := ⟨h.closed.scopes, ?_⟩
    newVectors := ?_ }
  · simp only [Array.size_push, count]
  · intro id inside
    simp only [Array.getElem?_push, count, h.agree.vectors id inside]
  · intro id other inside found
    rw [Array.getElem?_push] at found
    split at found
    · cases found
      exact within
    · exact h.closed.slots id other inside found
  · intro id new
    rw [Array.size_push] at new
    exact h.newVectors id (Nat.le_of_succ_le new)

theorem setSlot (h : Alike r s₀ t₀ s t) (id : VectorId) (i : Nat) {v : Value} (within : v.Within r) :
    Alike r s₀ t₀ (s.setSlot id i v) (t.setSlot id i v) := by
  refine { h with
    agree := { h.agree with vectorCount := ?_, vectors := ?_ }
    closed := ⟨h.closed.scopes, ?_⟩
    newVectors := ?_ }
  · simp only [State.setSlot, Array.size_modify, h.agree.vectorCount]
  · intro other inside
    simp only [State.setSlot, Array.getElem?_modify, h.agree.vectors other inside]
  · intro other slots inside found u slot
    rw [State.setSlot, Array.getElem?_modify] at found
    split at found
    · obtain ⟨old, foundOld, rfl⟩ := Option.map_eq_some_iff.mp found
      rcases Array.mem_or_eq_of_mem_setIfInBounds slot with was | rfl
      · exact h.closed.slots other old inside foundOld u was
      · exact within
    · exact h.closed.slots other slots inside found u slot
  · intro other new
    rw [State.setSlot, Array.size_modify] at new
    exact h.newVectors other new

end Alike

/-! ## The judgement -/

/-- Machines whose runs go in lockstep on a region. -/
def mirroring (r : Region) (s₀ t₀ : State) : Judgement OneWorld where
  strict := False
  region := fun _ => r
  Writable := fun _ env => r.scope env
  HasSlot := fun _ id _ => r.vector id
  Holds := fun _ m Q => Machine.Lockstep (Alike r s₀ t₀) m (Q .only)

namespace Mirroring

variable {r : Region} {s₀ t₀ : State} {w : OneWorld}

theorem admits_iff {v : Value} : (mirroring r s₀ t₀).Admits w v ↔ v.Within r :=
  ⟨fun h => h.within, fun h => ⟨h, False.elim, False.elim, v.numbered_all⟩⟩

theorem newScope {names : List String} {values : List Value} {parent : Option ScopeId}
    (same : names.length = values.length)
    (admitted : ∀ v ∈ values, (mirroring r s₀ t₀).Admits w v)
    (encloses : (mirroring r s₀ t₀).Encloses w parent) :
    (mirroring r s₀ t₀).Holds w (Machine.newScope names values parent)
      (mirroring r s₀ t₀).Writable := by
  have within : Scope.Within r ⟨Bindings.putAll names values [], parent, none⟩ := by
    refine ⟨fun name v bound => ?_, encloses.1, nofun⟩
    rcases Bindings.get?_putAll bound with given | old
    · exact (admitted v given).1
    · cases old
  refine Machine.lockstep_of_ok (fun s => Machine.newScope_run s parent same) fun s t alike => ?_
  exact ⟨alike.agree.scopeCount, alike.pushScope within, alike.newScopes _ (Nat.le_refl _)⟩

theorem lookup {env : ScopeId} {name : String} (inside : r.scope env) :
    (mirroring r s₀ t₀).Holds w (Machine.lookup env name) (mirroring r s₀ t₀).Admits := by
  refine ⟨fun s t alike => ⟨s, t, alike, ?_⟩⟩
  rw [Machine.lookup_run, Machine.lookup_run, ← alike.agree.lookup_eq alike.closed inside name]
  cases found : s.lookup? env name with
  | some v => exact .inl ⟨v, rfl, rfl, admits_iff.mpr (alike.closed.lookup_within inside found)⟩
  | none => exact .inr ⟨.unbound name, rfl, rfl⟩

theorem putAll {env : ScopeId} {names : List String} {values : List Value}
    (admitted : ∀ v ∈ values, (mirroring r s₀ t₀).Admits w v) :
    (mirroring r s₀ t₀).Holds w (Machine.putAll env names values) fun _ _ => True := by
  refine Machine.lockstep_of_ok (fun s => Machine.putAll_run s env names values)
    fun s t alike => ⟨rfl, alike.modifyScope env (fun a b same => ?_) (fun a within => ?_), trivial⟩
  · exact ⟨Bindings.get?_putAll_congr same.bindings, same.parent, same.memo⟩
  · refine ⟨fun name v bound => ?_, within.parent, within.memo⟩
    rcases Bindings.get?_putAll bound with given | old
    · exact (admitted v given).1
    · exact within.bindings name v old

theorem setMemo {env : ScopeId} {v : Value} (admitted : (mirroring r s₀ t₀).Admits w v) :
    (mirroring r s₀ t₀).Holds w (Machine.setMemo env v) fun _ _ => True := by
  refine Machine.lockstep_of_ok (fun s => Machine.setMemo_run s env v)
    fun s t alike => ⟨rfl, alike.modifyScope env (fun a b same => ?_) (fun a within => ?_), trivial⟩
  · exact ⟨same.bindings, same.parent, rfl⟩
  · refine ⟨within.bindings, within.parent, fun u kept => ?_⟩
    unfold Scope.setMemo at kept
    split at kept <;> cases kept
    exact admitted.1

theorem slot {id : VectorId} {i : Nat} (inside : r.vector id) :
    (mirroring r s₀ t₀).Holds w (Machine.slot id i) (mirroring r s₀ t₀).Admits := by
  refine ⟨fun s t alike => ⟨s, t, alike, ?_⟩⟩
  have vectors := alike.agree.toVectors alike.closed
  rw [Machine.slot_run, Machine.slot_run, ← vectors.slots_eq inside]
  cases found : (s.vectors.slots id)[i]? with
  | some v =>
    have within := vectors.slots_within inside v (Array.mem_of_getElem? found)
    exact .inl ⟨v, rfl, rfl, admits_iff.mpr within⟩
  | none => exact .inr ⟨.outOfRange, rfl, rfl⟩

theorem setSlot {id : VectorId} {i : Nat} {v : Value} (inside : r.vector id)
    (admitted : (mirroring r s₀ t₀).Admits w v) :
    (mirroring r s₀ t₀).Holds w (Machine.setSlot id i v) fun _ _ => True := by
  refine ⟨fun s t alike => ?_⟩
  have slots := (alike.agree.toVectors alike.closed).slots_eq inside
  rw [Machine.setSlot_run, Machine.setSlot_run, ← slots]
  by_cases has : i < (s.vectors.slots id).size
  · rw [if_pos has, if_pos has]
    exact ⟨_, _, alike.setSlot id i admitted.1, .inl ⟨(), rfl, rfl, trivial⟩⟩
  · rw [if_neg has, if_neg has]
    exact ⟨s, t, alike, .inr ⟨.outOfRange, rfl, rfl⟩⟩

theorem readLine : (mirroring r s₀ t₀).Holds w Machine.readLine fun _ _ => True := by
  refine ⟨fun s t alike => ?_⟩
  rw [Machine.readLine_run, Machine.readLine_run, ← alike.agree.console]
  cases s.console with
  | none => exact ⟨s, t, alike, .inr ⟨.noConsole "read", rfl, rfl⟩⟩
  | some console =>
    refine ⟨_, _, alike.setConsole (some console.readLine.2), ?_⟩
    simp only []
    cases console.readLine.1 with
    | none => exact .inr ⟨_, rfl, rfl⟩
    | some text => exact .inl ⟨_, rfl, rfl, trivial⟩

theorem readInteger : (mirroring r s₀ t₀).Holds w Machine.readInteger fun _ _ => True := by
  refine ⟨fun s t alike => ?_⟩
  rw [Machine.readInteger_run, Machine.readInteger_run, ← alike.agree.console]
  cases s.console with
  | none => exact ⟨s, t, alike, .inr ⟨.noConsole "read-integer", rfl, rfl⟩⟩
  | some console =>
    refine ⟨_, _, alike.setConsole (some console.readInteger.2), ?_⟩
    simp only []
    cases console.readInteger.1 with
    | value n => exact .inl ⟨_, rfl, rfl, trivial⟩
    | rejected text => exact .inr ⟨_, rfl, rfl⟩
    | endOfInput => exact .inr ⟨_, rfl, rfl⟩

theorem lawful (r : Region) (s₀ t₀ : State) : (mirroring r s₀ t₀).Lawful where
  scope_mono := fun _ h => h
  vector_mono := fun _ h => h
  made_mono := fun _ h => h
  writable_mono := fun _ h => h
  slot_mono := fun _ h => h
  writable_scope := fun h => h
  pure := fun holds => Machine.lockstep_of_ok (fun _ => rfl) fun _ _ alike => ⟨rfl, alike, holds⟩
  fail := fun _ => Machine.lockstep_fail
  outgrown := fun _ => Machine.lockstep_fail
  bind := fun first second => Machine.lockstep_bind first fun a holds => second a .only (le_refl _) holds
  newObjects := Machine.lockstep_of_ok (fun s => Machine.newObjects_run s _)
    fun _ _ alike => ⟨alike.agree.nextObject, alike.newObjects _, fun _ _ => trivial⟩
  newVector := by
    intro w slots admitted
    refine Machine.lockstep_of_ok (fun s => Machine.newVector_run s slots) fun s t alike => ?_
    refine ⟨by rw [alike.agree.vectorCount], alike.pushVector fun v slot => (admitted v slot).1, ?_⟩
    exact admits_iff.mpr (alike.newVectors _ (Nat.le_refl _))
  newScope := newScope
  lookup := lookup
  putAll := fun _ => putAll
  memo? := fun inside => Machine.lockstep_of_ok (fun s => Machine.memo?_run s _)
    fun _ _ alike => ⟨alike.agree.memo_eq inside, alike,
      fun _ found => admits_iff.mpr (alike.closed.memo_within inside found), fun _ => trivial⟩
  setMemo := fun _ _ => setMemo
  vectorSize := by
    intro w id inside
    refine Machine.lockstep_of_ok (fun s => Machine.vectorSize_run s id) fun s t alike => ?_
    have slots := (alike.agree.toVectors alike.closed).slots_eq inside
    exact ⟨by rw [slots], alike, fun _ _ => inside⟩
  slot := slot
  setSlot := setSlot
  register := fun _ => Machine.lockstep_of_ok (fun s => Machine.register_run s)
    fun _ _ alike => ⟨alike.agree.register, alike, admits_iff.mpr alike.register⟩
  setRegister := fun admitted => Machine.lockstep_of_ok (fun s => Machine.setRegister_run s _)
    fun _ _ alike => ⟨rfl, alike.setRegister admitted.1, trivial⟩
  write := Machine.lockstep_of_ok (fun s => Machine.write_run s _)
    fun _ _ alike => ⟨rfl, alike.write _, trivial⟩
  note := Machine.lockstep_of_ok (fun s => Machine.note_run s _ _)
    fun _ _ alike => ⟨rfl, alike.note _, trivial⟩
  format := fun admitted => Machine.lockstep_of_ok (fun s => Machine.format_run s _)
    fun _ _ alike => ⟨Value.format_congr (alike.agree.toVectors alike.closed) admitted.1, alike, trivial⟩
  binary := by
    intro w symbol left right hl hr
    refine ⟨fun s t alike => ⟨s, t, alike, ?_⟩⟩
    have same := applyBinary_congr (alike.agree.toVectors alike.closed) symbol hl.1 hr.1
    rw [Machine.binary_run, Machine.binary_run, ← same]
    cases applyBinary s.vectors symbol left right with
    | ok contents => exact .inl ⟨contents, rfl, rfl, trivial⟩
    | error e => exact .inr ⟨e, rfl, rfl⟩
  readLine := readLine
  readInteger := readInteger

end Mirroring

/-! ## The start of two runs -/

/-- A region and all places that a state has yet to make. -/
def Region.withNew (r : Region) (s : State) : Region :=
  ⟨fun k => r.scope k ∨ s.scopes.size ≤ k, fun id => r.vector id ∨ s.vectors.size ≤ id⟩

theorem Value.Within.withNew {r : Region} {v : Value} (h : v.Within r) (s : State) :
    v.Within (r.withNew s) := h.mono (fun _ => Or.inl) (fun _ => Or.inl)

theorem State.Closed.withNew {r : Region} {s : State} (h : s.Closed r) : s.Closed (r.withNew s) := by
  constructor
  · rintro k scope (inside | new) found
    · exact (h.scopes k scope inside found).mono (fun _ => Or.inl) (fun _ => Or.inl)
    · rw [Array.getElem?_eq_none new] at found
      cases found
  · rintro id slots (inside | new) found v slot
    · exact (h.slots id slots inside found v slot).withNew s
    · rw [Array.getElem?_eq_none new] at found
      cases found

theorem State.Agree.withNew {r : Region} {s t : State} (h : State.Agree r s t) :
    State.Agree (r.withNew s) s t := by
  refine { h with scopes := ?_, vectors := ?_ }
  · rintro k a (inside | new) found
    · exact h.scopes k a inside found
    · rw [Array.getElem?_eq_none new] at found
      cases found
  · rintro id (inside | new)
    · exact h.vectors id inside
    · rw [Array.getElem?_eq_none new, Array.getElem?_eq_none (h.vectorCount ▸ new)]

theorem Alike.start {r : Region} {s t : State} (agree : State.Agree r s t) (closed : s.Closed r)
    (register : s.register.Within r) : Alike (r.withNew s) s t s t where
  agree := agree.withNew
  closed := closed.withNew
  register := register.withNew s
  newScopes := fun _ => .inr
  newVectors := fun _ => .inr
  printed := ⟨"", by simp, by simp⟩
  noted := ⟨#[], by simp, by simp⟩

/-! ## Calls -/

/-- The value that an outcome holds, if it holds one. -/
def resultOf : Except Failure Value → List Value
  | .ok v => [v]
  | .error _ => []

/-- Two runs of a machine end alike: in the same value or failure, with the same text printed, the
same lines noted and the same console left, and in states that agree on all that can be reached from
the value, the register and some further values. -/
structure Machine.EndsAlike (m : Machine Value) (roots : List Value) (s t : State) : Prop where
  outcome : m.outcome s = m.outcome t
  printed : ∃ text, (m.after s).output = s.output ++ text ∧ (m.after t).output = t.output ++ text
  noted : ∃ lines : Array LogLine, (m.after s).log = s.log ++ lines ∧ (m.after t).log = t.log ++ lines
  agree : State.Agree
    ((m.after s).reached (resultOf (m.outcome s) ++ (m.after s).register :: roots))
    (m.after s) (m.after t)

/-- What a call starts from: the closure, the register and the arguments. -/
def callRoots (p : Procedure) (arguments : List Value) (s : State) : List Value :=
  .procedure p :: s.register :: arguments

/-- A machine in lockstep on a region that holds some values ends alike. -/
theorem Mirroring.endsAlike {m : Machine Value} {r : Region} {s t : State} {roots : List Value}
    (h : (mirroring r s t).Holds .only m (mirroring r s t).Admits) (start : Alike r s t s t)
    (within : ∀ v ∈ roots, v.Within r) : m.EndsAlike roots s t := by
  obtain ⟨s', t', alike, ended⟩ := h.runs s t start
  -- The region is closed at the end too, so all that can be reached then lies in it.
  have reached (results : List Value) (hr : ∀ v ∈ results, v.Within r) :
      State.Agree (s'.reached (results ++ s'.register :: roots)) s' t' := by
    have all : ∀ v ∈ results ++ s'.register :: roots, v.Within r := by
      intro v member
      rcases List.mem_append.mp member with result | root
      · exact hr v result
      · rcases List.mem_cons.mp root with rfl | root
        · exact alike.register
        · exact within v root
    exact alike.agree.mono (fun _ => State.reached_le alike.closed all)
      (fun _ => State.reached_le alike.closed all)
  rcases ended with ⟨a, left, right, admitted⟩ | ⟨e, left, right⟩
  · refine ⟨?_, ?_, ?_, ?_⟩
    · simp only [Machine.outcome, left, right]
    · simpa only [Machine.after, left, right] using alike.printed
    · simpa only [Machine.after, left, right] using alike.noted
    · simp only [Machine.after, Machine.outcome, left, right]
      exact reached [a] (by simpa using Mirroring.admits_iff.mp admitted)
  · refine ⟨?_, ?_, ?_, ?_⟩
    · simp only [Machine.outcome, left, right]
    · simpa only [Machine.after, left, right] using alike.printed
    · simpa only [Machine.after, left, right] using alike.noted
    · simp only [Machine.after, Machine.outcome, left, right]
      exact reached [] (by simp)

theorem callProcedure_endsAlike {p : Procedure} {arguments : List Value} {s t : State}
    (agree : State.Agree (s.reached (callRoots p arguments s)) s t) :
    (callProcedure (some p) arguments).EndsAlike (callRoots p arguments s) s t := by
  -- What can be reached and all that is new is a region that evaluation never leaves.
  have closed := State.closed_reached s (callRoots p arguments s)
  have roots : ∀ v ∈ callRoots p arguments s,
      v.Within ((s.reached (callRoots p arguments s)).withNew s) :=
    fun v root => (State.within_reached root).withNew s
  have start := Alike.start agree closed (State.within_reached (by simp [callRoots]))
  have law := Mirroring.lawful ((s.reached (callRoots p arguments s)).withNew s) s t
  refine Mirroring.endsAlike (law.callProcedure (law.evaluates nestingLimit) ?_ nofun ?_) start roots
  · intro q same
    cases same
    exact Mirroring.admits_iff.mpr (roots _ List.mem_cons_self)
  · intro v argument
    exact Mirroring.admits_iff.mpr (roots v (by simp [callRoots, argument]))

/-- A new binding in a scope that cannot be reached. -/
theorem State.agree_put {s : State} {roots : List Value} {k : ScopeId}
    (apart : ¬ s.Reaches roots (.scope k)) (name : String) (v : Value) :
    State.Agree (s.reached roots) s (s.put k name v) where
  register := rfl
  console := rfl
  nextObject := rfl
  scopeCount := by simp [State.put]
  vectorCount := rfl
  scopes := by
    intro j a inside found
    have other : k ≠ j := by
      rintro rfl
      exact apart inside
    refine ⟨a, ?_, ⟨fun _ => rfl, rfl, rfl⟩⟩
    simpa only [State.put, Array.getElem?_modify, if_neg other] using found
  vectors := fun _ _ => rfl

/-- A call depends only on what can be reached from the closure, the arguments and the register. Two
states that agree on all of it, and have the same console and next numbers, give the same value or
failure, print the same text, leave the same console, and agree on all that can be reached from the
value and what the call started from. In particular a binding in any scope that cannot be reached
from there does not change the call. -/
theorem call_depends_on_reach_only (p : Procedure) (arguments : List Value) (s : State) :
    (∀ t, State.Agree (s.reached (callRoots p arguments s)) s t →
      (callProcedure (some p) arguments).EndsAlike (callRoots p arguments s) s t) ∧
    (∀ k name v, ¬ s.Reaches (callRoots p arguments s) (.scope k) →
      (callProcedure (some p) arguments).EndsAlike (callRoots p arguments s) s (s.put k name v)) := by
  constructor
  · intro t agree
    exact callProcedure_endsAlike agree
  · intro k name v apart
    exact callProcedure_endsAlike (State.agree_put apart name v)

/-- A global scope that binds `x`, and the scope of a caller under it. -/
def callerScopes : State :=
  { State.initial none with
    scopes := #[{ bindings := [("x", .scalar 1 (.integer 1))] }, { parent := some 0 }]
    nextObject := 2 }

/-- A closure over the global scope whose body is `x`. -/
def capturing : Procedure := ⟨0, some ⟨[], none, .identifier "x"⟩, some 0⟩

/-- From the closure only the global scope can be reached. -/
theorem capturing_reaches {place : Place}
    (h : callerScopes.Reaches (callRoots capturing [] callerScopes) place) : place = .scope 0 := by
  have closed : callerScopes.Closed ⟨(· = 0), fun _ => False⟩ := by
    constructor
    · rintro k scope rfl found
      cases found
      refine ⟨fun name v bound => ?_, nofun, nofun⟩
      have member := Bindings.mem_of_get? bound
      cases List.mem_singleton.mp member
      trivial
    · exact fun id slots inside => inside.elim
  have roots : ∀ v ∈ callRoots capturing [] callerScopes, v.Within ⟨(· = 0), fun _ => False⟩ := by
    simp [callRoots, callerScopes, State.initial, capturing, Value.Within, Procedure.Within]
  have inside := State.reached_le closed roots h
  cases place with
  | scope k => exact congrArg Place.scope inside
  | vector id => exact inside.elim

/-- The closure gives the global `x`. -/
theorem capturing_outcome :
    (callProcedure (some capturing) []).outcome callerScopes = .ok (.scalar 1 (.integer 1)) := by
  have run : callProcedure (some capturing) [] callerScopes =
      Machine.lookup 2 "x" { callerScopes with
        scopes := callerScopes.scopes.push { parent := some 0 }
        log := #[⟨.verbose, Eval.callNote ⟨[], none, .identifier "x"⟩ 0⟩] } := rfl
  have found : State.lookupIn? (callerScopes.scopes.push { parent := some 0 }) "x" 2 =
      some (.scalar 1 (.integer 1)) := by
    have inner : (callerScopes.scopes.push { parent := some 0 })[2]? = some { parent := some 0 } := rfl
    have outer : (callerScopes.scopes.push { parent := some 0 })[0]? =
        some { bindings := [("x", .scalar 1 (.integer 1))] } := rfl
    rw [State.lookupIn?_of_found inner]
    show State.lookupIn? _ "x" 0 = _
    rw [State.lookupIn?_of_found outer]
    rfl
  rw [Machine.outcome, run, Machine.lookup_run, State.lookup?, found]

/-- The caller binds `x` to 5; the closure goes on to give the global `x`. -/
theorem capturing_ignores_caller :
    ¬ callerScopes.Reaches (callRoots capturing [] callerScopes) (.scope 1) ∧
    (callProcedure (some capturing) []).outcome callerScopes = .ok (.scalar 1 (.integer 1)) ∧
    (callProcedure (some capturing) []).EndsAlike (callRoots capturing [] callerScopes) callerScopes
      (callerScopes.put 1 "x" (.scalar 2 (.integer 5))) := by
  have apart : ¬ callerScopes.Reaches (callRoots capturing [] callerScopes) (.scope 1) :=
    fun reaches => nomatch capturing_reaches reaches
  have reads := call_depends_on_reach_only capturing [] callerScopes
  exact ⟨apart, capturing_outcome, reads.2 1 "x" (.scalar 2 (.integer 5)) apart⟩

end Smpl

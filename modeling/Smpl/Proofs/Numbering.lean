import Smpl.Proofs.Reached

/-!
# The numbers of objects

Objects and vectors are numbered as they are made, and no number is given out twice. So a value has
been made if and only if its number has been given out (`Value.Exists`), and what has been made at one
time has been made at every later time: the counts only grow.

A state is *numbered* (`State.Numbered`) if all values in its store have been made. The state before a
run is (`State.numbered_initial`), and every evaluation that starts in a numbered state gives a value
that has been made and ends in a numbered state, whether it succeeds or fails. This is a judgement
(`numbering`). It asks nothing of the program, so it holds in all scopes and of all expressions.

All states that runs reach are numbered (`Reached.numbered`).
-/

namespace Smpl

/-! ## Counts -/

/-- How many objects and how many vectors have been made. -/
structure Counts where
  objects : Nat
  vectors : Nat

namespace Counts

instance : Preorder Counts where
  le c d := c.objects ≤ d.objects ∧ c.vectors ≤ d.vectors
  le_refl _ := ⟨Nat.le_refl _, Nat.le_refl _⟩
  le_trans _ _ _ h₁ h₂ := ⟨Nat.le_trans h₁.1 h₂.1, Nat.le_trans h₁.2 h₂.2⟩

/-- All scopes, and the vectors that have been made. -/
def region (c : Counts) : Region := ⟨fun _ => True, fun id => id < c.vectors⟩

end Counts

/-- What has been made up to a state. -/
def State.counts (s : State) : Counts := ⟨s.nextObject, s.vectors.size⟩

/-! ## Values that have been made -/

namespace Value

/-- The value has been made. There is one empty list, which need not be made. -/
def Exists (c : Counts) : Value → Prop
  | .nothing => True
  | .scalar id _ => id < c.objects
  | .empty => True
  | .pair id _ _ => id < c.objects
  | .cell id _ _ => id < c.objects
  | .vector id => id < c.vectors
  | .generator id _ _ => id < c.objects
  | .procedure p => p.id < c.objects

/-- The value and all of its parts have been made. -/
structure Made (c : Counts) (v : Value) : Prop where
  within : v.Within c.region
  numbered : v.Numbered fun id => id < c.objects

variable {c d : Counts} {u v : Value}

theorem Exists.mono (later : c ≤ d) (h : v.Exists c) : v.Exists d := by
  cases v with
  | nothing => trivial
  | empty => trivial
  | vector id => exact Nat.lt_of_lt_of_le h later.2
  | _ => exact Nat.lt_of_lt_of_le h later.1

theorem Made.mono (later : c ≤ d) (h : v.Made c) : v.Made d where
  within := h.within.mono (fun _ _ => trivial) fun _ made => Nat.lt_of_lt_of_le made later.2
  numbered := h.numbered.mono fun _ made => Nat.lt_of_lt_of_le made later.1

theorem Made.exists (h : v.Made c) : v.Exists c := by
  cases v with
  | nothing => trivial
  | scalar _ _ => exact h.numbered
  | empty => trivial
  | pair _ _ _ => exact h.numbered.1
  | cell _ _ _ => exact h.numbered.1
  | vector _ => exact h.within
  | generator _ _ _ => exact h.numbered.1
  | procedure _ => exact h.numbered

/-- The same object has one number. -/
theorem exists_iff_of_identical (same : u.identical v) : u.Exists c ↔ v.Exists c := by
  unfold identical at same
  split at same <;> simp_all [Exists]

theorem identical_self (v : Value) : v.identical v = true := by
  cases v <;> simp [identical]

end Value

/-! ## Stores -/

/-- All values in the store have been made. -/
def State.Numbered (s : State) : Prop := ∀ v, Stored s v → v.Exists s.counts

theorem Stored.made {s : State} (numbered : s.Numbered) {v : Value} (stored : Stored s v) :
    v.Made s.counts := by
  have here := numbered v stored
  induction v with
  | nothing => exact ⟨trivial, trivial⟩
  | scalar _ _ => exact ⟨trivial, here⟩
  | empty => exact ⟨trivial, trivial⟩
  | pair _ a b ihFirst ihSecond =>
    have first := ihFirst stored.first (numbered a stored.first)
    have second := ihSecond stored.second (numbered b stored.second)
    exact ⟨⟨first.within, second.within⟩, here, first.numbered, second.numbered⟩
  | cell _ a b ihHead ihTail =>
    have head := ihHead stored.head (numbered a stored.head)
    have tail := ihTail stored.tail (numbered b stored.tail)
    exact ⟨⟨head.within, tail.within⟩, here, head.numbered, tail.numbered⟩
  | vector _ => exact ⟨here, trivial⟩
  | generator _ _ source =>
    refine ⟨fun _ _ _ _ => trivial, here, fun p hp => ?_⟩
    cases hp
    exact numbered (.procedure p) stored.source
  | procedure _ => exact ⟨fun _ _ => trivial, here⟩

theorem State.numbered_iff {s : State} :
    s.Numbered ↔ s.Each (Value.Made s.counts) ∧ s.register.Made s.counts := by
  constructor
  · intro numbered
    refine ⟨⟨fun k scope found => ⟨fun b bound => ?_, fun v kept => ?_⟩,
      fun id slots found v inside => ?_⟩, ?_⟩
    · exact (Stored.binding found bound).made numbered
    · exact (Stored.memo found kept).made numbered
    · exact (Stored.slot found inside).made numbered
    · exact Stored.register.made numbered
  · rintro ⟨each, register⟩ v stored
    suffices made : v.Made s.counts from made.exists
    induction stored with
    | binding found bound => exact (each.scopes _ _ found).bindings _ bound
    | memo found kept => exact (each.scopes _ _ found).memo _ kept
    | slot found inside => exact each.slots _ _ found _ inside
    | register => exact register
    | first _ ih => exact ⟨ih.within.1, ih.numbered.2.1⟩
    | second _ ih => exact ⟨ih.within.2, ih.numbered.2.2⟩
    | head _ ih => exact ⟨ih.within.1, ih.numbered.2.1⟩
    | tail _ ih => exact ⟨ih.within.2, ih.numbered.2.2⟩
    | source _ ih => exact ⟨ih.within _ rfl, ih.numbered.2 _ rfl⟩

theorem State.numbered_initial (console : Option Console) : (State.initial console).Numbered :=
  State.numbered_iff.mpr ⟨.initial console, trivial, Nat.one_pos⟩

/-! ## The judgement -/

/-- Machines that make objects with new numbers only. -/
def numbering : Judgement Counts where
  strict := False
  region := Counts.region
  Made := fun c id => id < c.objects
  Writable := fun _ _ => True
  HasSlot := fun _ _ _ => True
  Holds := Machine.Keeps (fun c s => c = s.counts ∧ s.Numbered) False

namespace NumberingRuns

variable {c : Counts} {α : Type} {m : Machine α} {Q : Counts → α → Prop}

theorem allows (e : Expr) : numbering.Allows e := ⟨False.elim, False.elim⟩

theorem admits_iff {v : Value} : numbering.Admits c v ↔ v.Made c :=
  ⟨fun h => ⟨h.within, h.numbered⟩, fun h => ⟨h.within, False.elim, False.elim, h.numbered⟩⟩

/-- What a machine of the judgement does, with its value and with the state that it leaves. -/
theorem holds_of_after
    (h : ∀ s, c = s.counts → s.Each (Value.Made s.counts) → s.register.Made s.counts →
      s.counts ≤ (m.after s).counts ∧ (m.after s).Each (Value.Made (m.after s).counts) ∧
      (m.after s).register.Made (m.after s).counts ∧ ∀ a s', m s = .ok a s' → Q s'.counts a) :
    numbering.Holds c m Q := by
  refine ⟨fun s kept => ?_⟩
  obtain ⟨rfl, numbered⟩ := kept
  obtain ⟨each, register⟩ := State.numbered_iff.mp numbered
  obtain ⟨grows, each', register', gives⟩ := h s rfl each register
  have numbered' := State.numbered_iff.mpr ⟨each', register'⟩
  cases run : m s with
  | ok a s' =>
    rw [Machine.after_of_ok run] at grows numbered'
    exact ⟨_, grows, ⟨rfl, numbered'⟩, gives a s' run⟩
  | error e s' =>
    rw [Machine.after_of_error run] at grows numbered'
    exact ⟨_, grows, ⟨rfl, numbered'⟩, False.elim⟩

/-- A machine that does not fail and leaves the register alone. -/
theorem holds_of_ok {value : State → α} {next : State → State}
    (run : ∀ s, m s = .ok (value s) (next s)) (same : ∀ s, (next s).register = s.register)
    (h : ∀ s, c = s.counts → s.Each (Value.Made s.counts) → s.counts ≤ (next s).counts ∧
      (next s).Each (Value.Made (next s).counts) ∧ Q (next s).counts (value s)) :
    numbering.Holds c m Q := by
  refine holds_of_after fun s here each register => ?_
  obtain ⟨grows, each', gives⟩ := h s here each
  rw [Machine.after_of_ok (run s), same]
  refine ⟨grows, each', register.mono grows, fun a s' ended => ?_⟩
  rw [run] at ended
  cases ended
  exact gives

/-- A machine that leaves the store and the counts alone. -/
theorem holds_of_store
    (same : ∀ s, (m.after s).scopes = s.scopes ∧ (m.after s).vectors = s.vectors ∧
      (m.after s).nextObject = s.nextObject ∧ (m.after s).register = s.register)
    (h : ∀ s, s.Each (Value.Made s.counts) → s.register.Made s.counts →
      ∀ a s', m s = .ok a s' → Q s.counts a) :
    numbering.Holds c m Q := by
  refine holds_of_after fun s _ each made => ?_
  obtain ⟨scopes, vectors, objects, register⟩ := same s
  have counts : (m.after s).counts = s.counts := by
    rw [State.counts, State.counts, vectors, objects]
  refine ⟨le_of_eq counts.symm, ?_, ?_, fun a s' run => ?_⟩
  · rw [counts]
    exact each.of_store scopes vectors
  · rw [counts, register]
    exact made
  · rw [Machine.after_of_ok run] at counts
    rw [counts]
    exact h s each made a s' run

theorem newObjects {n : Nat} :
    numbering.Holds c (Machine.newObjects n) fun d id => ∀ i < n, numbering.Made d (id + i) := by
  refine holds_of_ok (fun s => Machine.newObjects_run s n) (fun _ => rfl) fun s _ each => ?_
  have grows : s.counts ≤ State.counts { s with nextObject := s.nextObject + n } :=
    ⟨Nat.le_add_right _ _, Nat.le_refl _⟩
  have kept := each.mono fun _ made => made.mono grows
  exact ⟨grows, kept.of_store rfl rfl, fun i new => Nat.add_lt_add_left new _⟩

theorem newVector {slots : Array Value} (made : ∀ v ∈ slots, numbering.Admits c v) :
    numbering.Holds c (Machine.newVector slots) numbering.Admits := by
  refine holds_of_ok (fun s => Machine.newVector_run s slots) (fun _ => rfl) fun s here each => ?_
  subst here
  have grows : s.counts ≤ State.counts { s with vectors := s.vectors.push slots } :=
    ⟨Nat.le_refl _, by simp [State.counts]⟩
  have kept := each.mono fun _ made => made.mono grows
  refine ⟨grows, kept.pushVector fun v inside => (admits_iff.mp (made v inside)).mono grows, ?_⟩
  exact admits_iff.mpr ⟨by simp [Value.Within, Counts.region, State.counts], trivial⟩

theorem newScope {names : List String} {values : List Value} {parent : Option ScopeId}
    (same : names.length = values.length) (made : ∀ v ∈ values, numbering.Admits c v) :
    numbering.Holds c (Machine.newScope names values parent) numbering.Writable := by
  refine holds_of_ok (fun s => Machine.newScope_run s parent same) (fun _ => rfl)
    fun s here each => ?_
  subst here
  exact ⟨le_refl _, each.pushScope (.made fun v given => admits_iff.mp (made v given)), trivial⟩

theorem putAll {env : ScopeId} {names : List String} {values : List Value}
    (made : ∀ v ∈ values, numbering.Admits c v) :
    numbering.Holds c (Machine.putAll env names values) fun _ _ => True := by
  refine holds_of_ok (fun s => Machine.putAll_run s env names values) (fun _ => rfl)
    fun s here each => ?_
  subst here
  exact ⟨le_refl _, each.putAll (fun v given => admits_iff.mp (made v given)) env names, trivial⟩

theorem setMemo {env : ScopeId} {v : Value} (made : numbering.Admits c v) :
    numbering.Holds c (Machine.setMemo env v) fun _ _ => True := by
  refine holds_of_ok (fun s => Machine.setMemo_run s env v) (fun _ => rfl) fun s here each => ?_
  subst here
  exact ⟨le_refl _, each.setMemo (admits_iff.mp made) env, trivial⟩

theorem setSlot {id : VectorId} {i : Nat} {v : Value} (made : numbering.Admits c v) :
    numbering.Holds c (Machine.setSlot id i v) fun _ _ => True := by
  refine holds_of_after fun s here each register => ?_
  subst here
  rw [Machine.after, Machine.setSlot_run]
  by_cases inside : i < (s.vectors.slots id).size
  · have counts : (s.setSlot id i v).counts = s.counts := by simp [State.counts, State.setSlot]
    rw [if_pos inside]
    refine ⟨le_of_eq counts.symm, ?_, ?_, fun _ _ _ => trivial⟩
    · rw [counts]
      exact each.setSlot (admits_iff.mp made) id i
    · rw [counts]
      exact register
  · rw [if_neg inside]
    exact ⟨le_refl _, each, register, fun _ _ _ => trivial⟩

theorem setRegister {v : Value} (made : numbering.Admits c v) :
    numbering.Holds c (Machine.setRegister v) fun _ _ => True := by
  refine holds_of_after fun s here each _ => ?_
  subst here
  rw [Machine.after_of_ok (Machine.setRegister_run s v)]
  exact ⟨le_refl _, each.of_store rfl rfl, admits_iff.mp made, fun _ _ _ => trivial⟩

theorem lookup {env : ScopeId} {name : String} :
    numbering.Holds c (Machine.lookup env name) numbering.Admits := by
  refine holds_of_store (fun s => ?_) fun s each _ v s' run => ?_
  · rw [Machine.after, Machine.lookup_run]
    cases s.lookup? env name <;> exact ⟨rfl, rfl, rfl, rfl⟩
  · exact admits_iff.mpr (each.lookup (Machine.lookup_eq_ok.mp run).1)

theorem slot {id : VectorId} {i : Nat} :
    numbering.Holds c (Machine.slot id i) numbering.Admits := by
  refine holds_of_store (fun s => ?_) fun s each _ v s' run => ?_
  · rw [Machine.after, Machine.slot_run]
    cases (s.vectors.slots id)[i]? <;> exact ⟨rfl, rfl, rfl, rfl⟩
  · rw [Machine.slot_run] at run
    cases found : (s.vectors.slots id)[i]? with
    | some u =>
      rw [found] at run
      cases run
      exact admits_iff.mpr (each.slot found)
    | none =>
      rw [found] at run
      cases run

theorem binary {symbol : String} {l r : Value} :
    numbering.Holds c (Machine.binary symbol l r) fun _ _ => True := by
  refine holds_of_store (fun s => ?_) fun _ _ _ _ _ _ => trivial
  rw [Machine.after, Machine.binary_run]
  cases applyBinary s.vectors symbol l r <;> exact ⟨rfl, rfl, rfl, rfl⟩

theorem readLine : numbering.Holds c Machine.readLine fun _ _ => True := by
  refine holds_of_store (fun s => ?_) fun _ _ _ _ _ _ => trivial
  obtain ⟨console, same⟩ := Machine.readLine_after s
  rw [same]
  exact ⟨rfl, rfl, rfl, rfl⟩

theorem readInteger : numbering.Holds c Machine.readInteger fun _ _ => True := by
  refine holds_of_store (fun s => ?_) fun _ _ _ _ _ _ => trivial
  obtain ⟨console, same⟩ := Machine.readInteger_after s
  rw [same]
  exact ⟨rfl, rfl, rfl, rfl⟩

theorem lawful : numbering.Lawful where
  scope_mono := fun _ _ => trivial
  vector_mono := fun later made => Nat.lt_of_lt_of_le made later.2
  made_mono := fun later made => Nat.lt_of_lt_of_le made later.1
  writable_mono := fun _ _ => trivial
  slot_mono := fun _ _ => trivial
  writable_scope := fun _ => trivial
  pure := Machine.keeps_pure
  fail := fun _ => Machine.keeps_fail False.elim
  outgrown := fun _ => Machine.keeps_fail False.elim
  bind := Machine.keeps_bind
  newObjects := newObjects
  newVector := newVector
  newScope := fun same made _ => newScope same made
  lookup := fun _ => lookup
  putAll := fun _ => putAll
  memo? := fun _ => holds_of_store (fun _ => ⟨rfl, rfl, rfl, rfl⟩) fun s each _ o s' run => by
    cases run
    exact ⟨fun v kept => admits_iff.mpr (each.memo kept), fun _ => trivial⟩
  setMemo := fun _ _ => setMemo
  vectorSize := fun _ =>
    holds_of_store (fun _ => ⟨rfl, rfl, rfl, rfl⟩) fun _ _ _ _ _ _ _ _ => trivial
  slot := fun _ => slot
  setSlot := fun _ => setSlot
  register := fun _ => holds_of_store (fun _ => ⟨rfl, rfl, rfl, rfl⟩) fun s _ made v s' run => by
    cases run
    exact admits_iff.mpr made
  setRegister := setRegister
  write := holds_of_store (fun _ => ⟨rfl, rfl, rfl, rfl⟩) fun _ _ _ _ _ _ => trivial
  note := holds_of_store (fun _ => ⟨rfl, rfl, rfl, rfl⟩) fun _ _ _ _ _ _ => trivial
  format := fun _ => holds_of_store (fun _ => ⟨rfl, rfl, rfl, rfl⟩) fun _ _ _ _ _ _ => trivial
  binary := fun _ _ => binary
  readLine := readLine
  readInteger := readInteger

/-- What a machine of the judgement leaves behind. -/
theorem numbered_after (h : numbering.Holds c m Q) {s : State} (here : c = s.counts)
    (numbered : s.Numbered) : s.counts ≤ (m.after s).counts ∧ (m.after s).Numbered := by
  have outcome := h.outcome s ⟨here, numbered⟩
  rw [Machine.after]
  cases run : m s with
  | ok a s' =>
    rw [run] at outcome
    obtain ⟨_, later, ⟨rfl, kept⟩, _⟩ := outcome
    exact ⟨here ▸ later, kept⟩
  | error e s' =>
    rw [run] at outcome
    obtain ⟨_, later, ⟨rfl, kept⟩, _⟩ := outcome
    exact ⟨here ▸ later, kept⟩

end NumberingRuns

/-! ## Runs -/

/-- Whatever is evaluated in a numbered state leaves a numbered state behind. -/
theorem evalWithin_numbered {s : State} (numbered : s.Numbered) (bound : Nat) (e : Expr)
    (env : ScopeId) : ((evalWithin bound e env).after s).Numbered :=
  (NumberingRuns.numbered_after
    (NumberingRuns.lawful.evaluates bound (NumberingRuns.allows e) trivial) rfl numbered).2

theorem evalWithin_made {s s' : State} (numbered : s.Numbered) {bound : Nat} {e : Expr} {env : ScopeId}
    {v : Value} (run : evalWithin bound e env s = .ok v s') : v.Made s'.counts := by
  have law := NumberingRuns.lawful
  have holds : numbering.Holds s.counts (evalWithin bound e env) numbering.Admits :=
    law.evaluates bound (NumberingRuns.allows e) trivial
  have outcome := holds.outcome s ⟨rfl, numbered⟩
  rw [run] at outcome
  obtain ⟨_, _, ⟨rfl, _⟩, made⟩ := outcome
  exact NumberingRuns.admits_iff.mp made

theorem evaluateProgram_numbered {s : State} (numbered : s.Numbered) (p : Program) :
    ((evaluateProgram (some p)).after s).Numbered := by
  have law := NumberingRuns.lawful
  have body {c : Counts} : numbering.Holds c (p.evaluate State.global) numbering.Admits :=
    law.block (law.evaluates nestingLimit) (fun _ _ => ⟨False.elim, False.elim⟩) trivial
  have run : numbering.Holds s.counts (evaluateProgram (some p)) numbering.Admits := by
    unfold evaluateProgram
    simp only []
    split
    · exact law.bind law.note fun _ _ _ _ => body
    · exact body
  exact (NumberingRuns.numbered_after run rfl numbered).2

/-- In every state that runs reach, all values in the store have been made. -/
theorem Reached.numbered {console : Option Console} {s : State} (h : Reached console s) :
    s.Numbered := by
  induction h with
  | start => exact State.numbered_initial console
  | next _ _ ih => exact evaluateProgram_numbered ih _

end Smpl

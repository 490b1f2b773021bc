import Mathlib.Order.Defs.PartialOrder
import Smpl.Machine.Eval
import Smpl.Proofs.Exhaustive

/-!
# Judging machines

Many facts about evaluation are proved by the same walk over all forms of expressions: what a run
may write, which values it can meet, on what its outcome depends. This module does the walk once.

A *judgement* (`Judgement`) says of a machine that it is fine in a world and what its value then
satisfies. Worlds grow as a run goes on; they carry what is known of the state so far. A judgement
comes with
* the region of scopes and vectors that values may refer to, and the numbers that objects have;
* the scopes in which evaluation may take place, those of them whose memo may be set, and the slots
  that may be read and written;
* whether it is strict, that is, whether it is only about complete programs, sound values and
  expected failures;
* whether it is total, that is, whether it is only about exhaustive programs and values. These never
  read the register, so a total judgement need not say anything about it.

It is *lawful* (`Judgement.Lawful`) if it can be put together along the sequence of two machines and
holds of each elementary one. The values that it admits are those that lie in the region and are
sound or exhaustive if it asks for that.
-/

namespace Smpl

/-! ## Regions -/

/-- Scopes and vectors that values may refer to. -/
structure Region where
  scope : ScopeId → Prop
  vector : VectorId → Prop

/-- The scope of a closure lies in a region. -/
def Procedure.Within (r : Region) (p : Procedure) : Prop := ∀ k ∈ p.scope, r.scope k

/-- All scopes and vectors that a value refers to lie in a region. -/
def Value.Within (r : Region) : Value → Prop
  | .nothing => True
  | .scalar _ _ => True
  | .empty => True
  | .pair _ first second => first.Within r ∧ second.Within r
  | .cell _ head tail => head.Within r ∧ tail.Within r
  | .vector id => r.vector id
  | .generator _ _ source => ∀ p ∈ source, p.Within r
  | .procedure p => p.Within r

theorem Value.Within.mono {r r' : Region} (scopes : ∀ k, r.scope k → r'.scope k)
    (vectors : ∀ id, r.vector id → r'.vector id) {v : Value} (h : v.Within r) : v.Within r' := by
  induction v with
  | nothing => trivial
  | scalar _ _ => trivial
  | empty => trivial
  | pair _ _ _ ih₁ ih₂ => exact ⟨ih₁ h.1, ih₂ h.2⟩
  | cell _ _ _ ih₁ ih₂ => exact ⟨ih₁ h.1, ih₂ h.2⟩
  | vector id => exact vectors id h
  | generator _ _ source => exact fun p hp k hk => scopes k (h p hp k hk)
  | procedure p => exact fun k hk => scopes k (h k hk)

/-- All scopes and vectors. -/
def Region.all : Region := ⟨fun _ => True, fun _ => True⟩

theorem Value.within_all (v : Value) : v.Within Region.all := by
  induction v with
  | pair _ _ _ ih₁ ih₂ => exact ⟨ih₁, ih₂⟩
  | cell _ _ _ ih₁ ih₂ => exact ⟨ih₁, ih₂⟩
  | generator _ _ _ => exact fun _ _ _ _ => trivial
  | procedure _ => exact fun _ _ => trivial
  | _ => trivial

/-! ## Numbers of objects -/

/-- The objects that a value consists of, vectors apart, have numbers of a kind. -/
def Value.Numbered (known : ObjectId → Prop) : Value → Prop
  | .nothing => True
  | .scalar id _ => known id
  | .empty => True
  | .pair id first second => known id ∧ first.Numbered known ∧ second.Numbered known
  | .cell id head tail => known id ∧ head.Numbered known ∧ tail.Numbered known
  | .vector _ => True
  | .generator id _ source => known id ∧ ∀ p ∈ source, known p.id
  | .procedure p => known p.id

theorem Value.Numbered.mono {known known' : ObjectId → Prop} (more : ∀ id, known id → known' id)
    {v : Value} (h : v.Numbered known) : v.Numbered known' := by
  induction v with
  | nothing => trivial
  | scalar _ _ => exact more _ h
  | empty => trivial
  | pair _ _ _ ih₁ ih₂ => exact ⟨more _ h.1, ih₁ h.2.1, ih₂ h.2.2⟩
  | cell _ _ _ ih₁ ih₂ => exact ⟨more _ h.1, ih₁ h.2.1, ih₂ h.2.2⟩
  | vector _ => trivial
  | generator _ _ source => exact ⟨more _ h.1, fun p hp => more _ (h.2 p hp)⟩
  | procedure p => exact more _ h

theorem Value.numbered_all (v : Value) : v.Numbered fun _ => True := by
  induction v with
  | pair _ _ _ ih₁ ih₂ => exact ⟨trivial, ih₁, ih₂⟩
  | cell _ _ _ ih₁ ih₂ => exact ⟨trivial, ih₁, ih₂⟩
  | generator _ _ _ => exact ⟨trivial, fun _ _ => trivial⟩
  | _ => trivial

/-! ## Judgements -/

/-- A way to judge machines. -/
structure Judgement (World : Type) [Preorder World] where
  strict : Prop
  total : Prop := False
  region : World → Region
  Made : World → ObjectId → Prop := fun _ _ => True
  Writable : World → ScopeId → Prop
  Fillable : ScopeId → Prop := fun _ => True
  HasSlot : World → VectorId → Nat → Prop
  Holds {α : Type} : World → Machine α → (World → α → Prop) → Prop

/-- The only world of a judgement that knows no more as a run goes on. -/
inductive OneWorld where
  | only

instance : Preorder OneWorld where
  le _ _ := True
  le_refl _ := trivial
  le_trans _ _ _ _ _ := trivial

namespace Judgement

variable {World : Type} [Preorder World] (J : Judgement World)

/-- The expressions of a judgement. -/
structure Allows (e : Expr) : Prop where
  complete : J.strict → e.Complete
  exhaustive : J.total → e.Exhaustive

/-- The statements of a judgement. -/
structure AllowsStmt (s : Stmt) : Prop where
  complete : J.strict → s.Complete
  exhaustive : J.total → ∀ p ∈ s.parts, p.Exhaustive

/-- The values of a judgement. -/
structure Admits (w : World) (v : Value) : Prop where
  within : v.Within (J.region w)
  sound : J.strict → v.Sound
  exhaustive : J.total → v.Exhaustive
  numbered : v.Numbered (J.Made w)

/-- What may enclose a new scope. -/
def Encloses (w : World) (parent : Option ScopeId) : Prop :=
  (∀ k ∈ parent, (J.region w).scope k) ∧ (J.strict → parent.isSome)

/-- A judgement that holds of elementary machines and of sequences. -/
structure Lawful : Prop where
  -- What is known of a world is known of every later one.
  scope_mono {w w' : World} {k : ScopeId} :
    w ≤ w' → (J.region w).scope k → (J.region w').scope k
  vector_mono {w w' : World} {id : VectorId} :
    w ≤ w' → (J.region w).vector id → (J.region w').vector id
  made_mono {w w' : World} {id : ObjectId} : w ≤ w' → J.Made w id → J.Made w' id
  writable_mono {w w' : World} {k : ScopeId} : w ≤ w' → J.Writable w k → J.Writable w' k
  slot_mono {w w' : World} {id : VectorId} {i : Nat} :
    w ≤ w' → J.HasSlot w id i → J.HasSlot w' id i
  writable_scope {w : World} {k : ScopeId} : J.Writable w k → (J.region w).scope k
  -- Machines are put together.
  pure {α : Type} {w : World} {a : α} {Q : World → α → Prop} :
    Q w a → J.Holds w (pure a) Q
  fail {α : Type} {w : World} {e : Failure} {Q : World → α → Prop} :
    (J.strict → e.expected) → J.Holds w (throw e) Q
  outgrown {α : Type} {w : World} {e : Failure} {Q : World → α → Prop} :
    e.outgrown → J.Holds w (throw e) Q
  bind {α β : Type} {w : World} {m : Machine α} {f : α → Machine β} {P : World → α → Prop}
      {Q : World → β → Prop} :
    J.Holds w m P → (∀ a w', w ≤ w' → P w' a → J.Holds w' (f a) Q) → J.Holds w (m >>= f) Q
  -- One rule for each elementary machine.
  newObjects {w : World} {n : Nat} :
    J.Holds w (Machine.newObjects n) fun w' id => ∀ i < n, J.Made w' (id + i)
  newVector {w : World} {slots : Array Value} :
    (∀ v ∈ slots, J.Admits w v) → J.Holds w (Machine.newVector slots) J.Admits
  newScope {w : World} {names : List String} {values : List Value} {parent : Option ScopeId} :
    names.length = values.length → (∀ v ∈ values, J.Admits w v) → J.Encloses w parent →
    J.Holds w (Machine.newScope names values parent) J.Writable
  lookup {w : World} {env : ScopeId} {name : String} :
    J.Writable w env → J.Holds w (Machine.lookup env name) J.Admits
  putAll {w : World} {env : ScopeId} {names : List String} {values : List Value} :
    J.Writable w env → (∀ v ∈ values, J.Admits w v) →
    J.Holds w (Machine.putAll env names values) fun _ _ => True
  memo? {w : World} {env : ScopeId} :
    J.Writable w env → J.Holds w (Machine.memo? env)
      fun w' o => (∀ v ∈ o, J.Admits w' v) ∧ (o = none → J.Fillable env)
  setMemo {w : World} {env : ScopeId} {v : Value} :
    J.Writable w env → J.Fillable env → J.Admits w v →
    J.Holds w (Machine.setMemo env v) fun _ _ => True
  vectorSize {w : World} {id : VectorId} :
    (J.region w).vector id →
    J.Holds w (Machine.vectorSize id) fun w' n => ∀ i < n, J.HasSlot w' id i
  slot {w : World} {id : VectorId} {i : Nat} :
    J.HasSlot w id i → J.Holds w (Machine.slot id i) J.Admits
  setSlot {w : World} {id : VectorId} {i : Nat} {v : Value} :
    J.HasSlot w id i → J.Admits w v → J.Holds w (Machine.setSlot id i v) fun _ _ => True
  register {w : World} : ¬ J.total → J.Holds w Machine.register J.Admits
  setRegister {w : World} {v : Value} :
    J.Admits w v → J.Holds w (Machine.setRegister v) fun _ _ => True
  write {w : World} {text : String} : J.Holds w (Machine.write text) fun _ _ => True
  note {w : World} {level : LogLevel} {text : String} :
    J.Holds w (Machine.note level text) fun _ _ => True
  format {w : World} {v : Value} :
    J.Admits w v → J.Holds w (Machine.format v) fun _ _ => True
  binary {w : World} {symbol : String} {l r : Value} :
    J.Admits w l → J.Admits w r → J.Holds w (Machine.binary symbol l r) fun _ _ => True
  readLine {w : World} : J.Holds w Machine.readLine fun _ _ => True
  readInteger {w : World} : J.Holds w Machine.readInteger fun _ _ => True

/-- An evaluator that is fine in every world and scope in which evaluation may take place. -/
def Evaluates (eval : Evaluator) : Prop :=
  ∀ ⦃w : World⦄ ⦃e : Expr⦄ ⦃env : ScopeId⦄, J.Allows e → J.Writable w env →
    J.Holds w (eval e env) J.Admits

variable {J}

/-! ## Allowed programs -/

theorem Allows.part {e p : Expr} (h : J.Allows e) (inside : p ∈ e.parts) : J.Allows p :=
  ⟨fun hs => (h.complete hs).part inside, fun ht => (h.exhaustive ht).part inside⟩

theorem AllowsStmt.part {s : Stmt} {p : Expr} (h : J.AllowsStmt s) (inside : p ∈ s.parts) :
    J.Allows p :=
  ⟨fun hs => (h.complete hs).part inside, fun ht => h.exhaustive ht p inside⟩

theorem Allows.statement {body : List Stmt} (h : J.Allows (.block body)) {s : Stmt}
    (member : s ∈ body) : J.AllowsStmt s where
  complete := fun hs => by
    cases h.complete hs with
    | block all => exact all s member
  exhaustive := fun ht p inside =>
    (h.exhaustive ht).part (List.mem_flatMap.mpr ⟨s, member, inside⟩)

/-! ## Admitted values -/

theorem Admits.mono (law : J.Lawful) {w w' : World} (hw : w ≤ w') {v : Value}
    (h : J.Admits w v) : J.Admits w' v :=
  { h with
    within := h.within.mono (fun _ => law.scope_mono hw) (fun _ => law.vector_mono hw)
    numbered := h.numbered.mono fun _ => law.made_mono hw }

theorem Admits.all_mono (law : J.Lawful) {w w' : World} (hw : w ≤ w') {vs : List Value}
    (h : ∀ v ∈ vs, J.Admits w v) : ∀ v ∈ vs, J.Admits w' v :=
  fun v hv => (h v hv).mono law hw

theorem admits_scalar {w : World} {id : ObjectId} {contents : Scalar} (made : J.Made w id) :
    J.Admits w (.scalar id contents) := ⟨trivial, fun _ => trivial, fun _ => trivial, made⟩

theorem admits_empty {w : World} : J.Admits w .empty :=
  ⟨trivial, fun _ => trivial, fun _ => trivial, trivial⟩

theorem admits_pair {w : World} {id : ObjectId} {a b : Value} :
    J.Admits w (.pair id a b) ↔ J.Made w id ∧ J.Admits w a ∧ J.Admits w b := by
  constructor
  · rintro ⟨⟨ha, hb⟩, sound, exhaustive, made, na, nb⟩
    exact ⟨made, ⟨ha, fun hs => (sound hs).1, fun ht => (exhaustive ht).1, na⟩,
      ⟨hb, fun hs => (sound hs).2, fun ht => (exhaustive ht).2, nb⟩⟩
  · rintro ⟨made, ⟨ha, sa, ea, na⟩, ⟨hb, sb, eb, nb⟩⟩
    exact ⟨⟨ha, hb⟩, fun hs => ⟨sa hs, sb hs⟩, fun ht => ⟨ea ht, eb ht⟩, made, na, nb⟩

theorem admits_cell {w : World} {id : ObjectId} {head tail : Value} :
    J.Admits w (.cell id head tail) ↔
      J.Made w id ∧ J.Admits w head ∧ J.Admits w tail ∧ (J.strict → tail.isListLike) := by
  constructor
  · rintro ⟨⟨hh, ht⟩, sound, exhaustive, made, nh, nt⟩
    exact ⟨made, ⟨hh, fun hs => (sound hs).1, fun total => (exhaustive total).1, nh⟩,
      ⟨ht, fun hs => (sound hs).2.1, fun total => (exhaustive total).2, nt⟩,
      fun hs => (sound hs).2.2⟩
  · rintro ⟨made, ⟨hh, sh, eh, nh⟩, ⟨ht, st, et, nt⟩, listLike⟩
    exact ⟨⟨hh, ht⟩, fun hs => ⟨sh hs, st hs, listLike hs⟩, fun total => ⟨eh total, et total⟩,
      made, nh, nt⟩

theorem admits_cons {w : World} {id : ObjectId} {head tail : Value} (made : J.Made w id)
    (hh : J.Admits w head) (ht : J.Admits w tail) : J.Admits w (Value.cons id head tail) := by
  unfold Value.cons
  split
  · next listLike => exact admits_cell.mpr ⟨made, hh, ht, fun _ => listLike⟩
  · exact admits_pair.mpr ⟨made, hh, ht⟩

theorem isListLike_listFrom (id : ObjectId) (values : List Value) :
    (Value.listFrom id values).isListLike := by
  cases values with
  | nil => rfl
  | cons _ _ => rfl

theorem admits_listFrom {w : World} {values : List Value} (h : ∀ v ∈ values, J.Admits w v)
    {id : ObjectId} (made : ∀ i < values.length, J.Made w (id + i)) :
    J.Admits w (Value.listFrom id values) := by
  induction values generalizing id with
  | nil => exact admits_empty
  | cons v rest ih =>
    have first : J.Made w id := made 0 (Nat.succ_pos _)
    have later : ∀ i < rest.length, J.Made w (id + 1 + i) := fun i hi => by
      have next := made (i + 1) (Nat.succ_lt_succ hi)
      rwa [Nat.add_comm i 1, ← Nat.add_assoc] at next
    have tail := ih (fun u hu => h u (List.mem_cons_of_mem _ hu)) later
    exact admits_cell.mpr ⟨first, h v List.mem_cons_self, tail, fun _ => isListLike_listFrom _ _⟩

/-- The elements of an admitted list are admitted, and so is what stands in place of a list. -/
theorem admits_elements {w : World} {v : Value} (h : J.Admits w v) :
    (∀ vs, v.elements = .ok vs → ∀ u ∈ vs, J.Admits w u) ∧
    (∀ u, v.elements = .error u → J.Admits w u) := by
  induction v with
  | empty => simp [Value.elements]
  | cell _ head tail _ ih =>
    obtain ⟨_, hh, ht, _⟩ := admits_cell.mp h
    obtain ⟨ok, error⟩ := ih ht
    cases found : tail.elements with
    | ok rest => simpa [Value.elements, found, hh] using ok rest found
    | error u => simp [Value.elements, found, error u found]
  | _ => simpa [Value.elements] using h

theorem admits_spine {w : World} {v : Value} (h : J.Admits w v) :
    ∀ u ∈ Eval.spine v, J.Admits w u := by
  induction v with
  | cell _ head tail _ ih =>
    obtain ⟨_, hh, ht, _⟩ := admits_cell.mp h
    simpa [Eval.spine, hh] using ih ht
  | _ => simp [Eval.spine]

theorem Admits.first {w : World} {v u : Value} (h : J.Admits w v) (hu : Eval.first v = .ok u) :
    J.Admits w u := by
  unfold Eval.first at hu
  split at hu <;> cases hu
  · exact (admits_pair.mp h).2.1
  · exact (admits_cell.mp h).2.1
  · exact admits_empty

theorem Admits.second {w : World} {v u : Value} (h : J.Admits w v) (hu : Eval.second v = .ok u) :
    J.Admits w u := by
  unfold Eval.second at hu
  split at hu <;> cases hu
  · exact (admits_pair.mp h).2.2
  · exact (admits_cell.mp h).2.2.1
  · exact admits_empty

/-! ## Admitted closures -/

theorem Encloses.mono (law : J.Lawful) {w w' : World} (hw : w ≤ w') {parent : Option ScopeId}
    (h : J.Encloses w parent) : J.Encloses w' parent :=
  ⟨fun k hk => law.scope_mono hw (h.1 k hk), h.2⟩

theorem Admits.encloses {w : World} {p : Procedure} (h : J.Admits w (.procedure p)) :
    J.Encloses w p.scope := ⟨h.within, fun hs => (h.sound hs).closed⟩

theorem Admits.body {w : World} {p : Procedure} {d : Declaration} (h : J.Admits w (.procedure p))
    (hd : p.declaration = some d) : J.Allows d.body := by
  refine ⟨fun hs => ?_, fun ht => h.exhaustive ht d hd⟩
  obtain ⟨d', hd', complete⟩ := (h.sound hs).declared
  cases hd.symm.trans hd'
  exact complete

theorem Admits.declared {w : World} {p : Procedure} (h : J.Admits w (.procedure p))
    (hd : p.declaration = none) : ¬ J.strict := by
  intro hs
  obtain ⟨d, hd', _⟩ := (h.sound hs).declared
  cases hd.symm.trans hd'

/-- The procedure of a generator. -/
theorem Admits.source {w : World} {id : ObjectId} {count : Int64} {p : Procedure}
    (h : J.Admits w (.generator id count (some p))) : J.Admits w (.procedure p) := by
  refine ⟨h.within p rfl, fun hs => ?_, fun ht => h.exhaustive ht p rfl, h.numbered.2 p rfl⟩
  obtain ⟨_, q, hq, sound⟩ := h.sound hs
  cases hq
  exact sound

/-- A value that an operation does not take makes an expected failure. -/
theorem Admits.expected {w : World} {v : Value} (h : J.Admits w v) {operation : String}
    {kinds : List Kind} : J.strict → (Failure.kindOf operation v kinds).expected :=
  fun hs => (h.sound hs).expected_kindOf operation kinds

end Judgement

/-! ## Invariants

The judgements about a single run: a machine keeps an invariant, whether it ends in a value or a
failure. The world may grow on the way. -/

namespace Machine

/-- A machine that keeps an invariant and gives a value as it is asked for. -/
structure Keeps {World : Type} [Preorder World] (inv : World → State → Prop) (strict : Prop)
    {α : Type} (w : World) (m : Machine α) (Q : World → α → Prop) : Prop where
  outcome : ∀ s, inv w s →
    match m s with
    | .ok a s' => ∃ w', w ≤ w' ∧ inv w' s' ∧ Q w' a
    | .error e s' => ∃ w', w ≤ w' ∧ inv w' s' ∧ (strict → e.expected ∨ e.outgrown)

section Keeps

variable {World : Type} [Preorder World] {inv : World → State → Prop} {strict : Prop}
  {α β : Type} {w : World}

theorem keeps_pure {a : α} {Q : World → α → Prop} (h : Q w a) : Keeps inv strict w (pure a) Q :=
  ⟨fun _ kept => ⟨w, le_refl w, kept, h⟩⟩

theorem keeps_fail {e : Failure} {Q : World → α → Prop} (h : strict → e.expected ∨ e.outgrown) :
    Keeps inv strict w (throw e) Q :=
  ⟨fun _ kept => ⟨w, le_refl w, kept, h⟩⟩

theorem keeps_bind {m : Machine α} {f : α → Machine β} {P : World → α → Prop}
    {Q : World → β → Prop} (first : Keeps inv strict w m P)
    (second : ∀ a w', w ≤ w' → P w' a → Keeps inv strict w' (f a) Q) :
    Keeps inv strict w (m >>= f) Q := by
  refine ⟨fun s kept => ?_⟩
  have outcome := first.outcome s kept
  cases run : m s with
  | ok a s₁ =>
    rw [run] at outcome
    -- The second machine starts in the world that the first one ends in.
    obtain ⟨w₁, later, kept₁, holds⟩ := outcome
    have rest := (second a w₁ later holds).outcome s₁ kept₁
    simp only [bind, EStateM.bind, run]
    split at rest
    · obtain ⟨w₂, later₂, rest⟩ := rest
      exact ⟨w₂, le_trans later later₂, rest⟩
    · obtain ⟨w₂, later₂, rest⟩ := rest
      exact ⟨w₂, le_trans later later₂, rest⟩
  | error e s₁ =>
    rw [run] at outcome
    simpa only [bind, EStateM.bind, run] using outcome

end Keeps

end Machine

/-! ## Lockstep

The judgements about two runs: from related states they end in the same value or the same failure,
and in related states. -/

/-- A machine whose runs from related states end alike, in related states, with a value as it is
asked for if they end in one. -/
structure Machine.Lockstep (inv : State → State → Prop) {α : Type} (m : Machine α) (Q : α → Prop) :
    Prop where
  runs : ∀ s t, inv s t → ∃ s' t', inv s' t' ∧
    ((∃ a, m s = .ok a s' ∧ m t = .ok a t' ∧ Q a) ∨ ∃ e, m s = .error e s' ∧ m t = .error e t')

namespace Machine

variable {inv : State → State → Prop} {α β : Type} {m : Machine α} {Q : α → Prop}

theorem lockstep_fail {e : Failure} : Lockstep inv (throw e) Q :=
  ⟨fun s t alike => ⟨s, t, alike, .inr ⟨e, rfl, rfl⟩⟩⟩

theorem lockstep_bind {f : α → Machine β} {P : β → Prop} (first : Lockstep inv m Q)
    (second : ∀ a, Q a → Lockstep inv (f a) P) : Lockstep inv (m >>= f) P := by
  refine ⟨fun s t alike => ?_⟩
  obtain ⟨s₁, t₁, alike₁, ⟨a, left, right, holds⟩ | ⟨e, left, right⟩⟩ := first.runs s t alike
  · have rest := (second a holds).runs s₁ t₁ alike₁
    simpa only [bind, EStateM.bind, left, right] using rest
  · exact ⟨s₁, t₁, alike₁, .inr ⟨e, by simp only [bind, EStateM.bind, left],
      by simp only [bind, EStateM.bind, right]⟩⟩

/-- A machine that does not fail. -/
theorem lockstep_of_ok {value : State → α} {next : State → State}
    (run : ∀ s, m s = .ok (value s) (next s))
    (h : ∀ s t, inv s t → value s = value t ∧ inv (next s) (next t) ∧ Q (value s)) :
    Lockstep inv m Q := by
  refine ⟨fun s t alike => ?_⟩
  obtain ⟨same, alike', holds⟩ := h s t alike
  refine ⟨next s, next t, alike', .inl ⟨value s, run s, ?_, holds⟩⟩
  rw [same]
  exact run t

end Machine

end Smpl

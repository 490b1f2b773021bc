import Smpl.Machine.Run
import Smpl.Proofs.Evaluation
import Smpl.Proofs.Runs

/-!
# What a run keeps of the store

Some facts are about the store alone, whatever values a run computes with: which scopes are written,
what a memo is, how long a vector is. Such a fact lasts if every single write keeps it
(`State.Upheld`):
* names are bound, and memos set, only in scopes of evaluation, and these are the scope that
  evaluation starts in and the scopes made on the way;
* a memo is set only in a scope that had none when its lazy expression was met.

Then every evaluation keeps it (`evalWithin_upholds`, `Node.evaluate_upholds`), and so does every
call (`callProcedure_upholds`), whether they end in a value or in a failure.
-/

namespace Smpl

/-- An invariant that every write to the store keeps. Evaluation takes place in scopes that are
`visited`; those of them that ever lack a memo are `fillable`. -/
structure State.Upheld (inv : State → Prop) (visited fillable : ScopeId → Prop) : Prop where
  beside {s s' : State} : inv s → s'.scopes = s.scopes → s'.vectors = s.vectors → inv s'
  newScope {s : State} (scope : Scope) :
    inv s → inv { s with scopes := s.scopes.push scope } ∧ visited s.scopes.size
  putAll {s : State} {env : ScopeId} (names : List String) (values : List Value) :
    inv s → visited env → inv (s.putAll env names values)
  unfilled {s : State} {env : ScopeId} :
    inv s → visited env → s.memo? env = none → fillable env
  setMemo {s : State} {env : ScopeId} (v : Value) :
    inv s → visited env → fillable env → inv (s.setMemo env v)
  newVector {s : State} (slots : Array Value) :
    inv s → inv { s with vectors := s.vectors.push slots }
  setSlot {s : State} (id : VectorId) (i : Nat) (v : Value) : inv s → inv (s.setSlot id i v)

/-! ## The judgement -/

/-- Machines that keep an invariant. Values may refer to anything; only where evaluation takes place
matters. -/
def upholding (inv : State → Prop) (visited fillable : ScopeId → Prop) : Judgement OneWorld where
  strict := False
  region := fun _ => Region.all
  Writable := fun _ => visited
  Fillable := fillable
  HasSlot := fun _ _ _ => True
  Holds := Machine.Keeps (fun _ => inv) False

namespace Upholding

variable {inv : State → Prop} {visited fillable : ScopeId → Prop} {w : OneWorld} {α : Type}
  {m : Machine α}

theorem allows (e : Expr) : (upholding inv visited fillable).Allows e := ⟨False.elim, False.elim⟩

theorem allowsStmt (s : Stmt) : (upholding inv visited fillable).AllowsStmt s :=
  ⟨False.elim, False.elim⟩

theorem admits (w : OneWorld) (v : Value) : (upholding inv visited fillable).Admits w v :=
  ⟨v.within_all, False.elim, False.elim, v.numbered_all⟩

/-- A machine whose every outcome keeps the invariant. -/
theorem holds_of_after {Q : OneWorld → α → Prop} (kept : ∀ s, inv s → inv (m.after s))
    (all : ∀ a, Q .only a) : (upholding inv visited fillable).Holds w m Q := by
  refine ⟨fun s hs => ?_⟩
  have after := kept s hs
  rw [Machine.after] at after
  cases run : m s with
  | ok a s' =>
    rw [run] at after
    exact ⟨w, le_refl w, after, all a⟩
  | error e s' =>
    rw [run] at after
    exact ⟨w, le_refl w, after, False.elim⟩

/-- What a machine of the judgement leaves behind. -/
theorem after_of_holds {Q : OneWorld → α → Prop}
    (h : (upholding inv visited fillable).Holds .only m Q) {s : State} (hs : inv s) :
    inv (m.after s) := by
  have outcome := h.outcome s hs
  rw [Machine.after]
  cases run : m s with
  | ok a s' =>
    rw [run] at outcome
    obtain ⟨_, _, kept, _⟩ := outcome
    exact kept
  | error e s' =>
    rw [run] at outcome
    obtain ⟨_, _, kept, _⟩ := outcome
    exact kept

variable (upheld : State.Upheld inv visited fillable)
include upheld

/-- A machine that does not change the store. -/
theorem holds_of_store {Q : OneWorld → α → Prop}
    (scopes : ∀ s, (m.after s).scopes = s.scopes) (vectors : ∀ s, (m.after s).vectors = s.vectors)
    (all : ∀ a, Q .only a) : (upholding inv visited fillable).Holds w m Q :=
  holds_of_after (fun s hs => upheld.beside hs (scopes s) (vectors s)) all

theorem newScope {names : List String} {values : List Value} {parent : Option ScopeId}
    (same : names.length = values.length) :
    (upholding inv visited fillable).Holds w (Machine.newScope names values parent)
      (upholding inv visited fillable).Writable := by
  refine ⟨fun s hs => ?_⟩
  rw [Machine.newScope_run s parent same]
  obtain ⟨kept, new⟩ := upheld.newScope _ hs
  exact ⟨w, le_refl w, kept, new⟩

theorem memo? {env : ScopeId} (here : visited env) :
    (upholding inv visited fillable).Holds w (Machine.memo? env)
      fun w' o => (∀ v ∈ o, (upholding inv visited fillable).Admits w' v) ∧
        (o = none → fillable env) := by
  refine ⟨fun s hs => ?_⟩
  rw [Machine.memo?_run]
  exact ⟨w, le_refl w, hs, fun v _ => admits w v, upheld.unfilled hs here⟩

theorem setSlot {id : VectorId} {i : Nat} {v : Value} :
    (upholding inv visited fillable).Holds w (Machine.setSlot id i v) fun _ _ => True := by
  refine holds_of_after (fun s hs => ?_) fun _ => trivial
  rw [Machine.after, Machine.setSlot_run]
  by_cases inside : i < (s.vectors.slots id).size
  · rw [if_pos inside]
    exact upheld.setSlot id i v hs
  · rw [if_neg inside]
    exact hs

theorem readLine :
    (upholding inv visited fillable).Holds w Machine.readLine fun _ _ => True := by
  refine holds_of_after (fun s hs => ?_) fun _ => trivial
  obtain ⟨console, same⟩ := Machine.readLine_after s
  rw [same]
  exact upheld.beside hs rfl rfl

theorem readInteger :
    (upholding inv visited fillable).Holds w Machine.readInteger fun _ _ => True := by
  refine holds_of_after (fun s hs => ?_) fun _ => trivial
  obtain ⟨console, same⟩ := Machine.readInteger_after s
  rw [same]
  exact upheld.beside hs rfl rfl

theorem lawful : (upholding inv visited fillable).Lawful where
  scope_mono := fun _ h => h
  vector_mono := fun _ h => h
  made_mono := fun _ h => h
  writable_mono := fun _ h => h
  slot_mono := fun _ h => h
  writable_scope := fun _ => trivial
  pure := Machine.keeps_pure
  fail := fun _ => Machine.keeps_fail False.elim
  outgrown := fun _ => Machine.keeps_fail False.elim
  bind := Machine.keeps_bind
  newObjects := holds_of_store upheld (fun _ => rfl) (fun _ => rfl) fun _ _ _ => trivial
  newVector := fun _ => holds_of_after (fun _ hs => upheld.newVector _ hs) (admits .only)
  newScope := fun same _ _ => newScope upheld same
  lookup := by
    intro w env name _
    refine holds_of_after (fun s hs => ?_) (admits .only)
    rw [Machine.after, Machine.lookup_run]
    cases s.lookup? env name <;> exact hs
  putAll := fun here _ => holds_of_after (fun _ hs => upheld.putAll _ _ hs here) fun _ => trivial
  memo? := fun here => memo? upheld here
  setMemo := fun here unfilled _ =>
    holds_of_after (fun _ hs => upheld.setMemo _ hs here unfilled) fun _ => trivial
  vectorSize := fun _ => holds_of_store upheld (fun _ => rfl) (fun _ => rfl) fun _ _ _ => trivial
  slot := by
    intro w id i _
    refine holds_of_after (fun s hs => ?_) (admits .only)
    rw [Machine.after, Machine.slot_run]
    cases (s.vectors.slots id)[i]? <;> exact hs
  setSlot := fun _ _ => setSlot upheld
  register := fun _ => holds_of_store upheld (fun _ => rfl) (fun _ => rfl) (admits .only)
  setRegister := fun _ => holds_of_store upheld (fun _ => rfl) (fun _ => rfl) fun _ => trivial
  write := holds_of_store upheld (fun _ => rfl) (fun _ => rfl) fun _ => trivial
  note := holds_of_store upheld (fun _ => rfl) (fun _ => rfl) fun _ => trivial
  format := fun _ => holds_of_store upheld (fun _ => rfl) (fun _ => rfl) fun _ => trivial
  binary := by
    intro w symbol l r _ _
    refine holds_of_after (fun s hs => ?_) fun _ => trivial
    rw [Machine.after, Machine.binary_run]
    cases applyBinary s.vectors symbol l r <;> exact hs
  readLine := readLine upheld
  readInteger := readInteger upheld

end Upholding

/-! ## Evaluation -/

section Evaluation

variable {inv : State → Prop} {visited fillable : ScopeId → Prop}
  (upheld : State.Upheld inv visited fillable) {env : ScopeId} {s : State}
include upheld

theorem evalWithin_upholds (bound : Nat) (e : Expr) (here : visited env) (hs : inv s) :
    inv ((evalWithin bound e env).after s) :=
  Upholding.after_of_holds
    ((Upholding.lawful upheld).evaluates bound (w := .only) (Upholding.allows e) here) hs

theorem Node.evaluate_upholds (n : Node) (here : visited env) (hs : inv s) :
    inv ((n.evaluate env).after s) := by
  have law := Upholding.lawful upheld
  have parts := law.evaluates nestingLimit
  cases n with
  | program p =>
    exact Upholding.after_of_holds
      (law.block (w := .only) parts (fun st _ => Upholding.allowsStmt st) here) hs
  | statement st =>
    exact Upholding.after_of_holds
      (law.statement (w := .only) parts (Upholding.allowsStmt st) here) hs
  | binding name value => exact hs
  | clause condition result => exact hs

theorem callProcedure_upholds (callee : Option Procedure) (arguments : List Value) (hs : inv s) :
    inv ((callProcedure callee arguments).after s) := by
  -- The body runs in a scope that the call makes, so it does not matter where the call stands.
  have law := Upholding.lawful upheld
  have parts := law.evaluates nestingLimit
  exact Upholding.after_of_holds (law.callProcedure (w := .only) parts
    (fun p _ => Upholding.admits .only (.procedure p)) False.elim
    fun v _ => Upholding.admits .only v) hs

end Evaluation

end Smpl

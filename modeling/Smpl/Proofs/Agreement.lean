import Smpl.Machine.Basic
import Smpl.Proofs.Judgement

/-!
# States that agree on a region

Two states may differ and yet agree on the scopes and vectors of a region (`State.Agree`). If the
region is closed (`State.Closed`), that is, holds all that its scopes and vectors refer to, then a
value within it looks the same in both states: its names have the same values, it prints the same
text and it equals the same values.

What can be reached from some values (`State.reached`) is the least closed region that the values
lie in.
-/

namespace Smpl

/-! ## Vectors -/

/-- Two vector stores with the same vectors in a region that holds all that those refer to. -/
structure Vectors.Agree (r : Region) (a b : Vectors) : Prop where
  count : a.size = b.size
  same : ∀ id, r.vector id → a[id]? = b[id]?
  closed : ∀ (id : VectorId) (slots : Array Value), r.vector id → a[id]? = some slots →
    ∀ v ∈ slots, v.Within r

namespace Vectors.Agree

variable {r : Region} {a b : Vectors}

theorem slots_eq (h : Vectors.Agree r a b) {id : VectorId} (inside : r.vector id) :
    a.slots id = b.slots id := by
  rw [Vectors.slots, Vectors.slots, Array.getD_eq_getD_getElem?, Array.getD_eq_getD_getElem?,
    h.same id inside]

theorem slots_within (h : Vectors.Agree r a b) {id : VectorId} (inside : r.vector id) :
    ∀ v ∈ a.slots id, v.Within r := by
  rw [Vectors.slots, Array.getD_eq_getD_getElem?]
  cases found : a[id]? with
  | none => simp
  | some slots => exact h.closed id slots inside found

end Vectors.Agree

namespace Value

variable {r : Region} {a b : Vectors}

/-! ### Printing -/

theorem formatBy_congr {visit visit' : VectorId → Printing → FormatOutcome}
    (same : ∀ id, r.vector id → visit id = visit' id) {v : Value} (within : v.Within r)
    (inTail : Bool) (table : Printing) :
    formatBy visit inTail v table = formatBy visit' inTail v table := by
  induction v generalizing inTail table with
  | pair _ _ _ ih₁ ih₂ => simp only [formatBy, ih₁ within.1, ih₂ within.2]
  | cell _ _ _ ih₁ ih₂ => simp only [formatBy, ih₁ within.1, ih₂ within.2]
  | vector id => simp only [formatBy, same id within]
  | _ => simp only [formatBy]

theorem formatAll_congr {print print' : Value → Printing → FormatOutcome} {vs : List Value}
    (same : ∀ v ∈ vs, print v = print' v) (table : Printing) :
    formatAll print vs table = formatAll print' vs table := by
  induction vs generalizing table with
  | nil => rfl
  | cons v rest ih =>
    have tail := ih fun u later => same u (List.mem_cons_of_mem _ later)
    simp only [formatAll, same v List.mem_cons_self, tail]

theorem formatWithin_congr (h : Vectors.Agree r a b) (bound : Nat) {v : Value}
    (within : v.Within r) : formatWithin a bound v = formatWithin b bound v := by
  -- A smaller bound serves for the slots of a vector, which are within the region again.
  induction bound generalizing v with
  | zero => rfl
  | succ bound ih =>
    have visits (id : VectorId) (inside : r.vector id) :
        formatVector a (formatWithin a bound) id = formatVector b (formatWithin b bound) id := by
      funext table
      have slots : ∀ u ∈ (a.slots id).toList, formatWithin a bound u = formatWithin b bound u :=
        fun u slot => ih (h.slots_within inside u (Array.mem_toList_iff.mp slot))
      rw [formatVector, formatVector, formatAll_congr slots, h.slots_eq inside]
    funext table
    exact formatBy_congr visits within false table

theorem format_congr (h : Vectors.Agree r a b) {v : Value} (within : v.Within r) :
    v.format a = v.format b := by
  rw [format, format, formatBound, formatBound, h.count, formatWithin_congr h _ within]

/-! ### Comparing -/

theorem equalBy_congr {visit visit' : VectorId → VectorId → Comparing → EqualOutcome}
    (same : ∀ k l, r.vector k → r.vector l → visit k l = visit' k l) {v w : Value}
    (hv : v.Within r) (hw : w.Within r) (table : Comparing) :
    equalBy visit v w table = equalBy visit' v w table := by
  induction v generalizing w table with
  | pair _ _ _ ih₁ ih₂ =>
    cases w with
    | pair _ _ _ => simp only [equalBy, ih₁ hv.1 hw.1, ih₂ hv.2 hw.2]
    | _ => simp only [equalBy]
  | cell _ _ _ ih₁ ih₂ =>
    cases w with
    | cell _ _ _ => simp only [equalBy, ih₁ hv.1 hw.1, ih₂ hv.2 hw.2]
    | _ => simp only [equalBy]
  | vector k =>
    cases w with
    | vector l => simp only [equalBy, same k l hv hw]
    | _ => simp only [equalBy]
  | _ => cases w <;> simp only [equalBy]

theorem equalAll_congr {compare compare' : Value → Value → Comparing → EqualOutcome}
    {vs ws : List Value} (same : ∀ v ∈ vs, ∀ w ∈ ws, compare v w = compare' v w)
    (table : Comparing) : equalAll compare vs ws table = equalAll compare' vs ws table := by
  induction vs generalizing ws table with
  | nil => cases ws <;> rfl
  | cons v rest ih =>
    cases ws with
    | nil => rfl
    | cons w others =>
      have tail := @ih others fun u hu x hx =>
        same u (List.mem_cons_of_mem _ hu) x (List.mem_cons_of_mem _ hx)
      simp only [equalAll, same v List.mem_cons_self w List.mem_cons_self, tail]

theorem equalWithin_congr (h : Vectors.Agree r a b) (bound : Nat) {v w : Value}
    (hv : v.Within r) (hw : w.Within r) : equalWithin a bound v w = equalWithin b bound v w := by
  induction bound generalizing v w with
  | zero => rfl
  | succ bound ih =>
    have visits (k l : VectorId) (hk : r.vector k) (hl : r.vector l) :
        equalVectors a (equalWithin a bound) k l = equalVectors b (equalWithin b bound) k l := by
      funext table
      have slots : ∀ u ∈ (a.slots k).toList, ∀ x ∈ (a.slots l).toList,
          equalWithin a bound u x = equalWithin b bound u x :=
        fun u hu x hx => ih (h.slots_within hk u (Array.mem_toList_iff.mp hu))
          (h.slots_within hl x (Array.mem_toList_iff.mp hx))
      rw [equalVectors, equalVectors, ← h.slots_eq hk, ← h.slots_eq hl]
      simp only [equalAll_congr slots]
    funext table
    exact equalBy_congr visits hv hw table

theorem equal_congr (h : Vectors.Agree r a b) {v w : Value} (hv : v.Within r) (hw : w.Within r) :
    v.equal a w = v.equal b w := by
  rw [equal, equal, equalBound, equalBound, h.count, equalWithin_congr h _ hv hw]

end Value

theorem applyBinary_congr {r : Region} {a b : Vectors} (h : Vectors.Agree r a b) (symbol : String)
    {left right : Value} (hl : left.Within r) (hr : right.Within r) :
    applyBinary a symbol left right = applyBinary b symbol left right := by
  have same := Value.equal_congr h hl hr
  unfold applyBinary
  cases BinaryOp.ofSymbol? symbol with
  | none => rfl
  | some op => cases op <;> simp only [BinaryOp.apply, same]

/-! ## States -/

/-- Two scopes with the same bindings, parent and memo. The order of bindings does not matter. -/
structure Scope.Same (a b : Scope) : Prop where
  bindings : ∀ name, a.bindings.get? name = b.bindings.get? name
  parent : a.parent = b.parent
  memo : a.memo = b.memo

/-- All that a scope holds lies in a region. -/
structure Scope.Within (r : Region) (scope : Scope) : Prop where
  bindings : ∀ name v, scope.bindings.get? name = some v → v.Within r
  parent : ∀ k ∈ scope.parent, r.scope k
  memo : ∀ v ∈ scope.memo, v.Within r

theorem Scope.Within.mono {r r' : Region} (scopes : ∀ k, r.scope k → r'.scope k)
    (vectors : ∀ id, r.vector id → r'.vector id) {scope : Scope} (h : scope.Within r) :
    scope.Within r' where
  bindings := fun name v bound => (h.bindings name v bound).mono scopes vectors
  parent := fun k under => scopes k (h.parent k under)
  memo := fun v kept => (h.memo v kept).mono scopes vectors

/-- Two states with the same register, console and next numbers that agree on a region. -/
structure State.Agree (r : Region) (s t : State) : Prop where
  register : s.register = t.register
  console : s.console = t.console
  nextObject : s.nextObject = t.nextObject
  scopeCount : s.scopes.size = t.scopes.size
  vectorCount : s.vectors.size = t.vectors.size
  scopes : ∀ (k : ScopeId) (a : Scope), r.scope k → s.scopes[k]? = some a →
    ∃ b, t.scopes[k]? = some b ∧ a.Same b
  vectors : ∀ id, r.vector id → s.vectors[id]? = t.vectors[id]?

/-- A region that holds all that its scopes and vectors refer to. -/
structure State.Closed (r : Region) (s : State) : Prop where
  scopes : ∀ (k : ScopeId) (scope : Scope), r.scope k → s.scopes[k]? = some scope → scope.Within r
  slots : ∀ (id : VectorId) (slots : Array Value), r.vector id → s.vectors[id]? = some slots →
    ∀ v ∈ slots, v.Within r

namespace State.Agree

variable {r : Region} {s t : State}

theorem mono {r' : Region} (h : State.Agree r s t) (scopes : ∀ k, r'.scope k → r.scope k)
    (vectors : ∀ id, r'.vector id → r.vector id) : State.Agree r' s t :=
  { h with
    scopes := fun k a inside => h.scopes k a (scopes k inside)
    vectors := fun id inside => h.vectors id (vectors id inside) }

theorem toVectors (h : State.Agree r s t) (closed : s.Closed r) :
    Vectors.Agree r s.vectors t.vectors := ⟨h.vectorCount, h.vectors, closed.slots⟩

theorem scope_eq_none (h : State.Agree r s t) {k : ScopeId} (absent : s.scopes[k]? = none) :
    t.scopes[k]? = none := by
  rw [Array.getElem?_eq_none_iff] at absent ⊢
  rw [← h.scopeCount]
  exact absent

/-- A name has the same value in both states. -/
theorem lookup_eq (h : State.Agree r s t) (closed : s.Closed r) {env : ScopeId}
    (inside : r.scope env) (name : String) : s.lookup? env name = t.lookup? env name := by
  rw [State.lookup?, State.lookup?]
  fun_induction State.lookupIn? s.scopes name env with
  | case1 env absent => rw [State.lookupIn?, h.scope_eq_none absent]
  | case2 env a found value bound =>
    obtain ⟨b, found', same⟩ := h.scopes env a inside found
    rw [State.lookupIn?_of_found found', ← same.bindings, bound]
  | case3 env a found unbound top =>
    obtain ⟨b, found', same⟩ := h.scopes env a inside found
    rw [State.lookupIn?_of_found found', ← same.bindings, unbound, ← same.parent, top]
  | case4 env a found unbound parent under older ih =>
    obtain ⟨b, found', same⟩ := h.scopes env a inside found
    have outside := ih ((closed.scopes env a inside found).parent parent under)
    rw [State.lookupIn?_of_found found', ← same.bindings, unbound, ← same.parent, under]
    simp only [if_pos older, outside]
  | case5 env a found unbound parent under younger =>
    obtain ⟨b, found', same⟩ := h.scopes env a inside found
    rw [State.lookupIn?_of_found found', ← same.bindings, unbound, ← same.parent, under]
    simp only [if_neg younger]

theorem memo_eq (h : State.Agree r s t) {env : ScopeId} (inside : r.scope env) :
    s.memo? env = t.memo? env := by
  unfold State.memo?
  cases found : s.scopes[env]? with
  | none => rw [h.scope_eq_none found]
  | some a =>
    obtain ⟨b, found', same⟩ := h.scopes env a inside found
    rw [found']
    exact same.memo

end State.Agree

namespace State.Closed

variable {r : Region} {s : State}

theorem lookup_within (h : s.Closed r) {env : ScopeId} (inside : r.scope env) {name : String}
    {v : Value} (found : s.lookup? env name = some v) : v.Within r := by
  rw [State.lookup?] at found
  fun_induction State.lookupIn? s.scopes name env with
  | case1 => cases found
  | case2 env a here value bound =>
    cases found
    exact (h.scopes env a inside here).bindings name v bound
  | case3 => cases found
  | case4 env a here _ parent under _ ih =>
    exact ih ((h.scopes env a inside here).parent parent under) found
  | case5 => cases found

theorem memo_within (h : s.Closed r) {env : ScopeId} (inside : r.scope env) {v : Value}
    (found : s.memo? env = some v) : v.Within r := by
  unfold State.memo? at found
  split at found
  · next a here => exact (h.scopes env a inside here).memo v found
  · cases found

end State.Closed

/-! ## Reachability -/

/-- A place of a store. -/
inductive Place where
  | scope (k : ScopeId)
  | vector (id : VectorId)

/-- A place lies in a region. -/
def Region.Has (r : Region) : Place → Prop
  | .scope k => r.scope k
  | .vector id => r.vector id

/-- The places that a value refers to: itself, if it is a vector, the scopes of closures, and the
places of its parts. -/
inductive Value.Mentions : Value → Place → Prop
  | vector {id : VectorId} : Mentions (.vector id) (.vector id)
  | closure {p : Procedure} {k : ScopeId} : p.scope = some k → Mentions (.procedure p) (.scope k)
  | source {id : ObjectId} {count : Int64} {p : Procedure} {k : ScopeId} :
      p.scope = some k → Mentions (.generator id count (some p)) (.scope k)
  | first {id : ObjectId} {a b : Value} {place : Place} : a.Mentions place → Mentions (.pair id a b) place
  | second {id : ObjectId} {a b : Value} {place : Place} : b.Mentions place → Mentions (.pair id a b) place
  | head {id : ObjectId} {a b : Value} {place : Place} : a.Mentions place → Mentions (.cell id a b) place
  | tail {id : ObjectId} {a b : Value} {place : Place} : b.Mentions place → Mentions (.cell id a b) place

/-- The places that can be reached from some values: those that a value refers to, and on from a
place through its parent, its bindings, its memo and its slots. -/
inductive State.Reaches (s : State) (roots : List Value) : Place → Prop
  | root {v : Value} {place : Place} : v ∈ roots → v.Mentions place → Reaches s roots place
  | parent {k p : ScopeId} {scope : Scope} :
      Reaches s roots (.scope k) → s.scopes[k]? = some scope → scope.parent = some p →
      Reaches s roots (.scope p)
  | binding {k : ScopeId} {scope : Scope} {name : String} {v : Value} {place : Place} :
      Reaches s roots (.scope k) → s.scopes[k]? = some scope →
      scope.bindings.get? name = some v → v.Mentions place → Reaches s roots place
  | memo {k : ScopeId} {scope : Scope} {v : Value} {place : Place} :
      Reaches s roots (.scope k) → s.scopes[k]? = some scope → scope.memo = some v →
      v.Mentions place → Reaches s roots place
  | slot {id : VectorId} {slots : Array Value} {v : Value} {place : Place} :
      Reaches s roots (.vector id) → s.vectors[id]? = some slots → v ∈ slots →
      v.Mentions place → Reaches s roots place

/-- All that can be reached from some values. -/
def State.reached (s : State) (roots : List Value) : Region :=
  ⟨fun k => s.Reaches roots (.scope k), fun id => s.Reaches roots (.vector id)⟩

theorem Value.within_iff {r : Region} {v : Value} :
    v.Within r ↔ ∀ place, v.Mentions place → r.Has place := by
  constructor
  · intro within place mentions
    induction mentions with
    | vector => exact within
    | closure scope => exact within _ scope
    | source scope => exact within _ rfl _ scope
    | first _ ih => exact ih within.1
    | second _ ih => exact ih within.2
    | head _ ih => exact ih within.1
    | tail _ ih => exact ih within.2
  · intro all
    induction v with
    | pair _ _ _ ih₁ ih₂ => exact ⟨ih₁ fun l h => all l (.first h), ih₂ fun l h => all l (.second h)⟩
    | cell _ _ _ ih₁ ih₂ => exact ⟨ih₁ fun l h => all l (.head h), ih₂ fun l h => all l (.tail h)⟩
    | vector id => exact all _ .vector
    | generator _ _ source =>
      rintro p rfl k scope
      exact all _ (.source scope)
    | procedure p => exact fun k scope => all _ (.closure scope)
    | _ => trivial

namespace State

variable {s : State} {roots : List Value}

theorem reached_has {place : Place} : (s.reached roots).Has place ↔ s.Reaches roots place := by
  cases place <;> rfl

theorem within_reached {v : Value} (root : v ∈ roots) : v.Within (s.reached roots) :=
  Value.within_iff.mpr fun _ mentions => reached_has.mpr (.root root mentions)

theorem closed_reached (s : State) (roots : List Value) : s.Closed (s.reached roots) := by
  constructor
  · intro k scope inside found
    refine ⟨fun name v bound => ?_, fun p under => .parent inside found under, fun v kept => ?_⟩
    · exact Value.within_iff.mpr fun _ mentions =>
        reached_has.mpr (.binding inside found bound mentions)
    · exact Value.within_iff.mpr fun _ mentions =>
        reached_has.mpr (.memo inside found kept mentions)
  · intro id slots inside found v slot
    exact Value.within_iff.mpr fun _ mentions => reached_has.mpr (.slot inside found slot mentions)

/-- No closed region that some values lie in holds less than what they reach. -/
theorem reached_le {r : Region} (closed : s.Closed r) (within : ∀ v ∈ roots, v.Within r)
    {place : Place} (h : s.Reaches roots place) : r.Has place := by
  induction h with
  | root root mentions => exact Value.within_iff.mp (within _ root) _ mentions
  | parent _ found under ih => exact (closed.scopes _ _ ih found).parent _ under
  | binding _ found bound mentions ih =>
    exact Value.within_iff.mp ((closed.scopes _ _ ih found).bindings _ _ bound) _ mentions
  | memo _ found kept mentions ih =>
    exact Value.within_iff.mp ((closed.scopes _ _ ih found).memo _ kept) _ mentions
  | slot _ found slot mentions ih =>
    exact Value.within_iff.mp (closed.slots _ _ ih found _ slot) _ mentions

end State

end Smpl

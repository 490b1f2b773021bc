import Mathlib.Data.List.Forall2
import Smpl.Machine.Eval

/-!
# Paired states

Two runs may do the same and yet number their objects differently, because one of them made more
objects before. Their values are *paired* (`Value.Paired`): they are the same but for the numbers of the
objects, and those differ by a fixed amount. Scopes and vectors have the same numbers in both runs.
States are paired (`State.Paired`) if all that they hold is, and if both have printed the same and have
the same console. Their logs need not have anything in common.

What programs can find out about values is the same for paired values: kinds, contents, parts, printed
forms, equality, and which of them are the same object.
-/

namespace Smpl

/-- How two runs belong together: the objects of the second one have numbers that are greater by
`shift`. It is left open whether there may be absent values in them, and whether the second run may
reach the bound on nesting where the first one does not. -/
structure Pairing where
  shift : Nat
  absent : Prop
  shallow : Prop

variable {c : Pairing}

/-! ## Lists and arrays -/

section Forall₂

variable {α β : Type} {R : α → β → Prop} {as : List α} {bs : List β}

theorem eq_none_of_rel {b : Option β} (h : Option.Rel R none b) : b = none := by
  cases h
  rfl

theorem exists_of_rel {a : α} {b : Option β} (h : Option.Rel R (some a) b) :
    ∃ b', b = some b' ∧ R a b' := by
  cases h with
  | some related => exact ⟨_, rfl, related⟩

theorem forall₂_getElem? (h : List.Forall₂ R as bs) (i : Nat) : Option.Rel R as[i]? bs[i]? := by
  induction h generalizing i with
  | nil => exact .none
  | cons first _ ih =>
    cases i with
    | zero => exact .some first
    | succ i => exact ih i

theorem forall₂_set (h : List.Forall₂ R as bs) {a : α} {b : β} (new : R a b) (i : Nat) :
    List.Forall₂ R (as.set i a) (bs.set i b) := by
  induction h generalizing i with
  | nil => exact .nil
  | cons first rest ih =>
    cases i with
    | zero => exact .cons new rest
    | succ i => exact .cons first (ih i)

theorem forall₂_modify (h : List.Forall₂ R as bs) {f : α → α} {g : β → β}
    (kept : ∀ a b, R a b → R (f a) (g b)) (i : Nat) :
    List.Forall₂ R (as.modify i f) (bs.modify i g) := by
  induction h generalizing i with
  | nil => simp
  | cons first rest ih =>
    cases i with
    | zero => exact .cons (kept _ _ first) rest
    | succ i => exact .cons first (ih i)

end Forall₂

/-! ## Values -/

/-- The closure with another number. -/
def Procedure.shifted (p : Procedure) (shift : Nat) : Procedure := { p with id := p.id + shift }

/-- Two values that are the same but for the numbers of objects. -/
inductive Value.Paired (c : Pairing) : Value → Value → Prop
  | nothing : c.absent → Paired c .nothing .nothing
  | scalar {id : ObjectId} {contents : Scalar} :
      Paired c (.scalar id contents) (.scalar (id + c.shift) contents)
  | empty : Paired c .empty .empty
  | pair {id : ObjectId} {a a' b b' : Value} : Paired c a a' → Paired c b b' →
      Paired c (.pair id a b) (.pair (id + c.shift) a' b')
  | cell {id : ObjectId} {a a' b b' : Value} : Paired c a a' → Paired c b b' →
      Paired c (.cell id a b) (.cell (id + c.shift) a' b')
  | vector {id : VectorId} : Paired c (.vector id) (.vector id)
  | generator {id : ObjectId} {count : Int64} {source : Option Procedure} :
      Paired c (.generator id count source)
        (.generator (id + c.shift) count (source.map (·.shifted c.shift)))
  | procedure {p : Procedure} : Paired c (.procedure p) (.procedure (p.shifted c.shift))

/-- Values that are paired one by one. -/
abbrev Value.AllPaired (c : Pairing) : List Value → List Value → Prop := List.Forall₂ (Value.Paired c)

/-- Two outcomes with the same failure or with results that belong together. -/
inductive Matched {α β : Type} (R : α → β → Prop) : Except Failure α → Except Failure β → Prop
  | ok {a : α} {b : β} : R a b → Matched R (.ok a) (.ok b)
  | error {e : Failure} : Matched R (.error e) (.error e)

theorem Matched.refl {α : Type} (x : Except Failure α) : Matched Eq x x := by
  cases x with
  | ok a => exact .ok rfl
  | error e => exact .error

namespace Value.Paired

variable {v v' w w' : Value}

theorem kind?_eq (h : Paired c v w) : v.kind? = w.kind? := by
  cases h <;> rfl

theorem kindOf_eq (h : Paired c v w) (operation : String) (kinds : List Kind) :
    Failure.kindOf operation v kinds = Failure.kindOf operation w kinds := by
  rw [Failure.kindOf, Failure.kindOf, h.kind?_eq]

theorem isListLike_eq (h : Paired c v w) : v.isListLike = w.isListLike := by
  cases h <;> rfl

theorem truth_eq (h : Paired c v w) (operation : String) : v.truth operation = w.truth operation := by
  cases h with
  | @scalar id contents => cases contents <;> rfl
  | _ => rfl

theorem int_eq (h : Paired c v w) (operation : String) : v.int operation = w.int operation := by
  cases h with
  | @scalar id contents => cases contents <;> rfl
  | _ => rfl

theorem number_eq (h : Paired c v w) (operation : String) :
    v.number operation = w.number operation := by
  cases h with
  | @scalar id contents => cases contents <;> rfl
  | _ => rfl

theorem slotPosition_eq (h : Paired c v w) : Eval.slotPosition v = Eval.slotPosition w := by
  cases h with
  | @scalar id contents => cases contents <;> rfl
  | _ => rfl

theorem textOf_eq (h : Paired c v w) (operation : String) :
    Eval.textOf operation v = Eval.textOf operation w := by
  cases h with
  | @scalar id contents => cases contents <;> rfl
  | _ => rfl

theorem vectorOf_eq (h : Paired c v w) (operation : String) :
    Eval.vectorOf operation v = Eval.vectorOf operation w := by
  cases h <;> rfl

theorem pairTest_eq (h : Paired c v w) : Eval.pairTest v = Eval.pairTest w := by
  cases h <;> rfl

theorem selects_eq (h : Paired c v w) : Eval.selects v = Eval.selects w := by
  cases h with
  | @scalar id contents => cases contents <;> rfl
  | _ => rfl

/-- Two objects are one in the first run if and only if they are in the second. -/
theorem identical_eq (h : Paired c v w) (h' : Paired c v' w') :
    v.identical v' = w.identical w' := by
  cases h <;> cases h' <;> simp [Value.identical, Procedure.shifted]

theorem procedureOf (h : Paired c v w) (operation : String) :
    Matched (fun p q => q = p.shifted c.shift) (Eval.procedureOf operation v)
      (Eval.procedureOf operation w) := by
  cases h with
  | procedure => exact .ok rfl
  | _ => exact .error

theorem first (h : Paired c v w) : Matched (Paired c) (Eval.first v) (Eval.first w) := by
  cases h with
  | pair first _ => exact .ok first
  | cell head _ => exact .ok head
  | empty => exact .ok .empty
  | _ => exact .error

theorem second (h : Paired c v w) : Matched (Paired c) (Eval.second v) (Eval.second w) := by
  cases h with
  | pair _ second => exact .ok second
  | cell _ tail => exact .ok tail
  | empty => exact .ok .empty
  | _ => exact .error

theorem cons {id : ObjectId} (head : Paired c v w) (tail : Paired c v' w') :
    Paired c (Value.cons id v v') (Value.cons (id + c.shift) w w') := by
  rw [Value.cons, Value.cons, tail.isListLike_eq]
  split
  · exact .cell head tail
  · exact .pair head tail

theorem listFrom {vs ws : List Value} (h : AllPaired c vs ws) (id : ObjectId) :
    Paired c (Value.listFrom id vs) (Value.listFrom (id + c.shift) ws) := by
  induction h generalizing id with
  | nil => exact .empty
  | cons first _ ih =>
    have rest := ih (id + 1)
    rw [Nat.add_right_comm] at rest
    exact .cell first rest

theorem spine (h : Paired c v w) : AllPaired c (Eval.spine v) (Eval.spine w) := by
  induction h with
  | cell head _ _ ih => exact .cons head ih
  | _ => exact .nil

/-- The elements of paired lists are paired; if one value is no list, the other is none either, and
what stands in place of a list is paired. -/
theorem elements (h : Paired c v w) :
    (∃ vs ws, v.elements = .ok vs ∧ w.elements = .ok ws ∧ AllPaired c vs ws) ∨
    (∃ u x, v.elements = .error u ∧ w.elements = .error x ∧ Paired c u x) := by
  induction h with
  | nothing absent => exact .inr ⟨_, _, rfl, rfl, .nothing absent⟩
  | scalar => exact .inr ⟨_, _, rfl, rfl, .scalar⟩
  | empty => exact .inl ⟨_, _, rfl, rfl, .nil⟩
  | pair first second => exact .inr ⟨_, _, rfl, rfl, .pair first second⟩
  | vector => exact .inr ⟨_, _, rfl, rfl, .vector⟩
  | generator => exact .inr ⟨_, _, rfl, rfl, .generator⟩
  | procedure => exact .inr ⟨_, _, rfl, rfl, .procedure⟩
  | cell head _ _ ih =>
    rcases ih with ⟨vs, ws, left, right, rest⟩ | ⟨u, x, left, right, other⟩
    · exact .inl ⟨_ :: vs, _ :: ws, by rw [Value.elements, left], by rw [Value.elements, right],
        .cons head rest⟩
    · exact .inr ⟨u, x, by rw [Value.elements, left], by rw [Value.elements, right], other⟩

theorem argumentsOf (h : Paired c v w) :
    Matched (AllPaired c) (Eval.argumentsOf v) (Eval.argumentsOf w) := by
  rcases h.elements with ⟨vs, ws, left, right, all⟩ | ⟨u, x, left, right, other⟩
  · rw [Eval.argumentsOf, Eval.argumentsOf, left, right]
    exact .ok all
  · rw [Eval.argumentsOf, Eval.argumentsOf, left, right]
    show Matched _ (.error (Failure.kindOf _ u _)) (.error (Failure.kindOf _ x _))
    rw [other.kindOf_eq]
    exact .error

end Value.Paired

/-! ## Vectors -/

/-- Two vector stores with the same vectors but for the numbers of objects. -/
def Vectors.Paired (c : Pairing) (a b : Vectors) : Prop :=
  List.Forall₂ (fun slots slots' => Value.AllPaired c slots.toList slots'.toList) a.toList b.toList

namespace Vectors.Paired

variable {a b : Vectors}

theorem size_eq (h : Vectors.Paired c a b) : a.size = b.size := h.length_eq

theorem slots (h : Vectors.Paired c a b) (id : VectorId) :
    Value.AllPaired c (a.slots id).toList (b.slots id).toList := by
  have found := forall₂_getElem? h id
  simp only [Array.getElem?_toList] at found
  rw [Vectors.slots, Vectors.slots, Array.getD_eq_getD_getElem?, Array.getD_eq_getD_getElem?]
  generalize a[id]? = left at found
  generalize b[id]? = right at found
  cases found with
  | some all => exact all
  | none => exact .nil

theorem slots_size_eq (h : Vectors.Paired c a b) (id : VectorId) :
    (a.slots id).size = (b.slots id).size := (h.slots id).length_eq

end Vectors.Paired

namespace Value.Paired

variable {v v' w w' : Value} {a b : Vectors}

/-! ### Printing -/

theorem formatBy_eq {visit visit' : VectorId → Printing → FormatOutcome} (same : visit = visit')
    (h : Paired c v w) (inTail : Bool) (table : Printing) :
    formatBy visit inTail v table = formatBy visit' inTail w table := by
  subst same
  induction h generalizing inTail table with
  | pair _ _ ih₁ ih₂ => simp only [formatBy, ih₁, ih₂]
  | cell _ _ ih₁ ih₂ => simp only [formatBy, ih₁, ih₂]
  | _ => rfl

theorem formatAll_eq {print print' : Value → Printing → FormatOutcome} {vs ws : List Value}
    (same : ∀ v w, Paired c v w → print v = print' w) (h : AllPaired c vs ws) (table : Printing) :
    formatAll print vs table = formatAll print' ws table := by
  induction h generalizing table with
  | nil => rfl
  | cons first _ ih => simp only [formatAll, same _ _ first, ih]

theorem formatWithin_eq (vectors : Vectors.Paired c a b) (bound : Nat) (h : Paired c v w) :
    formatWithin a bound v = formatWithin b bound w := by
  -- A smaller bound serves for the slots of a vector, which are paired again.
  induction bound generalizing v w with
  | zero =>
    funext table
    exact formatBy_eq rfl h false table
  | succ bound ih =>
    funext table
    refine formatBy_eq (funext fun id => funext fun table => ?_) h false table
    rw [formatVector, formatVector, formatAll_eq (fun _ _ => ih) (vectors.slots id)]

theorem format_eq (vectors : Vectors.Paired c a b) (h : Paired c v w) : v.format a = w.format b := by
  rw [format, format, formatBound, formatBound, vectors.size_eq, formatWithin_eq vectors _ h]

/-! ### Comparing -/

theorem equalBy_eq {visit visit' : VectorId → VectorId → Comparing → EqualOutcome}
    (same : visit = visit') (h : Paired c v w) (h' : Paired c v' w') (table : Comparing) :
    equalBy visit v v' table = equalBy visit' w w' table := by
  subst same
  induction h generalizing v' w' table with
  | pair first second ih₁ ih₂ =>
    cases h' with
    | pair first' second' => simp only [equalBy, ih₁ first', ih₂ second']
    | _ => rfl
  | cell head tail ih₁ ih₂ =>
    cases h' with
    | cell head' tail' => simp only [equalBy, ih₁ head', ih₂ tail']
    | _ => rfl
  | generator =>
    cases h' with
    | generator => simp [equalBy, identical]
    | _ => rfl
  | procedure =>
    cases h' with
    | procedure => simp [equalBy, identical, Procedure.shifted]
    | _ => rfl
  | _ => cases h' <;> rfl

theorem equalAll_eq {compare compare' : Value → Value → Comparing → EqualOutcome}
    {vs vs' ws ws' : List Value}
    (same : ∀ v w v' w', Paired c v w → Paired c v' w' → compare v v' = compare' w w')
    (h : AllPaired c vs ws) (h' : AllPaired c vs' ws') (table : Comparing) :
    equalAll compare vs vs' table = equalAll compare' ws ws' table := by
  induction h generalizing vs' ws' table with
  | nil => cases h' <;> rfl
  | cons first _ ih =>
    cases h' with
    | nil => rfl
    | cons first' rest' => simp only [equalAll, same _ _ _ _ first first', ih rest']

theorem equalWithin_eq (vectors : Vectors.Paired c a b) (bound : Nat) (h : Paired c v w)
    (h' : Paired c v' w') : equalWithin a bound v v' = equalWithin b bound w w' := by
  induction bound generalizing v w v' w' with
  | zero =>
    funext table
    exact equalBy_eq rfl h h' table
  | succ bound ih =>
    funext table
    refine equalBy_eq (funext fun k => funext fun l => funext fun table => ?_) h h' table
    have left := vectors.slots k
    have right := vectors.slots l
    simp only [equalVectors, left.length_eq, right.length_eq,
      equalAll_eq (fun _ _ _ _ => ih) left right]

theorem equal_eq (vectors : Vectors.Paired c a b) (h : Paired c v w) (h' : Paired c v' w') :
    v.equal a v' = w.equal b w' := by
  rw [equal, equal, equalBound, equalBound, vectors.size_eq, equalWithin_eq vectors _ h h']

/-! ### Operators -/

theorem numbers_eq (h : Paired c v w) (h' : Paired c v' w') (operation : String) :
    numbers operation v v' = numbers operation w w' := by
  rw [numbers, numbers, h.number_eq, h'.number_eq]

theorem order?_eq (h : Paired c v w) (h' : Paired c v' w') (operation : String) :
    order? operation v v' = order? operation w w' := by
  have same := numbers_eq h h' operation
  cases h with
  | @scalar id contents =>
    cases contents with
    | string s =>
      cases h' with
      | @scalar id' contents' => cases contents' <;> rfl
      | _ => rfl
    | _ => simp only [order?, same]
  | _ => simp only [order?, same]

theorem applyBinary_eq (vectors : Vectors.Paired c a b) (h : Paired c v w) (h' : Paired c v' w')
    (symbol : String) : applyBinary a symbol v v' = applyBinary b symbol w w' := by
  unfold applyBinary
  cases BinaryOp.ofSymbol? symbol with
  | none => rfl
  | some op =>
    cases op <;> simp only [BinaryOp.apply, arithmetic, quotient, modulus, relation, logical, bitwise,
      equal_eq vectors h h', numbers_eq h h', order?_eq h h', h.truth_eq, h'.truth_eq, h.int_eq, h'.int_eq]

theorem applyUnary_eq (h : Paired c v w) (symbol : String) :
    applyUnary symbol v = applyUnary symbol w := by
  rw [applyUnary, applyUnary, h.truth_eq, h.int_eq]

end Value.Paired

/-! ## Scopes -/

/-- Bindings of the same names, in the same order, to paired values. -/
abbrev Bindings.Paired (c : Pairing) : Bindings → Bindings → Prop :=
  List.Forall₂ fun b b' => b.1 = b'.1 ∧ b.2.Paired c b'.2

namespace Bindings.Paired

variable {a b : Bindings} {v w : Value}

theorem get? (h : Bindings.Paired c a b) (name : String) :
    Option.Rel (Value.Paired c) (a.get? name) (b.get? name) := by
  induction h with
  | nil => exact .none
  | @cons first first' _ _ same _ ih =>
    obtain ⟨key, v⟩ := first
    obtain ⟨key', w⟩ := first'
    obtain ⟨rfl, values⟩ := same
    rw [Bindings.get?, Bindings.get?]
    split
    · exact .some values
    · exact ih

theorem put (h : Bindings.Paired c a b) (name : String) (values : v.Paired c w) :
    Bindings.Paired c (a.put name v) (b.put name w) := by
  induction h with
  | nil => exact .cons ⟨rfl, values⟩ .nil
  | @cons first first' _ _ same rest ih =>
    obtain ⟨key, u⟩ := first
    obtain ⟨key', x⟩ := first'
    obtain ⟨rfl, old⟩ := same
    rw [Bindings.put, Bindings.put]
    split
    · exact .cons ⟨rfl, values⟩ rest
    · exact .cons ⟨rfl, old⟩ ih

theorem putAll (h : Bindings.Paired c a b) (names : List String) {vs ws : List Value}
    (values : Value.AllPaired c vs ws) :
    Bindings.Paired c (a.putAll names vs) (b.putAll names ws) := by
  induction names generalizing a b vs ws with
  | nil => exact h
  | cons name names ih =>
    cases values with
    | nil => exact h
    | cons first rest => exact ih (h.put name first) rest

end Bindings.Paired

/-- Two scopes with paired bindings and memos under the same scope. -/
structure Scope.Paired (c : Pairing) (a b : Scope) : Prop where
  bindings : Bindings.Paired c a.bindings b.bindings
  parent : a.parent = b.parent
  memo : Option.Rel (Value.Paired c) a.memo b.memo

theorem Scope.Paired.setMemo {a b : Scope} {v w : Value} (h : Scope.Paired c a b)
    (values : v.Paired c w) : Scope.Paired c (a.setMemo v) (b.setMemo w) := by
  refine ⟨h.bindings, h.parent, ?_⟩
  cases values with
  | nothing => exact .none
  | scalar => exact .some .scalar
  | empty => exact .some .empty
  | pair first second => exact .some (.pair first second)
  | cell head tail => exact .some (.cell head tail)
  | vector => exact .some .vector
  | generator => exact .some .generator
  | procedure => exact .some .procedure

/-! ## States -/

/-- Two states that hold the same but for the numbers of objects. -/
structure State.Paired (c : Pairing) (s t : State) : Prop where
  scopes : List.Forall₂ (Scope.Paired c) s.scopes.toList t.scopes.toList
  vectors : s.vectors.Paired c t.vectors
  nextObject : t.nextObject = s.nextObject + c.shift
  register : s.register.Paired c t.register
  console : s.console = t.console
  output : s.output = t.output

namespace State.Paired

variable {s t : State} {v w : Value}

theorem scope (h : s.Paired c t) (env : ScopeId) :
    Option.Rel (Scope.Paired c) s.scopes[env]? t.scopes[env]? := by
  simpa only [Array.getElem?_toList] using forall₂_getElem? h.scopes env

theorem scope_of_found (h : s.Paired c t) {env : ScopeId} {a : Scope}
    (found : s.scopes[env]? = some a) : ∃ b, t.scopes[env]? = some b ∧ Scope.Paired c a b := by
  have scopes := h.scope env
  rw [found] at scopes
  exact exists_of_rel scopes

theorem lookup? (h : s.Paired c t) (env : ScopeId) (name : String) :
    Option.Rel (Value.Paired c) (s.lookup? env name) (t.lookup? env name) := by
  rw [State.lookup?, State.lookup?]
  fun_induction lookupIn? s.scopes name env with
  | case1 env absent =>
    have found := h.scope env
    rw [absent] at found
    rw [lookupIn?, eq_none_of_rel found]
    exact .none
  | case2 env a here value bound =>
    obtain ⟨b, there, scopes⟩ := h.scope_of_found here
    have values := scopes.bindings.get? name
    rw [bound] at values
    obtain ⟨w, bound', related⟩ := exists_of_rel values
    rw [lookupIn?_of_found there, bound']
    exact .some related
  | case3 env a here unbound top =>
    obtain ⟨b, there, scopes⟩ := h.scope_of_found here
    have values := scopes.bindings.get? name
    rw [unbound] at values
    rw [lookupIn?_of_found there, eq_none_of_rel values, ← scopes.parent, top]
    exact .none
  | case4 env a here unbound parent under older ih =>
    obtain ⟨b, there, scopes⟩ := h.scope_of_found here
    have values := scopes.bindings.get? name
    rw [unbound] at values
    rw [lookupIn?_of_found there, eq_none_of_rel values, ← scopes.parent, under]
    simpa only [if_pos older] using ih
  | case5 env a here unbound parent under younger =>
    obtain ⟨b, there, scopes⟩ := h.scope_of_found here
    have values := scopes.bindings.get? name
    rw [unbound] at values
    rw [lookupIn?_of_found there, eq_none_of_rel values, ← scopes.parent, under]
    simpa only [if_neg younger] using .none

theorem memo? (h : s.Paired c t) (env : ScopeId) :
    Option.Rel (Value.Paired c) (s.memo? env) (t.memo? env) := by
  have found := h.scope env
  rw [State.memo?, State.memo?]
  generalize s.scopes[env]? = a at found ⊢
  generalize t.scopes[env]? = b at found ⊢
  cases found with
  | some scopes => exact scopes.memo
  | none => exact .none

theorem slot? (h : s.Paired c t) (id : VectorId) (i : Nat) :
    Option.Rel (Value.Paired c) (s.vectors.slots id)[i]? (t.vectors.slots id)[i]? := by
  simpa only [Array.getElem?_toList] using forall₂_getElem? (h.vectors.slots id) i

theorem modifyScope (h : s.Paired c t) {f g : Scope → Scope}
    (kept : ∀ a b, Scope.Paired c a b → Scope.Paired c (f a) (g b)) (env : ScopeId) :
    State.Paired c { s with scopes := s.scopes.modify env f }
      { t with scopes := t.scopes.modify env g } :=
  { h with scopes := by simpa using forall₂_modify h.scopes kept env }

theorem putAll (h : s.Paired c t) (env : ScopeId) (names : List String) {vs ws : List Value}
    (values : Value.AllPaired c vs ws) : (s.putAll env names vs).Paired c (t.putAll env names ws) :=
  h.modifyScope (f := fun a => { a with bindings := a.bindings.putAll names vs })
    (g := fun b => { b with bindings := b.bindings.putAll names ws })
    (fun _ _ old => ⟨old.bindings.putAll names values, old.parent, old.memo⟩) env

theorem setMemo (h : s.Paired c t) (env : ScopeId) (values : v.Paired c w) :
    (s.setMemo env v).Paired c (t.setMemo env w) :=
  h.modifyScope (fun _ _ old => old.setMemo values) env

theorem pushScope (h : s.Paired c t) {a b : Scope} (new : Scope.Paired c a b) :
    State.Paired c { s with scopes := s.scopes.push a } { t with scopes := t.scopes.push b } :=
  { h with scopes := by simpa using List.rel_append h.scopes (.cons new .nil) }

theorem pushVector (h : s.Paired c t) {slots slots' : Array Value}
    (values : Value.AllPaired c slots.toList slots'.toList) :
    State.Paired c { s with vectors := s.vectors.push slots }
      { t with vectors := t.vectors.push slots' } :=
  { h with vectors := by simpa [Vectors.Paired] using List.rel_append h.vectors (.cons values .nil) }

theorem setSlot (h : s.Paired c t) (id : VectorId) (i : Nat) (values : v.Paired c w) :
    (s.setSlot id i v).Paired c (t.setSlot id i w) := by
  have kept := forall₂_modify h.vectors (f := (·.setIfInBounds i v)) (g := (·.setIfInBounds i w))
    (fun _ _ old => by simpa using forall₂_set old values i) id
  exact { h with vectors := by simpa [Vectors.Paired, State.setSlot] using kept }

end State.Paired

end Smpl

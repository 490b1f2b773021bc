import Smpl.Proofs.LazyMemo

/-!
# The lazy expressions of a run

A run evaluates lazy expressions one after the other and inside each other. `Lazies` is the forest of
these evaluations: those that a body evaluates stand inside the lazy expression. From it can be read
which lazy expressions of a scope have completed, with which values (`Lazies.completions`), and the
body of which of them was evaluated for that (`Lazies.bodies`).

To see what an evaluation asks of the evaluator, the evaluator is left open: a *routine* is a machine
that depends on it. `Traces` takes a routine apart. What does not depend on the evaluator evaluates
nothing, a sequence of two routines evaluates what the first one does and then what the second one
does, and a call of the evaluator evaluates what the called expression does.

A forest tells how the memo of each scope changes (`Lazies.Fits`, `Traces.fits`): a lazy expression that
recalls a value finds it as the memo, one that evaluates its body finds no memo, and the value of the
body is the memo from then on. Two bodies of one scope can both be evaluated to their end, if one of them
is evaluated inside the other. Where this does not happen (`Lazies.Apart`), at most one body of the scope
is, and all lazy expressions of the scope have its value (`Lazies.Fits.agree_iff_apart`).
-/

namespace Smpl

/-! ## Forests of evaluations -/

/-- Lazy expressions that are evaluated, in the order in which they begin. -/
inductive Lazies where
  /-- There are none. -/
  | none
  /-- The first one finds a memo in its scope. -/
  | recalled (scope : ScopeId) (value : Value) (later : Lazies)
  /-- The first one evaluates its body to the end. -/
  | finished (scope : ScopeId) (inside : Lazies) (value : Value) (later : Lazies)
  /-- The first one evaluates its body, which fails. -/
  | failed (scope : ScopeId) (inside : Lazies) (later : Lazies)

namespace Lazies

/-- One forest after another. -/
def append : Lazies → Lazies → Lazies
  | .none, more => more
  | .recalled k v later, more => .recalled k v (later.append more)
  | .finished k inside v later, more => .finished k inside v (later.append more)
  | .failed k inside later, more => .failed k inside (later.append more)

/-- The scopes and values of the lazy expressions that complete, in the order in which they do. -/
def completions : Lazies → List (ScopeId × Value)
  | .none => []
  | .recalled k v later => (k, v) :: later.completions
  | .finished k inside v later => inside.completions ++ (k, v) :: later.completions
  | .failed _ inside later => inside.completions ++ later.completions

/-- The scopes of the bodies that are evaluated to their end, in the order in which they are. -/
def bodies : Lazies → List ScopeId
  | .none => []
  | .recalled _ _ later => later.bodies
  | .finished k inside _ later => inside.bodies ++ k :: later.bodies
  | .failed _ inside later => inside.bodies ++ later.bodies

/-- All lazy expressions of a scope that complete have the same value. -/
def Agree (k : ScopeId) (t : Lazies) : Prop :=
  ∀ u v, (k, u) ∈ t.completions → (k, v) ∈ t.completions → u = v

/-- No body of a scope is evaluated to its end inside another one of the scope that is, too. -/
def Apart (k : ScopeId) : Lazies → Prop
  | .none => True
  | .recalled _ _ later => later.Apart k
  | .finished j inside _ later => (j = k → k ∉ inside.bodies) ∧ inside.Apart k ∧ later.Apart k
  | .failed _ inside later => inside.Apart k ∧ later.Apart k

/-- No lazy expression completes without a value. -/
def Present (t : Lazies) : Prop := ∀ c ∈ t.completions, c.2 ≠ .nothing

/-- A forest says how the memo of a scope changes. -/
def Fits (k : ScopeId) : Lazies → Option Value → Option Value → Prop
  | .none, before, after => after = before
  | .recalled j v later, before, after => (j = k → before = some v) ∧ later.Fits k before after
  | .finished j inside v later, before, after =>
    (j = k → before = Option.none) ∧ ∃ between, inside.Fits k before between ∧
      later.Fits k (if j = k then some v else between) after
  | .failed _ inside later, before, after =>
    ∃ between, inside.Fits k before between ∧ later.Fits k between after

variable {k : ScopeId} {t u : Lazies} {before between after : Option Value}

/-! ### Forests in sequence -/

theorem append_none (t : Lazies) : t.append .none = t := by
  induction t with
  | none => rfl
  | recalled _ _ _ ih => rw [append, ih]
  | finished _ _ _ _ _ ih => rw [append, ih]
  | failed _ _ _ _ ih => rw [append, ih]

@[simp] theorem completions_append (t u : Lazies) :
    (t.append u).completions = t.completions ++ u.completions := by
  induction t with
  | none => rfl
  | recalled _ _ _ ih => simp [append, completions, ih]
  | finished _ _ _ _ _ ih => simp [append, completions, ih]
  | failed _ _ _ _ ih => simp [append, completions, ih]

theorem present_append : (t.append u).Present ↔ t.Present ∧ u.Present := by
  simp only [Present, completions_append, List.forall_mem_append]

theorem Fits.append (first : t.Fits k before between) (second : u.Fits k between after) :
    (t.append u).Fits k before after := by
  induction t generalizing before with
  | none =>
    cases first
    exact second
  | recalled _ _ _ ih => exact ⟨first.1, ih first.2⟩
  | finished _ _ _ _ _ ih =>
    obtain ⟨unset, middle, inner, rest⟩ := first
    exact ⟨unset, middle, inner, ih rest⟩
  | failed _ _ _ _ ih =>
    obtain ⟨middle, inner, rest⟩ := first
    exact ⟨middle, inner, ih rest⟩

/-! ### What the memo tells -/

/-- While a scope has a memo, its lazy expressions have it as their value. -/
theorem Fits.of_some {m : Value} (fits : t.Fits k (some m) after) :
    after = some m ∧ k ∉ t.bodies ∧ ∀ v, (k, v) ∈ t.completions → v = m := by
  induction t generalizing after with
  | none => exact ⟨fits, List.not_mem_nil, nofun⟩
  | recalled j u later ih =>
    obtain ⟨found, rest⟩ := fits
    obtain ⟨kept, noBody, same⟩ := ih rest
    exact ⟨kept, noBody, by grind [completions]⟩
  | finished j inside u later ihInside ihLater =>
    obtain ⟨unset, between, inner, rest⟩ := fits
    have other : j ≠ k := fun same => nomatch unset same
    rw [if_neg other] at rest
    obtain ⟨rfl, noBody, same⟩ := ihInside inner
    obtain ⟨kept, noLaterBody, sameLater⟩ := ihLater rest
    exact ⟨kept, by grind [bodies], by grind [completions]⟩
  | failed j inside later ihInside ihLater =>
    obtain ⟨between, inner, rest⟩ := fits
    obtain ⟨rfl, noBody, same⟩ := ihInside inner
    obtain ⟨kept, noLaterBody, sameLater⟩ := ihLater rest
    exact ⟨kept, by grind [bodies], by grind [completions]⟩

/-- A scope without a memo gets one only from a body that is evaluated to its end, and no lazy
expression of the scope completes before. -/
theorem Fits.of_none (fits : t.Fits k .none after) (noBody : k ∉ t.bodies) :
    after = .none ∧ ∀ v, (k, v) ∉ t.completions := by
  induction t generalizing after with
  | none => exact ⟨fits, by grind [completions]⟩
  | recalled j u later ih =>
    obtain ⟨found, rest⟩ := fits
    obtain ⟨unset, nothing⟩ := ih rest noBody
    exact ⟨unset, by grind [completions]⟩
  | finished j inside u later ihInside ihLater =>
    obtain ⟨_, between, inner, rest⟩ := fits
    have other : j ≠ k := by grind [bodies]
    rw [if_neg other] at rest
    obtain ⟨rfl, nothing⟩ := ihInside inner (by grind [bodies])
    obtain ⟨unset, nothingLater⟩ := ihLater rest (by grind [bodies])
    exact ⟨unset, by grind [completions]⟩
  | failed j inside later ihInside ihLater =>
    obtain ⟨between, inner, rest⟩ := fits
    obtain ⟨rfl, nothing⟩ := ihInside inner (by grind [bodies])
    obtain ⟨unset, nothingLater⟩ := ihLater rest (by grind [bodies])
    exact ⟨unset, by grind [completions]⟩

/-! ### Agreement -/

/-- No body of a scope is evaluated to its end, or one is, its value is the memo, and all lazy
expressions of the scope have this value. -/
def AtMostOnce (k : ScopeId) (t : Lazies) (after : Option Value) : Prop :=
  k ∉ t.bodies ∨
    ∃ v, after = some v ∧ t.bodies.count k = 1 ∧ ∀ u, (k, u) ∈ t.completions → u = v

/-- What holds of two forests one after the other holds of one that has nothing else of the scope. -/
theorem AtMostOnce.of_parts {inside later : Lazies}
    (count : t.bodies.count k = inside.bodies.count k + later.bodies.count k)
    (values : ∀ u, (k, u) ∈ t.completions → (k, u) ∈ inside.completions ∨ (k, u) ∈ later.completions)
    (first : inside.Fits k .none between) (second : later.Fits k between after)
    (once : inside.AtMostOnce k between)
    (onceLater : later.Fits k .none after → later.AtMostOnce k after) : t.AtMostOnce k after := by
  rcases once with noBody | ⟨v, rfl, one, same⟩
  · obtain ⟨rfl, nothing⟩ := first.of_none noBody
    have zero : inside.bodies.count k = 0 := List.count_eq_zero.mpr noBody
    refine (onceLater second).imp (fun noLaterBody => ?_) ?_
    · rw [← List.count_eq_zero, count, zero, List.count_eq_zero.mpr noLaterBody]
    · rintro ⟨v, set, one, same⟩
      refine ⟨v, set, by rw [count, zero, one], fun u member => ?_⟩
      exact same u ((values u member).resolve_left (nothing u))
  · obtain ⟨kept, noLaterBody, sameLater⟩ := second.of_some
    refine .inr ⟨v, kept, by rw [count, one, List.count_eq_zero.mpr noLaterBody], fun u member => ?_⟩
    exact (values u member).elim (same u) (sameLater u)

/-- Of bodies that are not inside each other only the first one is evaluated to its end. -/
theorem Fits.atMostOnce_of_apart (fits : t.Fits k .none after) (apart : t.Apart k) :
    t.AtMostOnce k after := by
  induction t generalizing after with
  | none => exact .inl List.not_mem_nil
  | recalled j u later ih =>
    obtain ⟨found, rest⟩ := fits
    have other : j ≠ k := fun same => nomatch found same
    refine (ih rest apart).imp id ?_
    rintro ⟨v, set, one, same⟩
    exact ⟨v, set, one, by grind [completions]⟩
  | finished j inside u later ihInside ihLater =>
    obtain ⟨_, between, inner, rest⟩ := fits
    obtain ⟨alone, apartInside, apartLater⟩ := apart
    by_cases here : j = k
    · -- Nothing of the scope completes in the body, and from then on its value is the memo.
      rw [if_pos here] at rest
      have noBody := alone here
      obtain ⟨_, nothing⟩ := inner.of_none noBody
      obtain ⟨kept, noLaterBody, same⟩ := rest.of_some
      refine .inr ⟨u, kept, ?_, by grind [completions]⟩
      simp [bodies, here, List.count_eq_zero.mpr noBody, List.count_eq_zero.mpr noLaterBody]
    · rw [if_neg here] at rest
      refine .of_parts ?_ (by grind [completions]) inner rest (ihInside inner apartInside)
        fun fits => ihLater fits apartLater
      simp [bodies, here]
  | failed j inside later ihInside ihLater =>
    obtain ⟨between, inner, rest⟩ := fits
    exact .of_parts (by simp [bodies]) (by grind [completions]) inner rest
      (ihInside inner apart.1) fun fits => ihLater fits apart.2

/-- Two bodies of which one is inside the other are two bodies. -/
theorem apart_of_count_le_one (few : t.bodies.count k ≤ 1) : t.Apart k := by
  induction t with
  | none => trivial
  | recalled _ _ _ ih => exact ih few
  | finished j inside v later ihInside ihLater =>
    rw [bodies, List.count_append, List.count_cons] at few
    refine ⟨?_, ihInside (by omega), ihLater (by omega)⟩
    rintro rfl member
    have one : 0 < inside.bodies.count j := List.count_pos_iff.mpr member
    rw [if_pos (by simp)] at few
    omega
  | failed j inside later ihInside ihLater =>
    rw [bodies, List.count_append] at few
    exact ⟨ihInside (by omega), ihLater (by omega)⟩

/-- In a scope that has no memo at first, the lazy expressions agree and at most one body is evaluated
to its end exactly if no body is evaluated inside another. -/
theorem Fits.agree_iff_apart (fits : t.Fits k .none after) :
    t.Agree k ∧ t.bodies.count k ≤ 1 ↔ t.Apart k := by
  refine ⟨fun h => apart_of_count_le_one h.2, fun apart => ?_⟩
  rcases fits.atMostOnce_of_apart apart with noBody | ⟨v, _, one, same⟩
  · obtain ⟨_, nothing⟩ := fits.of_none noBody
    refine ⟨fun u _ member => absurd member (nothing u), ?_⟩
    rw [List.count_eq_zero.mpr noBody]
    exact Nat.zero_le 1
  · exact ⟨fun u w left right => (same u left).trans (same w right).symm, Nat.le_of_eq one⟩

end Lazies

/-! ## Machines without lazy expressions -/

/-- A state with the memos of an earlier one, and with at least as many scopes. -/
structure State.KeepsMemos (s t : State) : Prop where
  memo : ∀ k, t.memo? k = s.memo? k
  scopes : s.scopes.size ≤ t.scopes.size

namespace State

variable {s t u : State}

theorem keepsMemos_of_scopes (same : t.scopes = s.scopes) : s.KeepsMemos t where
  memo k := by rw [memo?_eq, memo?_eq, same]
  scopes := Nat.le_of_eq (congrArg Array.size same.symm)

theorem keepsMemos_pushScope {scope : Scope} (unset : scope.memo = none) :
    s.KeepsMemos { s with scopes := s.scopes.push scope } where
  memo k := by
    rw [memo?_eq, memo?_eq, Array.getElem?_push]
    split
    · next last => simp [last, unset]
    · rfl
  scopes := by simp

theorem keepsMemos_putAll (env : ScopeId) (names : List String) (values : List Value) :
    s.KeepsMemos (s.putAll env names values) where
  memo _ := memo?_putAll env names values
  scopes := by simp [putAll]

theorem memo?_setMemo_self {k : ScopeId} (there : k < s.scopes.size) {v : Value}
    (present : v ≠ .nothing) : (s.setMemo k v).memo? k = some v := by
  rw [memo?_eq, setMemo, Array.getElem?_modify, if_pos rfl, Array.getElem?_eq_getElem there]
  cases v with
  | nothing => exact absurd rfl present
  | _ => rfl

end State

/-- A machine that does nothing to memos and removes no scope. -/
def Machine.Silent {α : Type} (m : Machine α) : Prop :=
  ∀ s : State, s.KeepsMemos (m.after s)

namespace Machine

variable {α β : Type} {m : Machine α}

theorem after_bind_of_ok {f : α → Machine β} {s s₁ : State} {a : α} (run : m s = .ok a s₁) :
    (m >>= f).after s = (f a).after s₁ := by
  simp only [after, bind, EStateM.bind, run]

theorem after_bind_of_error {f : α → Machine β} {s s₁ : State} {e : Failure}
    (run : m s = .error e s₁) : (m >>= f).after s = s₁ := by
  simp only [after, bind, EStateM.bind, run]

theorem silent_of_scopes (same : ∀ s, (m.after s).scopes = s.scopes) : m.Silent :=
  fun s => State.keepsMemos_of_scopes (same s)

theorem silent_pure (a : α) : Silent (pure a) := silent_of_scopes fun _ => rfl

theorem silent_throw (e : Failure) : Silent (throw e : Machine α) := silent_of_scopes fun _ => rfl

theorem silent_newScalar (contents : Scalar) : Silent (newScalar contents) :=
  silent_of_scopes fun _ => rfl

theorem silent_newScope (names : List String) (values : List Value) (parent : Option ScopeId) :
    Silent (newScope names values parent) := by
  intro s
  by_cases same : names.length = values.length
  · rw [after_of_ok (newScope_run s parent same)]
    exact State.keepsMemos_pushScope rfl
  · simp only [newScope, if_neg same]
    exact silent_throw _ s

theorem silent_lookup (env : ScopeId) (name : String) : Silent (lookup env name) := by
  refine silent_of_scopes fun s => ?_
  rw [after, lookup_run]
  cases s.lookup? env name <;> rfl

theorem silent_slot (id : VectorId) (position : Nat) : Silent (slot id position) := by
  refine silent_of_scopes fun s => ?_
  rw [after, slot_run]
  cases (s.vectors.slots id)[position]? <;> rfl

theorem silent_setSlot (id : VectorId) (position : Nat) (v : Value) :
    Silent (setSlot id position v) := by
  refine silent_of_scopes fun s => ?_
  rw [after, setSlot_run]
  by_cases inside : position < (s.vectors.slots id).size
  · rw [if_pos inside]
    rfl
  · rw [if_neg inside]

theorem silent_binary (symbol : String) (left right : Value) : Silent (binary symbol left right) := by
  refine silent_of_scopes fun s => ?_
  rw [after, binary_run]
  cases applyBinary s.vectors symbol left right <;> rfl

theorem silent_readLine : Silent readLine := by
  refine silent_of_scopes fun s => ?_
  obtain ⟨console, state⟩ := readLine_after s
  rw [state]

theorem silent_readInteger : Silent readInteger := by
  refine silent_of_scopes fun s => ?_
  obtain ⟨console, state⟩ := readInteger_after s
  rw [state]

end Machine

/-! ## Traces -/

/-- What is to be done, with the evaluator left open. -/
abbrev Routine (α : Type) := Evaluator → Machine α

/-- `Traces bound r s t`: with evaluation within the bound, the routine `r` evaluates the lazy expressions
`t` from the state `s` on. -/
inductive Traces : Nat → {α : Type} → Routine α → State → Lazies → Prop
  | silent {bound : Nat} {α : Type} {m : Machine α} {s : State} :
      m.Silent → Traces bound (fun _ => m) s .none
  | bind {bound : Nat} {α β : Type} {r : Routine α} {f : α → Routine β} {s s₁ : State} {a : α}
      {t t₁ : Lazies} :
      Traces bound r s t → r (evalWithin bound) s = .ok a s₁ → Traces bound (f a) s₁ t₁ →
      Traces bound (fun eval => r eval >>= fun a => f a eval) s (t.append t₁)
  | bindFailed {bound : Nat} {α β : Type} {r : Routine α} {f : α → Routine β} {s s₁ : State}
      {e : Failure} {t : Lazies} :
      Traces bound r s t → r (evalWithin bound) s = .error e s₁ →
      Traces bound (fun eval => r eval >>= fun a => f a eval) s t
  -- A call of the evaluator.
  | tooDeep {e : Expr} {env : ScopeId} {s : State} : Traces 0 (fun eval => eval e env) s .none
  | step {bound : Nat} {e : Expr} {env : ScopeId} {s : State} {t : Lazies} :
      (∀ body, e ≠ .lazy body) → Traces bound (fun eval => Eval.step eval e env) s t →
      Traces (bound + 1) (fun eval => eval e env) s t
  -- A call for a lazy expression.
  | recalled {bound : Nat} {body : Expr} {k : ScopeId} {s : State} {v : Value} :
      s.memo? k = some v →
      Traces (bound + 1) (fun eval => eval (.lazy body) k) s (.recalled k v .none)
  | finished {bound : Nat} {body : Expr} {k : ScopeId} {s s₁ : State} {v : Value} {t : Lazies} :
      s.memo? k = none → k < s.scopes.size → Traces bound (fun eval => eval body k) s t →
      evalWithin bound body k s = .ok v s₁ →
      Traces (bound + 1) (fun eval => eval (.lazy body) k) s (.finished k t v .none)
  | failed {bound : Nat} {body : Expr} {k : ScopeId} {s s₁ : State} {e : Failure} {t : Lazies} :
      s.memo? k = none → Traces bound (fun eval => eval body k) s t →
      evalWithin bound body k s = .error e s₁ →
      Traces (bound + 1) (fun eval => eval (.lazy body) k) s (.failed k t .none)

namespace Eval

variable {eval : Evaluator} {body : Expr} {k : ScopeId} {s s₁ : State}

theorem lazy_of_ok {v : Value} (unset : s.memo? k = none) (run : eval body k s = .ok v s₁) :
    Eval.lazy eval body k s = .ok v (s₁.setMemo k v) := by
  simp only [Eval.lazy, bind, EStateM.bind, Machine.memo?_run, unset, run]
  rfl

theorem lazy_of_error {e : Failure} (unset : s.memo? k = none)
    (run : eval body k s = .error e s₁) : Eval.lazy eval body k s = .error e s₁ := by
  simp only [Eval.lazy, bind, EStateM.bind, Machine.memo?_run, unset, run]

end Eval

section LazyRun

variable {bound : Nat} {body : Expr} {k : ScopeId} {s s₁ : State} {v : Value}

theorem evalWithin_lazy_recalls (held : s.memo? k = some v) :
    evalWithin (bound + 1) (.lazy body) k s = .ok v (s.recall v) :=
  Eval.lazy_recalls (evalWithin bound) body held

theorem evalWithin_lazy_of_ok (unset : s.memo? k = none)
    (run : evalWithin bound body k s = .ok v s₁) :
    evalWithin (bound + 1) (.lazy body) k s = .ok v (s₁.setMemo k v) :=
  Eval.lazy_of_ok unset run

theorem evalWithin_lazy_of_error {e : Failure} (unset : s.memo? k = none)
    (run : evalWithin bound body k s = .error e s₁) :
    evalWithin (bound + 1) (.lazy body) k s = .error e s₁ :=
  Eval.lazy_of_error unset run

end LazyRun

namespace Traces

variable {bound : Nat} {α β : Type} {r : Routine α} {f : α → Routine β} {s s₁ : State} {a : α}
  {t : Lazies}

/-- What follows evaluates no lazy expression. -/
theorem bind_none (h : Traces bound r s t) (run : r (evalWithin bound) s = .ok a s₁)
    (rest : Traces bound (f a) s₁ .none) :
    Traces bound (fun eval => r eval >>= fun a => f a eval) s t := by
  have both := h.bind run rest
  rwa [Lazies.append_none] at both

theorem silent_bind {m : Machine α} (quiet : m.Silent) (run : m s = .ok a s₁)
    (rest : Traces bound (f a) s₁ t) : Traces bound (fun eval => m >>= fun a => f a eval) s t :=
  .bind (.silent quiet) run rest

/-- A routine removes no scope. -/
theorem scopes_le (h : Traces bound r s t) :
    s.scopes.size ≤ ((r (evalWithin bound)).after s).scopes.size := by
  induction h with
  | silent quiet => exact (quiet _).scopes
  | bind _ run _ first second =>
    rw [Machine.after_of_ok run] at first
    rw [Machine.after_bind_of_ok run]
    exact Nat.le_trans first second
  | bindFailed _ run first =>
    rw [Machine.after_of_error run] at first
    rwa [Machine.after_bind_of_error run]
  | tooDeep => exact Nat.le_refl _
  | step _ _ ih => exact ih
  | recalled held =>
    rw [Machine.after_of_ok (evalWithin_lazy_recalls held)]
    exact Nat.le_refl _
  | finished unset _ _ run ih =>
    rw [Machine.after_of_ok run] at ih
    rw [Machine.after_of_ok (evalWithin_lazy_of_ok unset run)]
    simpa [State.setMemo] using ih
  | failed unset _ run ih =>
    rw [Machine.after_of_error run] at ih
    rwa [Machine.after_of_error (evalWithin_lazy_of_error unset run)]

/-- The lazy expressions of a routine say how it changes the memo of each scope. -/
theorem fits (h : Traces bound r s t) (present : t.Present) (k : ScopeId) :
    t.Fits k (s.memo? k) (((r (evalWithin bound)).after s).memo? k) := by
  induction h with
  | silent quiet => exact (quiet _).memo k
  | bind _ run _ first second =>
    obtain ⟨present, presentLater⟩ := Lazies.present_append.mp present
    have before := first present
    rw [Machine.after_of_ok run] at before
    rw [Machine.after_bind_of_ok run]
    exact before.append (second presentLater)
  | bindFailed _ run first =>
    have before := first present
    rw [Machine.after_of_error run] at before
    rwa [Machine.after_bind_of_error run]
  | tooDeep => exact rfl
  | step _ _ ih => exact ih present
  | recalled held =>
    rw [Machine.after_of_ok (evalWithin_lazy_recalls held)]
    refine ⟨?_, rfl⟩
    rintro rfl
    exact held
  | @finished _ _ j s s₁ v t unset there inside run ih =>
    have presentInside : t.Present := fun c member => present c (List.mem_append_left _ member)
    have inner := ih presentInside
    have grown := inside.scopes_le
    rw [Machine.after_of_ok run] at inner grown
    rw [Machine.after_of_ok (evalWithin_lazy_of_ok unset run)]
    refine ⟨?_, _, inner, ?_⟩
    · rintro rfl
      exact unset
    · show (s₁.setMemo j v).memo? k = if j = k then some v else s₁.memo? k
      split
      · next same =>
        subst same
        have value : v ≠ .nothing := present (j, v) (by simp [Lazies.completions])
        exact State.memo?_setMemo_self (Nat.lt_of_lt_of_le there grown) value
      · next other => exact State.memo?_setMemo other v
  | failed unset _ run ih =>
    have inner := ih fun c member => present c (List.mem_append_left _ member)
    rw [Machine.after_of_error run] at inner
    rw [Machine.after_of_error (evalWithin_lazy_of_error unset run)]
    exact ⟨_, inner, rfl⟩

end Traces

end Smpl

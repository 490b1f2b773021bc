import Smpl.Machine.Run
import Smpl.Proofs.PairedRuns
import Smpl.Proofs.Routines

/-!
# Agreement of lazy expressions

All lazy expressions of a scope share one memo. A lazy expression looks for the memo before it evaluates
its body and sets it afterwards. In between, the body may evaluate another lazy expression of the same
scope. Then both bodies are evaluated to their end, and the outer one overwrites what the inner one has
set.

* `lazies_agree_iff_apart`: this is the only way in which the lazy expressions of a scope can come to
  disagree, or in which two of their bodies are evaluated to the end.
* `lazyInLazy_disagrees`: a program in which it happens.

The statement is about the traces of runs, and it needs two facts about them.
* Every run has a trace (`Session.exists_of_started`). Judgements are about machines in which the evaluator
  is filled in, and there its calls can no longer be seen. So it is shown for all routines that are put
  together from calls and silent machines (`Traceable.of_composed`).
* Lazy expressions that complete have values (`Traces.present`); an absent value would empty the memo. To
  see that none turns up in the middle of a run, evaluation is compared with one that fails where it
  meets an absent value (`evalInsisting`).
-/

namespace Smpl

/-! ## Every run has a trace -/

/-- All elementary machines but the one that sets a memo are silent. -/
theorem Machine.elementary_silent : Elementary fun _ m => m.Silent where
  success := silent_pure
  fail := silent_throw
  newObjects _ := silent_of_scopes fun _ => rfl
  newVector _ := silent_of_scopes fun _ => rfl
  newScope := silent_newScope
  lookup := silent_lookup
  putAll env names values _ := State.keepsMemos_putAll env names values
  memo? _ := silent_of_scopes fun _ => rfl
  vectorSize _ := silent_of_scopes fun _ => rfl
  slot := silent_slot
  setSlot := silent_setSlot
  register := silent_of_scopes fun _ => rfl
  setRegister _ := silent_of_scopes fun _ => rfl
  write _ := silent_of_scopes fun _ => rfl
  note _ _ := silent_of_scopes fun _ => rfl
  format _ := silent_of_scopes fun _ => rfl
  binary := silent_binary
  readLine := silent_readLine
  readInteger := silent_readInteger

/-- From every state that has the scope on, it can be told which lazy expressions a routine evaluates. -/
def Traceable (bound : Nat) (env : ScopeId) {α : Type} (r : Routine α) : Prop :=
  ∀ s : State, env < s.scopes.size → ∃ t, Traces bound r s t

namespace Traceable

variable {bound : Nat} {env : ScopeId} {α β : Type}

theorem silent {m : Machine α} (quiet : m.Silent) : Traceable bound env fun _ => m :=
  fun _ _ => ⟨.none, .silent quiet⟩

theorem bind {r : Routine α} {f : α → Routine β} (first : Traceable bound env r)
    (second : ∀ a, Traceable bound env (f a)) :
    Traceable bound env fun eval => r eval >>= fun a => f a eval := by
  intro s there
  obtain ⟨t, traced⟩ := first s there
  cases run : r (evalWithin bound) s with
  | ok a s₁ =>
    -- No scope is removed, so the second routine starts where the scope still is.
    have grown := traced.scopes_le
    rw [Machine.after_of_ok run] at grown
    obtain ⟨t₁, later⟩ := second a s₁ (Nat.lt_of_lt_of_le there grown)
    exact ⟨t.append t₁, traced.bind run later⟩
  | error e s₁ => exact ⟨t, traced.bindFailed run⟩

/-- What is done in a new scope can be traced from any state on, since the scope is there then. -/
theorem inside {names : List String} {values : List Value} {parent : Option ScopeId}
    {f : ScopeId → Routine β} (second : ∀ k, Traceable bound k (f k)) :
    Traceable bound env fun eval => Machine.newScope names values parent >>= fun k => f k eval := by
  intro s _
  have quiet := Machine.silent_newScope names values parent
  by_cases same : names.length = values.length
  · have run := Machine.newScope_run s parent same
    obtain ⟨t, later⟩ := second s.scopes.size
      { s with scopes := s.scopes.push ⟨Bindings.putAll names values [], parent, none⟩ } (by simp)
    exact ⟨_, .bind (.silent quiet) run later⟩
  · have run : Machine.newScope names values parent s =
        .error (.arity .scopeBindings names.length values.length) s := by
      rw [Machine.newScope, if_neg same]
      rfl
    exact ⟨_, .bindFailed (.silent quiet) run⟩

/-- What is put together from calls that can be traced and from silent machines. -/
theorem of_composed (calls : ∀ e env, Traceable bound env fun eval => eval e env) {r : Routine α}
    (composed : Composed (fun _ m => m.Silent) env r) : Traceable bound env r := by
  induction composed with
  | machine quiet => exact silent quiet
  | call e => exact calls e _
  | bind _ _ first second => exact bind first second
  | inside _ _ second => exact inside second

/-- Every evaluation can be traced. -/
theorem evaluation (bound : Nat) (e : Expr) (env : ScopeId) :
    Traceable bound env fun eval => eval e env := by
  induction bound generalizing e env with
  | zero => exact fun _ _ => ⟨.none, .tooDeep⟩
  | succ bound ih =>
    intro s there
    by_cases isLazy : ∃ body, e = .lazy body
    · obtain ⟨body, rfl⟩ := isLazy
      cases memo : s.memo? env with
      | some v => exact ⟨_, .recalled memo⟩
      | none =>
        obtain ⟨t, inside⟩ := ih body env s there
        cases run : evalWithin bound body env s with
        | ok v s₁ => exact ⟨_, .finished memo there inside run⟩
        | error e s₁ => exact ⟨_, .failed memo inside run⟩
    · have other : ∀ body, e ≠ .lazy body := fun body same => isLazy ⟨body, same⟩
      obtain ⟨t, traced⟩ := of_composed ih (Machine.elementary_silent.step other) s there
      exact ⟨t, .step other traced⟩

end Traceable

/-! ## Every lazy expression that completes has a value -/

/-- Runs with the same objects and without absent values. -/
def noneAbsent : Pairing where
  shift := 0
  absent := False
  shallow := False

theorem Value.Paired.present {v w : Value} (h : v.Paired noneAbsent w) : w ≠ .nothing := by
  rintro rfl
  cases h with
  | nothing absent => exact absent

section Ends

variable {α β : Type} {R : α → β → Prop}

theorem Ends.register_present {result : EStateM.Result Failure State α} {e : Failure} {s : State}
    (ended : Ends noneAbsent R result (.error e s)) : s.register ≠ .nothing := by
  cases ended with
  | error states => exact states.register.present
  | tooDeep shallow => exact shallow.elim

theorem Ends.paired_after {R : α → α → Prop} {m : Machine α} {s : State}
    (ended : Ends noneAbsent R (m s) (m s)) : (m.after s).Paired noneAbsent (m.after s) := by
  rw [Machine.after]
  generalize m s = result at ended ⊢
  cases ended with
  | ok _ states => exact states
  | error states => exact states
  | tooDeep shallow => exact shallow.elim

end Ends

/-- A machine that takes no absent value: it fails instead, and leaves the value in the register. -/
def Machine.insist (m : Machine Value) : Machine Value := fun s =>
  match m s with
  | .ok .nothing s₁ => .error .missingNode { s₁ with register := .nothing }
  | result => result

/-- Evaluation that takes no absent values. -/
def evalInsisting : Nat → Evaluator
  | 0 => fun _ _ => throw .tooDeep
  | bound + 1 => fun e env => (Eval.step (evalInsisting bound) e env).insist

/-- A run that does not fail with an absent value in the register. -/
def Machine.Whole {α : Type} (m : Machine α) (s : State) : Prop :=
  ∀ e s₁, m s = .error e s₁ → s₁.register ≠ .nothing

namespace Machine.Whole

variable {α β : Type} {m : Machine α} {f : α → Machine β} {s : State}

theorem first (whole : (m >>= f).Whole s) : m.Whole s :=
  fun e s₁ run => whole e s₁ (bind_eq_error.mpr (.inl run))

theorem second (whole : (m >>= f).Whole s) {a : α} {s₁ : State} (run : m s = .ok a s₁) :
    (f a).Whole s₁ :=
  fun e s₂ failed => whole e s₂ (bind_eq_error.mpr (.inr ⟨a, s₁, run, failed⟩))

/-- A run that insists on a value and is whole is the run that does not insist. -/
theorem of_insist {m : Machine Value} (whole : m.insist.Whole s) :
    m.Whole s ∧ m.insist s = m s ∧ ∀ s₁, m s ≠ .ok .nothing s₁ := by
  have present : ∀ s₁, m s ≠ .ok .nothing s₁ := by
    intro s₁ run
    refine whole .missingNode { s₁ with register := .nothing } ?_ rfl
    rw [insist, run]
  have same : m.insist s = m s := by
    rw [insist]
    split
    · next s₁ run => exact absurd run (present s₁)
    · rfl
  exact ⟨fun e s₁ run => whole e s₁ (same.trans run), same, present⟩

end Machine.Whole

/-- In a store without absent values, insisting makes no difference. -/
theorem evalInsisting_follows (bound : Nat) :
    Evaluator.Follows noneAbsent (evalWithin bound) (evalInsisting bound) := by
  induction bound with
  | zero => exact fun _ _ _ _ states => .error states
  | succ bound ih =>
    intro e env s t states
    have ended := ih.step e env s t states
    show Ends noneAbsent _ (Eval.step (evalWithin bound) e env s) _
    simp only [evalInsisting, Machine.insist]
    generalize Eval.step (evalWithin bound) e env s = result at ended ⊢
    generalize Eval.step (evalInsisting bound) e env t = result' at ended ⊢
    cases ended with
    | ok values states =>
      split
      · next absent =>
        cases absent
        exact absurd rfl values.present
      · exact .ok values states
    | error states => exact .error states
    | tooDeep shallow => exact shallow.elim

/-- If a routine is whole when it insists on values, then insisting makes no difference to it, and all of
its lazy expressions that complete have values. -/
theorem Traces.present {bound : Nat} {α : Type} {r : Routine α} {s : State} {t : Lazies}
    (h : Traces bound r s t) (whole : (r (evalInsisting bound)).Whole s) :
    r (evalInsisting bound) s = r (evalWithin bound) s ∧ t.Present := by
  induction h with
  | silent _ => exact ⟨rfl, nofun⟩
  | @bind bound _ _ r f s s₁ a t t₁ _ run _ ihFirst ihSecond =>
    obtain ⟨same, present⟩ := ihFirst whole.first
    have run' := same.trans run
    obtain ⟨sameLater, presentLater⟩ := ihSecond (whole.second run')
    refine ⟨?_, Lazies.present_append.mpr ⟨present, presentLater⟩⟩
    simp only [Bind.bind, EStateM.bind, run, run']
    exact sameLater
  | bindFailed _ run ih =>
    obtain ⟨same, present⟩ := ih whole.first
    refine ⟨?_, present⟩
    simp only [Bind.bind, EStateM.bind, run, same.trans run]
  | tooDeep => exact ⟨rfl, nofun⟩
  | step _ _ ih =>
    obtain ⟨wholeStep, insisted, _⟩ := whole.of_insist
    obtain ⟨same, present⟩ := ih wholeStep
    exact ⟨insisted.trans same, present⟩
  | @recalled bound body k s v held =>
    obtain ⟨_, insisted, valued⟩ := whole.of_insist
    have run : Eval.lazy (evalInsisting bound) body k s = .ok v (s.recall v) :=
      Eval.lazy_recalls _ body held
    refine ⟨insisted.trans (run.trans (evalWithin_lazy_recalls held).symm), ?_⟩
    refine List.forall_mem_singleton.mpr ?_
    rintro rfl
    exact valued _ run
  | @finished bound body k s s₁ v t unset _ _ run ih =>
    obtain ⟨wholeLazy, insisted, valued⟩ := whole.of_insist
    obtain ⟨same, present⟩ := ih fun e s₂ failed => wholeLazy e s₂ (Eval.lazy_of_error unset failed)
    have run' : Eval.lazy (evalInsisting bound) body k s = .ok v (s₁.setMemo k v) :=
      Eval.lazy_of_ok unset (same.trans run)
    refine ⟨insisted.trans (run'.trans (evalWithin_lazy_of_ok unset run).symm), ?_⟩
    refine List.forall_mem_append.mpr ⟨present, List.forall_mem_singleton.mpr ?_⟩
    rintro rfl
    exact valued _ run'
  | @failed bound body k s s₁ e t unset _ run ih =>
    obtain ⟨wholeLazy, insisted, _⟩ := whole.of_insist
    obtain ⟨same, present⟩ := ih fun e s₂ failed => wholeLazy e s₂ (Eval.lazy_of_error unset failed)
    have run' : Eval.lazy (evalInsisting bound) body k s = .error e s₁ :=
      Eval.lazy_of_error unset (same.trans run)
    refine ⟨insisted.trans (run'.trans (evalWithin_lazy_of_error unset run).symm), ?_⟩
    exact List.forall_mem_append.mpr ⟨present, nofun⟩

/-! ## Runs of programs -/

namespace Program

/-- The evaluation of a program, with the evaluator left open. -/
def routine (p : Program) : Routine Value := fun eval => do
  match p.body with
  | some body =>
    Machine.note .verbose
      ("evaluating program with " ++ toString body.length ++ " statements")
  | none => pure ()
  Eval.block eval State.global p.statements

theorem routine_eval (p : Program) : p.routine eval = evaluateProgram (some p) := rfl

theorem traceable (p : Program) : Traceable nestingLimit State.global p.routine := by
  obtain ⟨body⟩ := p
  have block (body : List Stmt) :
      Traceable nestingLimit State.global fun eval => Eval.block eval State.global body :=
    .of_composed (Traceable.evaluation nestingLimit) (Machine.elementary_silent.block body)
  cases body with
  | none => exact block []
  | some body => exact .bind (.silent (Machine.silent_of_scopes fun _ => rfl)) fun _ => block body

theorem routine_follows (p : Program) (bound : Nat) :
    Machine.Follows noneAbsent (p.routine (evalWithin bound)) (p.routine (evalInsisting bound))
      (Value.Paired noneAbsent) := by
  obtain ⟨body⟩ := p
  have block := (evalInsisting_follows bound).block State.global
  cases body with
  | none => exact block []
  | some body => exact .bind (.note _ _ _) fun _ _ _ => block body

/-- From a store without absent values on, the lazy expressions of a program that complete have values,
and there are no absent values in the store afterwards. -/
theorem traces_present {p : Program} {s : State} {t : Lazies}
    (traced : Traces nestingLimit p.routine s t) (store : s.Paired noneAbsent s) :
    t.Present ∧ State.Paired noneAbsent ((evaluateProgram (some p)).after s)
      ((evaluateProgram (some p)).after s) := by
  have ended := p.routine_follows nestingLimit s s store
  obtain ⟨same, present⟩ := traced.present fun e s₁ run => (run ▸ ended).register_present
  rw [same] at ended
  rw [← p.routine_eval]
  exact ⟨present, ended.paired_after⟩

end Program

/-- Programs that are evaluated one after the other evaluate these lazy expressions. A program that fails
leaves behind what it did until then, and the next one goes on from there. -/
inductive Session : List Program → State → Lazies → Prop
  | done {s : State} : Session [] s .none
  | next {p : Program} {ps : List Program} {s : State} {t t₁ : Lazies} :
      Traces nestingLimit p.routine s t → Session ps ((evaluateProgram (some p)).after s) t₁ →
      Session (p :: ps) s (t.append t₁)

namespace Session

variable {ps : List Program} {s : State} {t : Lazies}

/-- Every run can be traced. -/
theorem exists_of_started (ps : List Program) (started : 0 < s.scopes.size) :
    ∃ t, Session ps s t := by
  induction ps generalizing s with
  | nil => exact ⟨.none, .done⟩
  | cons p ps ih =>
    obtain ⟨t, traced⟩ := p.traceable s started
    obtain ⟨t₁, later⟩ := ih (Nat.lt_of_lt_of_le started traced.scopes_le)
    exact ⟨t.append t₁, .next traced later⟩

/-- The lazy expressions of a run say how the memo of each scope changes. -/
theorem fits (h : Session ps s t) (store : s.Paired noneAbsent s) :
    t.Present ∧ ∀ k, ∃ after, t.Fits k (s.memo? k) after := by
  induction h with
  | done => exact ⟨nofun, fun k => ⟨_, rfl⟩⟩
  | next traced _ ih =>
    obtain ⟨present, store'⟩ := Program.traces_present traced store
    obtain ⟨presentLater, fitsLater⟩ := ih store'
    refine ⟨Lazies.present_append.mpr ⟨present, presentLater⟩, fun k => ?_⟩
    obtain ⟨after, later⟩ := fitsLater k
    exact ⟨after, (traced.fits present k).append later⟩

end Session

theorem State.paired_initial (console : Option Console) :
    (State.initial console).Paired noneAbsent (State.initial console) where
  scopes := .cons ⟨.nil, rfl, .none⟩ .nil
  vectors := .nil
  nextObject := rfl
  register := .scalar
  console := rfl
  output := rfl

theorem State.memo?_initial (console : Option Console) (k : ScopeId) :
    (State.initial console).memo? k = none := by
  cases k with
  | zero => rfl
  | succ k => simp [State.memo?_eq, State.initial]

/-- In every run from an empty store, the lazy expressions of a scope that complete have the same value,
and at most one of their bodies is evaluated to its end, exactly if no body of the scope is evaluated to
its end inside another one of the scope that is, too. It can be told of every run which lazy expressions
it evaluates, and those that complete have values. -/
theorem lazies_agree_iff_apart (console : Option Console) (ps : List Program) :
    (∃ t, Session ps (State.initial console) t) ∧
    ∀ t, Session ps (State.initial console) t →
      t.Present ∧ ∀ k, t.Agree k ∧ t.bodies.count k ≤ 1 ↔ t.Apart k := by
  refine ⟨Session.exists_of_started ps Nat.one_pos, fun t session => ?_⟩
  obtain ⟨present, fits⟩ := session.fits (State.paired_initial console)
  refine ⟨present, fun k => ?_⟩
  obtain ⟨after, fits⟩ := fits k
  rw [State.memo?_initial] at fits
  exact fits.agree_iff_apart

/-! ## Two runs -/

section Runs

open Machine (silent_pure silent_of_scopes silent_newScalar silent_newScope)

/-- The end of a block evaluates nothing. -/
theorem traces_end (bound : Nat) (env : ScopeId) (v : Value) (s : State) :
    Traces bound (fun eval => do Machine.setRegister v; Eval.statements eval env []) s .none :=
  .silent (m := do Machine.setRegister v; Machine.register) (silent_of_scopes fun _ => rfl)

/-- `lazy (let in lazy 2)`. -/
def lazyUnderLet : Program := ⟨some [.eval (.lazy (.letIn [] (.lazy (.literal (.integer 2)))))]⟩

/-- `lazy 3`. -/
def lazyThree : Program := ⟨some [.eval (.lazy (.literal (.integer 3)))]⟩

/-- The lazy expressions of the two programs one after the other. The inner one belongs to the scope of
the `let`, and the last one finds a memo. -/
def lazyUnderLetTrace : Lazies :=
  .finished 0 (.finished 1 .none (.scalar 2 (.integer 2)) .none) (.scalar 2 (.integer 2))
    (.recalled 0 (.scalar 2 (.integer 2)) .none)

theorem lazyUnderLet_session :
    Session [lazyUnderLet, lazyThree] (State.initial none) lazyUnderLetTrace := by
  have first : Traces (nestingLimit - 4 + 4) lazyUnderLet.routine (State.initial none)
      (.finished 0 (.finished 1 .none (.scalar 2 (.integer 2)) .none) (.scalar 2 (.integer 2))
        .none) := by
    refine .silent_bind (silent_of_scopes fun _ => rfl) rfl ?_
    refine .silent_bind (silent_newScalar _) rfl ?_
    refine .silent_bind (silent_of_scopes fun _ => rfl) rfl ?_
    refine .bind_none (.finished rfl Nat.one_pos (.step nofun ?_) rfl) rfl (traces_end _ _ _ _)
    refine .silent_bind (m := pure []) (silent_pure []) rfl ?_
    refine .silent_bind (silent_newScope _ _ _) rfl ?_
    exact .finished rfl (Nat.lt_succ_self 1) (.step nofun (.silent (silent_newScalar _))) rfl
  have second : Traces (nestingLimit - 4 + 4) lazyThree.routine
      ((evaluateProgram (some lazyUnderLet)).after (State.initial none))
      (.recalled 0 (.scalar 2 (.integer 2)) .none) := by
    refine .silent_bind (silent_of_scopes fun _ => rfl) rfl ?_
    refine .silent_bind (silent_newScalar _) rfl ?_
    refine .silent_bind (silent_of_scopes fun _ => rfl) rfl ?_
    exact .bind_none (.recalled rfl) rfl (traces_end _ _ _ _)
  exact .next first (.next second .done)

/-- Lazy expressions inside each other agree if they belong to different scopes. -/
theorem lazyUnderLet_agrees :
    Session [lazyUnderLet, lazyThree] (State.initial none) lazyUnderLetTrace ∧
    lazyUnderLetTrace.bodies = [1, 0] ∧
    lazyUnderLetTrace.Agree 0 ∧ lazyUnderLetTrace.bodies.count 0 ≤ 1 := by
  have apart : lazyUnderLetTrace.Apart 0 := by
    simp [lazyUnderLetTrace, Lazies.Apart, Lazies.bodies]
  have agree := ((lazies_agree_iff_apart none [lazyUnderLet, lazyThree]).2 _ lazyUnderLet_session).2 0
  exact ⟨lazyUnderLet_session, rfl, agree.mpr apart⟩

/-- Prints `lazy { print (lazy 1); 2 }`. -/
def lazyInLazy : Program :=
  ⟨some [.print (.lazy (.block [.print (.lazy (.literal (.integer 1))) "\n",
    .eval (.literal (.integer 2))])) "\n"]⟩

/-- The lazy expressions of the program. Both belong to the global scope. -/
def lazyInLazyTrace : Lazies :=
  .finished 0 (.finished 0 .none (.scalar 3 (.integer 1)) .none) (.scalar 4 (.integer 2)) .none

theorem lazyInLazy_session : Session [lazyInLazy] (State.initial none) lazyInLazyTrace := by
  have traced : Traces (nestingLimit - 4 + 4) lazyInLazy.routine (State.initial none)
      lazyInLazyTrace := by
    refine .silent_bind (silent_of_scopes fun _ => rfl) rfl ?_
    refine .silent_bind (silent_newScalar _) rfl ?_
    refine .silent_bind (silent_of_scopes fun _ => rfl) rfl ?_
    refine .bind_none (.bind_none ?_ rfl (.silent (silent_of_scopes fun _ => rfl))) rfl
      (traces_end _ _ _ _)
    refine .finished rfl Nat.one_pos (.step nofun ?_) rfl
    refine .silent_bind (silent_newScalar _) rfl ?_
    refine .silent_bind (silent_of_scopes fun _ => rfl) rfl ?_
    refine .bind_none (.bind_none ?_ rfl (.silent (silent_of_scopes fun _ => rfl))) rfl ?_
    · exact .finished rfl Nat.one_pos (.step nofun (.silent (silent_newScalar _))) rfl
    · refine .silent_bind (silent_of_scopes fun _ => rfl) rfl ?_
      exact .bind_none (.step nofun (.silent (silent_newScalar _))) rfl (traces_end _ _ _ _)
  exact .next traced .done

/-- Two lazy expressions of one scope, one inside the other, both evaluate their bodies to the end and
have different values. -/
theorem lazyInLazy_disagrees :
    Session [lazyInLazy] (State.initial none) lazyInLazyTrace ∧
    lazyInLazyTrace.completions = [(0, .scalar 3 (.integer 1)), (0, .scalar 4 (.integer 2))] ∧
    ¬ lazyInLazyTrace.Agree 0 ∧ lazyInLazyTrace.bodies.count 0 = 2 ∧
    ((evaluateProgram (some lazyInLazy)).after (State.initial none)).output = "1\n2\n" := by
  refine ⟨lazyInLazy_session, rfl, fun agree => ?_, rfl, by decide +kernel⟩
  exact nomatch agree _ _ List.mem_cons_self (List.mem_cons_of_mem _ List.mem_cons_self)

end Runs

end Smpl

import Smpl.Machine.Run
import Smpl.Proofs.PairedRuns

/-!
# Modules and one program

The modules of a bundle are evaluated one after the other in the global scope. They can also be put
together to one program, which has the body of each module as one statement (`Program.whole`). Both
runs do the same (`modules_run_as_one`): they print the same, read the same, and leave the same global
names; they give values with the same printed form, or fail with the same failure.

The program evaluates one block more, the one around all modules. So its objects have numbers that are
greater by one, and its evaluation is nested one deeper.
-/

namespace Smpl

/-- The program whose statements are the bodies of some programs, each as one block. -/
def Program.whole (programs : List Program) : Program :=
  ⟨some (programs.map fun p => .eval (.block p.statements))⟩

/-- The first run evaluates modules, the second one the whole program. -/
def moduleWise : Pairing where
  shift := 1
  absent := False
  shallow := True

/-! ## One module -/

theorem Value.Paired.ne_nothing {v w : Value} (h : Value.Paired moduleWise v w) : v ≠ .nothing := by
  rintro rfl
  cases h with
  | nothing absent => exact absent

theorem evaluateProgram_run (p : Program) (s : State) :
    ∃ log, evaluateProgram (some p) s = p.evaluate State.global { s with log := log } := by
  obtain ⟨body⟩ := p
  cases body with
  | none => exact ⟨s.log, rfl⟩
  | some body => exact ⟨_, rfl⟩

/-- Evaluating a module follows evaluating its body as a block of a program. -/
theorem evaluateProgram_follows (p : Program) :
    Machine.Follows moduleWise (evaluateProgram (some p)) (eval (.block p.statements) State.global)
      (Value.Paired moduleWise) := by
  intro s t states
  obtain ⟨log, run⟩ := evaluateProgram_run p s
  have deeper : Evaluator.Follows moduleWise eval (evalWithin (nestingLimit - 1)) :=
    evalWithin_follows 1 (.inl trivial) (nestingLimit - 1)
  rw [run]
  exact deeper.block State.global p.statements _ _ { states with }

theorem Eval.statements_register {eval : Evaluator} {env : ScopeId} {body : List Stmt} {s s' : State}
    {v : Value} (run : Eval.statements eval env body s = .ok v s') : s'.register = v := by
  induction body generalizing s with
  | nil =>
    cases run
    rfl
  | cons st rest ih =>
    obtain ⟨_, _, _, later⟩ := Machine.bind_eq_ok.mp run
    obtain ⟨_, _, _, last⟩ := Machine.bind_eq_ok.mp later
    exact ih last

/-- The value of a program is in the register at its end. -/
theorem evaluateProgram_register {p : Program} {s s' : State} {v : Value}
    (run : evaluateProgram (some p) s = .ok v s') : s'.register = v := by
  obtain ⟨log, same⟩ := evaluateProgram_run p s
  rw [same] at run
  obtain ⟨_, _, _, later⟩ := Machine.bind_eq_ok.mp run
  obtain ⟨_, _, _, last⟩ := Machine.bind_eq_ok.mp later
  exact Eval.statements_register last

/-! ## All modules -/

/-- How the runs of a bundle and of a program end that belong together. -/
inductive BundleEnds {α β : Type} (R : α → β → Prop) :
    EStateM.Result BundleFailure State α → EStateM.Result Failure State β → Prop
  | ok {a : α} {b : β} {s t : State} :
      R a b → s.Paired moduleWise t → BundleEnds R (.ok a s) (.ok b t)
  | error {name path : String} {e : Failure} {s t : State} :
      s.Paired moduleWise t → BundleEnds R (.error (.inModule name path e) s) (.error e t)
  | tooDeep {result : EStateM.Result BundleFailure State α} {t : State} :
      BundleEnds R result (.error .tooDeep t)

theorem Bundle.evaluateFrom_cons {m : Module} {p : Program} (has : m.program = some p) (entry : Entry)
    (index : Nat) (found : Option Value) (rest : List (Option Module)) (s : State) :
    Bundle.evaluateFrom entry index found (some m :: rest) s =
      match m.evaluate p s with
      | .ok v s' =>
        Bundle.evaluateFrom entry (index + 1) (if entry = .position index then some v else found)
          rest s'
      | .error e s' => .error e s' := by
  simp only [Bundle.evaluateFrom, has, bind, EStateM.bind]
  cases m.evaluate p s <;> rfl

theorem Eval.statements_cons (eval : Evaluator) (env : ScopeId) (e : Expr) (rest : List Stmt)
    (t : State) :
    Eval.statements eval env (.eval e :: rest) t =
      match Eval.branch eval e env t with
      | .ok _ t' => Eval.statements eval env rest t'
      | .error f t' => .error f t' := by
  simp only [Eval.statements, Eval.statement, Eval.branch, bind, EStateM.bind]
  cases eval e env t <;> rfl

/-- Evaluating a module in a bundle follows evaluating its body as a statement. -/
theorem Module.evaluate_ends (m : Module) (p : Program) {s t : State} (states : s.Paired moduleWise t) :
    BundleEnds (fun u v => u.Paired moduleWise v) (m.evaluate p s)
      (Eval.branch eval (.block p.statements) State.global t) := by
  have ended := evaluateProgram_follows p
    { s with log := s.log.push ⟨.verbose, "evaluating module " ++ m.name⟩ } t { states with }
  have kept := @evaluateProgram_register p
    { s with log := s.log.push ⟨.verbose, "evaluating module " ++ m.name⟩ }
  simp only [Module.evaluate, Eval.branch, bind, EStateM.bind]
  generalize evaluateProgram (some p) _ = left at ended kept ⊢
  generalize eval (.block p.statements) State.global t = right at ended ⊢
  cases ended with
  | ok values states' =>
    -- The first run has its value in the register already.
    refine .ok values { states' with register := ?_ }
    rw [kept rfl]
    exact values
  | error states' => exact .error states'
  | tooDeep => exact .tooDeep

/-- The value of a module is in the register at its end. -/
theorem Module.evaluate_register {m : Module} {p : Program} {s s' : State} {v : Value}
    (run : m.evaluate p s = .ok v s') : s'.register = v := by
  rw [Module.evaluate] at run
  split at run
  · next evaluated =>
    cases run
    exact evaluateProgram_register evaluated
  · cases run

/-- Evaluating modules follows evaluating their bodies one after the other. The value of the last
module is kept. -/
theorem Bundle.evaluateFrom_ends (first : Program) (rest : List Program)
    (modules : List (Option Module)) (index : Nat) (found : Option Value) {s t : State}
    (states : s.Paired moduleWise t)
    (all : modules.map (·.bind Module.program) = (first :: rest).map some) :
    BundleEnds (fun kept v => ∃ u, kept = some u ∧ u.Paired moduleWise v)
      (Bundle.evaluateFrom (.position (index + rest.length)) index found modules s)
      (Eval.statements eval State.global
        ((first :: rest).map fun p => .eval (.block p.statements)) t) := by
  induction rest generalizing first modules index found s t with
  | nil =>
    obtain ⟨place, others, rfl, here, later⟩ := List.map_eq_cons_iff.mp all
    obtain ⟨m, rfl, has⟩ := Option.bind_eq_some_iff.mp here
    obtain rfl := List.map_eq_nil_iff.mp later
    rw [Bundle.evaluateFrom_cons has, List.map_singleton, Eval.statements_cons]
    have ended := m.evaluate_ends first states
    have kept := @Module.evaluate_register m first s
    generalize m.evaluate first s = left at ended kept ⊢
    generalize Eval.branch eval (.block first.statements) State.global t = right at ended ⊢
    cases ended with
    | @ok u v s' t' _ states' =>
      have values := states'.register
      rw [kept rfl] at values
      exact .ok ⟨u, if_pos rfl, values⟩ states'
    | error states' => exact .error states'
    | tooDeep => exact .tooDeep
  | cons next rest ih =>
    obtain ⟨place, others, rfl, here, later⟩ := List.map_eq_cons_iff.mp all
    obtain ⟨m, rfl, has⟩ := Option.bind_eq_some_iff.mp here
    have position : index + (next :: rest).length = index + 1 + rest.length := by
      rw [List.length_cons]
      omega
    rw [Bundle.evaluateFrom_cons has, List.map_cons, Eval.statements_cons, position]
    have ended := m.evaluate_ends first states
    generalize m.evaluate first s = left at ended ⊢
    generalize Eval.branch eval (.block first.statements) State.global t = right at ended ⊢
    cases ended with
    | ok _ states' => exact ih next others (index + 1) _ states' later
    | error states' => exact .error states'
    | tooDeep => exact .tooDeep

/-! ## Whole runs -/

/-- The state in which the statements of the whole program start: the block around them has made the
value it starts with. -/
def State.begun (console : Option Console) (log : Array LogLine) : State :=
  { State.initial console with nextObject := 2, register := .scalar 1 (.integer 0), log := log }

theorem State.initial_paired (console : Option Console) (log : Array LogLine) :
    (State.initial console).Paired moduleWise (State.begun console log) where
  scopes := .cons ⟨.nil, rfl, .none⟩ .nil
  vectors := .nil
  nextObject := rfl
  register := .scalar
  console := rfl
  output := rfl

theorem evaluateProgram_whole (programs : List Program) (console : Option Console) :
    ∃ log, evaluateProgram (some (Program.whole programs)) (State.initial console) =
      Eval.statements eval State.global (programs.map fun p => .eval (.block p.statements))
        (State.begun console log) := by
  obtain ⟨log, run⟩ := evaluateProgram_run (Program.whole programs) (State.initial console)
  exact ⟨log, run⟩

/-- The global names in the order of their first bindings, with the printed forms of their values. -/
def State.globalTexts (s : State) : List (String × String) :=
  match s.scopes[State.global]? with
  | some scope => scope.bindings.map fun b => (b.1, b.2.format s.vectors)
  | none => []

theorem Bindings.Paired.texts_eq {c : Pairing} {a b : Bindings} (bindings : a.Paired c b)
    {vs ws : Vectors} (vectors : vs.Paired c ws) :
    a.map (fun b => (b.1, b.2.format vs)) = b.map fun b => (b.1, b.2.format ws) := by
  induction bindings with
  | nil => rw [List.map_nil, List.map_nil]
  | cons same _ ih => rw [List.map_cons, List.map_cons, ih, same.1, same.2.format_eq vectors]

theorem State.Paired.globalTexts_eq {c : Pairing} {s t : State} (states : s.Paired c t) :
    s.globalTexts = t.globalTexts := by
  have found := states.scope State.global
  rw [State.globalTexts, State.globalTexts]
  generalize s.scopes[State.global]? = a at found ⊢
  generalize t.scopes[State.global]? = b at found ⊢
  cases found with
  | none => rfl
  | some scopes => exact scopes.bindings.texts_eq states.vectors

theorem Bundle.evaluate_run {b : Bundle} {entry : Entry} (chosen : b.entry = some entry) (s : State) :
    b.evaluate s =
      match Bundle.evaluateFrom entry 0 none b.modules s with
      | .ok (some .nothing) s' => .error (.entryNotRun (b.entryName entry)) s'
      | .ok (some v) s' => .ok v s'
      | .ok none s' => .error (.entryNotRun (b.entryName entry)) s'
      | .error e s' => .error e s' := by
  simp only [Bundle.evaluate, chosen, bind, EStateM.bind]
  cases Bundle.evaluateFrom entry 0 none b.modules s with
  | error e s' => rfl
  | ok found s' =>
    cases found with
    | none => rfl
    | some v => cases v <;> rfl

/-- Evaluating a bundle of programs whose entry is the last one does what evaluating one program does
that has their bodies as its statements, each as one block. Both print the same and leave the same of
the input. Both give values with the same printed form, and then the global names are the same and so
are the printed forms of their values; or both fail, with the same failure. The run of the one program
may be the only one to reach the bound on nesting, since it is nested one deeper. -/
theorem modules_run_as_one (b : Bundle) (programs : List Program) (console : Option Console)
    (given : programs ≠ []) (all : b.modules.map (·.bind Module.program) = programs.map some)
    (last : b.entry = some (.position (programs.length - 1))) :
    match evaluateProgram (some (Program.whole programs)) (State.initial console) with
    | .ok v t => ∃ u s, b.evaluate (State.initial console) = .ok u s ∧
        s.output = t.output ∧ s.console = t.console ∧
        u.format s.vectors = v.format t.vectors ∧ s.globalTexts = t.globalTexts
    | .error .tooDeep _ => True
    | .error e t => ∃ failure s, b.evaluate (State.initial console) = .error failure s ∧
        s.output = t.output ∧ s.console = t.console ∧ failure.cause? = some e := by
  obtain ⟨first, rest, rfl⟩ := List.exists_cons_of_ne_nil given
  obtain ⟨log, whole⟩ := evaluateProgram_whole (first :: rest) console
  have ended := Bundle.evaluateFrom_ends first rest b.modules 0 none
    (State.initial_paired console log) all
  have position : (first :: rest).length - 1 = 0 + rest.length := by simp
  rw [whole, Bundle.evaluate_run last, position]
  generalize Bundle.evaluateFrom _ 0 none b.modules (State.initial console) = left at ended ⊢
  generalize Eval.statements eval State.global _ (State.begun console log) = right at ended ⊢
  cases ended with
  | @ok kept v s t values states =>
    obtain ⟨u, rfl, values⟩ := values
    refine ⟨u, s, ?_, states.output, states.console, values.format_eq states.vectors,
      states.globalTexts_eq⟩
    cases u with
    | nothing => exact absurd rfl values.ne_nothing
    | _ => rfl
  | @error name path e s t states =>
    cases e with
    | tooDeep => trivial
    | _ => exact ⟨_, s, rfl, states.output, states.console, rfl⟩
  | tooDeep => trivial

/-- A program that binds and prints a name. -/
def binding : Program :=
  ⟨some [.define ["x"] [.literal (.integer 2)], .print (.identifier "x") "; "]⟩

/-- A program that uses the name and binds another one. -/
def doubling : Program := ⟨some [.eval (.define "y" (.binary "+" (.identifier "x") (.identifier "x")))]⟩

/-- A bundle of the two programs. -/
def twoModules : Bundle where
  modules := [some ⟨"binding", "binding.json", some binding⟩,
    some ⟨"doubling", "doubling.json", some doubling⟩]
  entry := some (.position 1)

theorem twoModules_run_as_one : ∃ u s, twoModules.evaluate (State.initial none) = .ok u s ∧
    s.output = "2; " ∧ u.format s.vectors = "4" ∧ s.globalTexts = [("x", "2"), ("y", "4")] := by
  have together := modules_run_as_one twoModules [binding, doubling] none (List.cons_ne_nil _ _) rfl rfl
  have computed : (match evaluateProgram (some (Program.whole [binding, doubling]))
        (State.initial none) with
      | .ok v t => some (t.output, v.format t.vectors, t.globalTexts)
      | .error _ _ => none) = some ("2; ", "4", [("x", "2"), ("y", "4")]) := by
    decide +kernel
  cases run : evaluateProgram (some (Program.whole [binding, doubling])) (State.initial none) with
  | error e t =>
    rw [run] at computed
    cases computed
  | ok v t =>
    rw [run] at together computed
    obtain ⟨u, s, modules, output, _, value, texts⟩ := together
    simp only [Option.some.injEq, Prod.mk.injEq] at computed
    obtain ⟨output', value', texts'⟩ := computed
    exact ⟨u, s, modules, output.trans output', value.trans value', texts.trans texts'⟩

end Smpl

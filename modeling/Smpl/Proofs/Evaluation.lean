import Smpl.Proofs.Judgement
import Smpl.Proofs.Operators

/-!
# What holds of evaluation

A lawful judgement holds of every evaluation (`Judgement.Lawful.evaluates`). The proof has one lemma
for each function of the evaluator, under the assumption that the parts of an expression are
evaluated well (`Judgement.Evaluates`), and ends with an induction on the bound on nesting.

What a caller knows before a machine stays known after it, since worlds only grow; the `mono` lemmas
carry it over.
-/

namespace Smpl

/-! ## Blocks and literals -/

namespace Eval

/-- Evaluates statements in order, the first of them after one that gave a value. Each value goes to
the register, but the last one is kept at hand as well. -/
def statementsAfter (eval : Evaluator) (env : ScopeId) : Value → List Stmt → Machine Value
  | last, [] => do
    Machine.setRegister last
    pure last
  | last, s :: rest => do
    Machine.setRegister last
    let v ← statement eval env s
    statementsAfter eval env v rest

theorem setRegister_statements (eval : Evaluator) (env : ScopeId) (last : Value)
    (body : List Stmt) :
    (do Machine.setRegister last; statements eval env body) =
      statementsAfter eval env last body := by
  induction body generalizing last with
  | nil => rfl
  | cons s rest ih => simp only [statements, statementsAfter, ih]

/-- The value of a block is that of its last statement; the register need not be read for it. -/
theorem block_eq (eval : Evaluator) (env : ScopeId) (body : List Stmt) :
    block eval env body =
      (do let zero ← Machine.newScalar (.integer 0); statementsAfter eval env zero body) := by
  simp only [block, setRegister_statements]

end Eval

/-- An evaluator that does nothing about a literal but make its value. -/
def Evaluator.Plain (eval : Evaluator) : Prop :=
  ∀ contents env, eval (.literal contents) env = Machine.newScalar contents ∨
    eval (.literal contents) env = throw .tooDeep

theorem evalWithin_plain (bound : Nat) : (evalWithin bound).Plain := by
  intro contents env
  cases bound with
  | zero => exact .inr rfl
  | succ bound => exact .inl rfl

namespace Judgement.Lawful

variable {World : Type} [Preorder World] {J : Judgement World} (law : J.Lawful)
  {w : World} {eval : Evaluator} {env : ScopeId}

/-! ## Elementary machines -/

include law

theorem lift {α : Type} {x : Except Failure α} {Q : World → α → Prop}
    (ok : ∀ a, x = .ok a → Q w a) (error : ∀ e, x = .error e → J.strict → e.expected) :
    J.Holds w (Machine.lift x) Q := by
  cases x with
  | ok a => exact law.pure (ok a rfl)
  | error e => exact law.fail (error e rfl)

theorem newScalar {contents : Scalar} : J.Holds w (Machine.newScalar contents) J.Admits :=
  law.bind law.newObjects fun _ _ _ made => law.pure (admits_scalar (made 0 Nat.one_pos))

theorem newList {values : List Value} (h : ∀ v ∈ values, J.Admits w v) :
    J.Holds w (Machine.newList values) J.Admits :=
  law.bind law.newObjects fun _ _ hw made =>
    law.pure (admits_listFrom (Admits.all_mono law hw h) made)

theorem newCons {head tail : Value} (hh : J.Admits w head) (ht : J.Admits w tail) :
    J.Holds w (Machine.newCons head tail) J.Admits :=
  law.bind law.newObjects fun _ _ hw made =>
    law.pure (admits_cons (made 0 Nat.one_pos) (hh.mono law hw) (ht.mono law hw))

theorem put {name : String} {v : Value} (he : J.Writable w env) (hv : J.Admits w v) :
    J.Holds w (Machine.put env name v) fun _ _ => True := by
  have single : Machine.put env name v = Machine.putAll env [name] [v] := rfl
  rw [single]
  exact law.putAll he (by simpa using hv)

/-! ## Parts -/

section Parts

variable (parts : J.Evaluates eval)

include parts

theorem evalAll {es : List Expr} (hc : ∀ e ∈ es, J.Allows e) (he : J.Writable w env) :
    J.Holds w (Eval.evalAll eval env es)
      fun w' vs => vs.length = es.length ∧ ∀ v ∈ vs, J.Admits w' v := by
  induction es generalizing w with
  | nil => exact law.pure ⟨rfl, by simp⟩
  | cons e rest ih =>
    obtain ⟨here, later⟩ := List.forall_mem_cons.mp hc
    refine law.bind (parts here he) fun v w₁ h₁ hv => ?_
    refine law.bind (ih later (law.writable_mono h₁ he)) fun vs w₂ h₂ hvs => ?_
    -- The first value is still admitted in the world in which the others have been found.
    refine law.pure ⟨by simp [hvs.1], ?_⟩
    simpa using ⟨hv.mono law h₂, hvs.2⟩

theorem condition {operation : String} {e : Expr} (hc : J.Allows e) (he : J.Writable w env) :
    J.Holds w (Eval.condition eval operation e env) fun _ _ => True := by
  refine law.bind (parts hc he) fun v w₁ _ hv => law.lift (fun _ _ => trivial) fun f hf hs => ?_
  exact (hv.sound hs).truth_expected hf

theorem integer {operation : String} {e : Expr} (hc : J.Allows e) (he : J.Writable w env) :
    J.Holds w (Eval.integer eval operation e env) fun _ _ => True := by
  refine law.bind (parts hc he) fun v w₁ _ hv => law.lift (fun _ _ => trivial) fun f hf hs => ?_
  exact (hv.sound hs).int_expected hf

omit parts in
/-- A value taken as a vector gives a vector of the region. -/
theorem vectorOf {operation : String} {v : Value} (hv : J.Admits w v) :
    J.Holds w (Machine.lift (Eval.vectorOf operation v))
      fun w' id => (J.region w').vector id := by
  refine law.lift (fun id hid => ?_) fun f hf => ?_
  · unfold Eval.vectorOf at hid
    split at hid <;> cases hid
    exact hv.within
  · unfold Eval.vectorOf at hf
    split at hf <;> cases hf
    exact hv.expected

/-- The slot that is found is one of the vector, now and later. -/
theorem findSlot {name : String} {index : Expr} (hc : J.Allows index) (he : J.Writable w env) :
    J.Holds w (Eval.findSlot eval name index env) fun w' found => J.HasSlot w' found.1 found.2 := by
  refine law.bind (parts hc he) fun v w₁ h₁ hv => ?_
  refine law.bind (P := fun _ _ => True) (law.lift (fun _ _ => trivial) fun f hf => ?_)
    fun position w₂ h₂ _ => ?_
  · unfold Eval.slotPosition at hf
    split at hf <;> cases hf
    exact hv.expected
  refine law.bind (law.lookup (law.writable_mono (le_trans h₁ h₂) he)) fun target w₃ h₃ ht => ?_
  refine law.bind (law.vectorOf ht) fun id w₄ h₄ hid => ?_
  refine law.bind (law.vectorSize hid) fun size w₅ h₅ hsize => ?_
  -- The check of the position is what makes the slot one of the vector.
  split
  · exact law.fail fun _ => rfl
  · next inside => exact law.pure (hsize _ (by omega))

/-! ## Calls -/

omit parts in
/-- The scope of a call binds as many names as values. -/
theorem callScope {d : Declaration} {scope : Option ScopeId} {arguments : List Value}
    (hs : J.Encloses w scope) (ha : ∀ v ∈ arguments, J.Admits w v) :
    J.Holds w (Eval.callScope d scope arguments) J.Writable := by
  have bound : (d.parameters.take (min arguments.length d.parameters.length)).length =
      (arguments.take (min arguments.length d.parameters.length)).length := by
    simp only [List.length_take]
    omega
  have leading : ∀ v ∈ arguments.take (min arguments.length d.parameters.length), J.Admits w v :=
    fun v hv => ha v (List.mem_of_mem_take hv)
  unfold Eval.callScope
  split
  · exact law.newScope bound leading hs
  · refine law.bind (law.newList fun v hv => ha v (List.mem_of_mem_drop hv))
      fun surplus w₁ h₁ hsurplus => ?_
    refine law.newScope (by simp) (fun v hv => ?_) (hs.mono law h₁)
    rcases List.mem_append.mp hv with inLeading | inSurplus
    · exact (leading v inLeading).mono law h₁
    · cases List.mem_singleton.mp inSurplus
      exact hsurplus

theorem callProcedure {callee : Option Procedure} {arguments : List Value}
    (hp : ∀ p ∈ callee, J.Admits w (.procedure p)) (present : J.strict → callee.isSome)
    (ha : ∀ v ∈ arguments, J.Admits w v) :
    J.Holds w (Eval.callProcedure eval callee arguments) J.Admits := by
  cases callee with
  | none => exact law.fail fun hs => nomatch present hs
  | some p =>
    have hp := hp p rfl
    unfold Eval.callProcedure
    simp only []
    cases hd : p.declaration with
    | none => exact law.fail fun hs => absurd hs (hp.declared hd)
    | some d =>
      simp only []
      split
      · exact law.fail fun _ => rfl
      · refine law.bind (law.callScope hp.encloses ha) fun env w₁ _ he => ?_
        refine law.bind law.note fun _ w₂ h₂ _ => ?_
        exact parts (hp.body hd) (law.writable_mono h₂ he)

omit parts in
theorem procedureOf {operation : String} {v : Value} (hv : J.Admits w v) :
    J.Holds w (Machine.lift (Eval.procedureOf operation v)) fun w' p => J.Admits w' (.procedure p) := by
  refine law.lift (fun p hp => ?_) fun f hf => ?_
  · unfold Eval.procedureOf at hp
    split at hp <;> cases hp
    exact hv
  · unfold Eval.procedureOf at hf
    split at hf <;> cases hf
    exact hv.expected

omit parts in
theorem argumentsOf {v : Value} (hv : J.Admits w v) :
    J.Holds w (Machine.lift (Eval.argumentsOf v)) fun w' vs => ∀ u ∈ vs, J.Admits w' u := by
  obtain ⟨ok, error⟩ := admits_elements hv
  unfold Eval.argumentsOf
  cases found : v.elements with
  | ok vs => exact law.pure (ok vs found)
  | error u => exact law.fail (error u found).expected

/-! ## Vectors -/

omit parts in
/-- The procedure of a generator takes one argument or none, and is given as many. -/
theorem generatorArguments {d : Declaration} (few : d.parameters.length ≤ 1) {index : Nat} :
    J.Holds w (Eval.generatorArguments d index)
      fun w' vs => d.parameters.length = vs.length ∧ ∀ v ∈ vs, J.Admits w' v := by
  unfold Eval.generatorArguments
  split
  · next one =>
    exact law.bind law.newScalar fun i _ _ hi => law.pure ⟨one, by simpa using hi⟩
  · exact law.pure ⟨by simp only [List.length_nil]; omega, by simp⟩

theorem generate {d : Declaration} {scope : Option ScopeId} (few : d.parameters.length ≤ 1)
    (hb : J.Allows d.body) {remaining index : Nat} {made : Array Value}
    (hs : J.Encloses w scope) (hm : ∀ v ∈ made, J.Admits w v) :
    J.Holds w (Eval.generate eval d scope remaining index made)
      fun w' vs => ∀ v ∈ vs, J.Admits w' v := by
  induction remaining generalizing w index made with
  | zero => exact law.pure hm
  | succ remaining ih =>
    refine law.bind (law.generatorArguments few) fun arguments w₁ h₁ ha => ?_
    refine law.bind (law.newScope ha.1 ha.2 (hs.mono law h₁)) fun env w₂ h₂ he => ?_
    refine law.bind (parts hb he) fun v w₃ h₃ hv => ?_
    -- The scope of the closure and the elements made so far outlive the call.
    have later : w ≤ w₃ := le_trans h₁ (le_trans h₂ h₃)
    refine ih (hs.mono law later) fun u hu => ?_
    rcases Array.mem_push.mp hu with old | rfl
    · exact (hm u old).mono law later
    · exact hv

theorem expand {id : ObjectId} {count : Int64} {source : Option Procedure} {made : Array Value}
    (hg : J.Admits w (.generator id count source)) (hm : ∀ v ∈ made, J.Admits w v) :
    J.Holds w (Eval.expand eval count source made) fun w' vs => ∀ v ∈ vs, J.Admits w' v := by
  unfold Eval.expand
  cases source with
  | none =>
    refine law.fail fun hs => ?_
    obtain ⟨_, p, hp, _⟩ := hg.sound hs
    cases hp
  | some p =>
    have hp := hg.source
    simp only []
    split
    · exact law.fail fun _ => rfl
    split
    · exact law.fail fun _ => rfl
    split
    · next unfit =>
      rcases unfit with negative | large
      -- A sound generator has no negative count, whatever was checked when it was made.
      · refine law.fail fun hs => absurd (hg.sound hs).1 ?_
        exact Int64.not_le.mpr negative
      · exact law.outgrown (decide_eq_true large)
    next few _ =>
    cases hd : p.declaration with
    | some d =>
      have few : d.parameters.length ≤ 1 := by simpa [Procedure.parameters, hd] using few
      exact law.generate parts few (hp.body hd) hp.encloses hm
    | none =>
      have notStrict := hp.declared hd
      simp only []
      split
      · exact law.pure hm
      · exact law.fail fun hs => absurd hs notStrict

theorem evalElements {es : List Expr} {made : Array Value} (hc : ∀ e ∈ es, J.Allows e)
    (he : J.Writable w env) (hm : ∀ v ∈ made, J.Admits w v) :
    J.Holds w (Eval.evalElements eval env es made) fun w' vs => ∀ v ∈ vs, J.Admits w' v := by
  induction es generalizing w made with
  | nil => exact law.pure hm
  | cons e rest ih =>
    obtain ⟨here, later⟩ := List.forall_mem_cons.mp hc
    refine law.bind (parts here he) fun v w₁ h₁ hv => ?_
    have hm₁ : ∀ v ∈ made, J.Admits w₁ v := fun u hu => (hm u hu).mono law h₁
    split
    · refine law.bind (law.expand parts hv hm₁) fun made' w₂ h₂ hm' => ?_
      exact ih later (law.writable_mono (le_trans h₁ h₂) he) hm'
    · refine ih later (law.writable_mono h₁ he) fun u hu => ?_
      rcases Array.mem_push.mp hu with old | rfl
      · exact hm₁ u old
      · exact hv

/-! ## Statements -/

theorem defineNames {names : List String} {values : List Expr}
    (hc : ∀ e ∈ values, J.Allows e) (he : J.Writable w env) :
    J.Holds w (Eval.defineNames eval env names values) fun _ _ => True := by
  unfold Eval.defineNames
  split
  · next value =>
    refine law.bind (parts (hc value (by simp)) he) fun v w₁ h₁ hv => ?_
    split
    · exact law.putAll (law.writable_mono h₁ he) (admits_spine hv)
    · exact law.fail fun _ => rfl
  · split
    · refine law.bind (law.evalAll parts hc he) fun vs w₁ h₁ hvs => ?_
      exact law.putAll (law.writable_mono h₁ he) hvs.2
    · exact law.fail fun _ => rfl

theorem assignSlot {name : String} {position : Expr} {values : List Expr}
    (hc : J.AllowsStmt (.assign name position values)) (he : J.Writable w env) :
    J.Holds w (Eval.assignSlot eval env name position values) fun _ _ => True := by
  unfold Eval.assignSlot
  split
  · next value =>
    have hp : J.Allows position := hc.part (by simp [Stmt.parts])
    have hv : J.Allows value := hc.part (by simp [Stmt.parts])
    refine law.bind (law.findSlot parts hp he) fun found w₁ h₁ slot => ?_
    refine law.bind (parts hv (law.writable_mono h₁ he)) fun v w₂ h₂ admitted => ?_
    -- The slot was found before the value was computed; vectors keep their slots meanwhile.
    exact law.setSlot (law.slot_mono h₂ slot) admitted
  · next several =>
    refine law.fail fun hs => ?_
    cases hc.complete hs
    exact absurd rfl (several _)

theorem statement {s : Stmt} (hc : J.AllowsStmt s) (he : J.Writable w env) :
    J.Holds w (Eval.statement eval env s) J.Admits := by
  cases s with
  | define names values =>
    have hv : ∀ e ∈ values, J.Allows e := fun _ => hc.part
    exact law.bind (law.defineNames parts hv he) fun _ _ _ _ => law.newScalar
  | assign name position values =>
    exact law.bind (law.assignSlot parts hc he) fun _ _ _ _ => law.newScalar
  | print value terminator =>
    have hv : J.Allows value := hc.part (by simp [Stmt.parts])
    refine law.bind (parts hv he) fun v w₁ _ admitted => ?_
    refine law.bind (law.format admitted) fun text w₂ h₂ _ => ?_
    refine law.bind law.write fun _ w₃ h₃ _ => ?_
    have admitted₃ := admitted.mono law (le_trans h₂ h₃)
    exact law.bind (law.setRegister admitted₃) fun _ w₄ h₄ _ => law.pure (admitted₃.mono law h₄)
  | eval e => exact parts (hc.part (by simp [Stmt.parts])) he

theorem statementsAfter {body : List Stmt} {last : Value} (hc : ∀ s ∈ body, J.AllowsStmt s)
    (he : J.Writable w env) (hl : J.Admits w last) :
    J.Holds w (Eval.statementsAfter eval env last body) J.Admits := by
  induction body generalizing w last with
  | nil => exact law.bind (law.setRegister hl) fun _ w₁ h₁ _ => law.pure (hl.mono law h₁)
  | cons s rest ih =>
    obtain ⟨here, later⟩ := List.forall_mem_cons.mp hc
    refine law.bind (law.setRegister hl) fun _ w₁ h₁ _ => ?_
    have he₁ := law.writable_mono h₁ he
    refine law.bind (law.statement parts here he₁) fun v w₂ h₂ hv => ?_
    exact ih later (law.writable_mono h₂ he₁) hv

theorem block {body : List Stmt} (hc : ∀ s ∈ body, J.AllowsStmt s) (he : J.Writable w env) :
    J.Holds w (Eval.block eval env body) J.Admits := by
  rw [Eval.block_eq]
  refine law.bind law.newScalar fun zero w₁ h₁ hzero => ?_
  exact law.statementsAfter parts hc (law.writable_mono h₁ he) hzero

/-! ## Expressions -/

theorem branch {e : Expr} (hc : J.Allows e) (he : J.Writable w env) :
    J.Holds w (Eval.branch eval e env) J.Admits := by
  refine law.bind (parts hc he) fun v w₁ _ hv => ?_
  exact law.bind (law.setRegister hv) fun _ w₂ h₂ _ => law.pure (hv.mono law h₂)

omit parts in
/-- The condition of a clause for all other cases selects it. -/
theorem elseCondition (plain : eval.Plain) :
    J.Holds w (eval (.literal (.string Smpl.elseCondition)) env)
      fun _ v => Eval.selects v = .ok true := by
  rcases plain (.string Smpl.elseCondition) env with run | run
  · rw [run]
    exact law.bind law.newObjects fun _ _ _ _ => law.pure rfl
  · rw [run]
    exact law.outgrown rfl

theorem select (plain : J.total → eval.Plain) {clauses : List (Expr × Expr)}
    (hc : ∀ c ∈ clauses, J.Allows c.1 ∧ J.Allows c.2)
    (closed : J.total → clauses.getLast?.any (·.1.isElse)) (he : J.Writable w env) :
    J.Holds w (Eval.select eval env clauses) J.Admits := by
  induction clauses generalizing w with
  | nil => exact law.register fun total => nomatch closed total
  | cons clause rest ih =>
    obtain ⟨condition, result⟩ := clause
    obtain ⟨⟨hcondition, hresult⟩, later⟩ := List.forall_mem_cons.mp hc
    by_cases last : J.total ∧ rest = []
    · -- The last clause of a total judgement is chosen, so nothing comes after it.
      obtain ⟨total, rfl⟩ := last
      cases Expr.eq_of_isElse (closed total)
      refine law.bind (law.elseCondition (plain total)) fun v w₁ h₁ chosen => ?_
      rw [chosen]
      exact law.branch parts hresult (law.writable_mono h₁ he)
    refine law.bind (parts hcondition he) fun v w₁ h₁ hv => ?_
    refine law.bind (P := fun _ _ => True) (law.lift (fun _ _ => trivial) fun f hf => ?_)
      fun chosen w₂ h₂ _ => ?_
    · unfold Eval.selects at hf
      split at hf
      · cases hf
      · split at hf <;> cases hf
        exact hv.expected
      · cases hf
        exact hv.expected
    have he₂ := law.writable_mono (le_trans h₁ h₂) he
    split
    · exact law.branch parts hresult he₂
    · refine ih later (fun total => ?_) he₂
      cases rest with
      | nil => exact absurd ⟨total, rfl⟩ last
      | cons next others => exact closed total

theorem lazy {body : Expr} (hc : J.Allows body) (he : J.Writable w env) :
    J.Holds w (Eval.lazy eval body env) J.Admits := by
  refine law.bind (law.memo? he) fun memo w₁ h₁ hmemo => ?_
  split
  · next memo =>
    have admitted := hmemo.1 memo rfl
    refine law.bind (law.format admitted) fun text w₂ h₂ _ => ?_
    refine law.bind law.note fun _ w₃ h₃ _ => ?_
    have admitted₃ := admitted.mono law (le_trans h₂ h₃)
    exact law.bind (law.setRegister admitted₃) fun _ w₄ h₄ _ => law.pure (admitted₃.mono law h₄)
  · refine law.bind (parts hc (law.writable_mono h₁ he)) fun v w₂ h₂ hv => ?_
    have he₂ := law.writable_mono (le_trans h₁ h₂) he
    -- The scope had no memo before the body; that its memo may be set is known since then.
    refine law.bind (law.setMemo he₂ (hmemo.2 rfl) hv) fun _ w₃ h₃ _ => ?_
    exact law.pure (hv.mono law h₃)

theorem letIn {bindings : List (String × Expr)} {body : Expr}
    (hc : J.Allows (.letIn bindings body)) (he : J.Writable w env) :
    J.Holds w (Eval.step eval (.letIn bindings body) env) J.Admits := by
  have hv : ∀ e ∈ bindings.map (·.2), J.Allows e := fun _ mem => hc.part (List.mem_cons_of_mem _ mem)
  refine law.bind (law.evalAll parts hv he) fun values w₁ h₁ hvs => ?_
  have sameLength : (bindings.map (·.1)).length = values.length := by simp [hvs.1]
  have enclosed : J.Encloses w₁ (some env) :=
    ⟨fun k hk => by cases hk; exact law.writable_scope (law.writable_mono h₁ he), fun _ => rfl⟩
  refine law.bind (law.newScope sameLength hvs.2 enclosed) fun inner w₂ h₂ hi => ?_
  exact parts (hc.part List.mem_cons_self) hi

theorem call {callee arguments : Expr} (hc : J.Allows (.call callee arguments))
    (he : J.Writable w env) : J.Holds w (Eval.step eval (.call callee arguments) env) J.Admits := by
  have hcallee : J.Allows callee := hc.part (by simp [Expr.parts])
  have harguments : J.Allows arguments := hc.part (by simp [Expr.parts])
  refine law.bind (parts hcallee he) fun calleeValue w₁ h₁ hv => ?_
  refine law.bind (law.procedureOf hv) fun p w₂ h₂ hp => ?_
  have he₂ := law.writable_mono (le_trans h₁ h₂) he
  refine law.bind (parts harguments he₂) fun argumentsValue w₃ h₃ ha => ?_
  refine law.bind (law.argumentsOf ha) fun args w₄ h₄ hargs => ?_
  refine law.callProcedure parts (fun q hq => ?_) (fun _ => rfl) hargs
  cases hq
  exact hp.mono law (le_trans h₃ h₄)

theorem conditional {test yes : Expr} {no : Option Expr}
    (hc : J.Allows (.conditional test yes no)) (he : J.Writable w env) :
    J.Holds w (Eval.step eval (.conditional test yes no) env) J.Admits := by
  have htest : J.Allows test := hc.part (by simp [Expr.parts])
  have hyes : J.Allows yes := hc.part (by simp [Expr.parts])
  refine law.bind (law.condition parts htest he) fun holds w₁ h₁ _ => ?_
  have he₁ := law.writable_mono h₁ he
  split
  · exact law.branch parts hyes he₁
  · split
    · next other => exact law.branch parts (hc.part (by simp [Expr.parts])) he₁
    · refine law.register fun total => ?_
      cases (hc.exhaustive total).conditional_isSome

theorem substring {text start stop : Expr}
    (hc : J.Allows (.substring text start stop)) (he : J.Writable w env) :
    J.Holds w (Eval.step eval (.substring text start stop) env) J.Admits := by
  have htext : J.Allows text := hc.part (by simp [Expr.parts])
  have hstart : J.Allows start := hc.part (by simp [Expr.parts])
  have hstop : J.Allows stop := hc.part (by simp [Expr.parts])
  refine law.bind (parts htext he) fun v w₁ h₁ hv => ?_
  refine law.bind (P := fun _ _ => True) (law.lift (fun _ _ => trivial) fun f hf => ?_)
    fun s w₂ h₂ _ => ?_
  · unfold Eval.textOf at hf
    split at hf <;> cases hf
    exact hv.expected
  have he₂ := law.writable_mono (le_trans h₁ h₂) he
  refine law.bind (law.integer parts hstart he₂) fun a w₃ h₃ _ => ?_
  refine law.bind (law.integer parts hstop (law.writable_mono h₃ he₂)) fun b w₄ h₄ _ => ?_
  refine law.bind (P := fun _ _ => True) (law.lift (fun _ _ => trivial) fun f hf _ => ?_)
    fun _ _ _ _ => law.newScalar
  exact Eval.slice_expected hf

theorem generator {count procedure : Expr} (hc : J.Allows (.generator count procedure))
    (he : J.Writable w env) :
    J.Holds w (Eval.step eval (.generator count procedure) env) J.Admits := by
  have hcount : J.Allows count := hc.part (by simp [Expr.parts])
  have hprocedure : J.Allows procedure := hc.part (by simp [Expr.parts])
  refine law.bind (law.integer parts hcount he) fun n w₁ h₁ _ => ?_
  split
  · exact law.fail fun _ => rfl
  next nonneg =>
  refine law.bind (parts hprocedure (law.writable_mono h₁ he)) fun v w₂ h₂ hv => ?_
  refine law.bind (law.procedureOf hv) fun p w₃ h₃ hp => ?_
  refine law.bind law.newObjects fun id w₄ h₄ made => ?_
  have hp := hp.mono law h₄
  refine law.pure ⟨?_, fun hs => ⟨Int64.not_lt.mp nonneg, p, rfl, hp.sound hs⟩, fun ht => ?_,
    made 0 Nat.one_pos, ?_⟩
  · intro q hq
    cases hq
    exact hp.within
  · intro q hq
    cases hq
    exact hp.exhaustive ht
  · intro q hq
    cases hq
    exact hp.numbered

/-- The two sides of a form are evaluated from left to right. -/
theorem sides {β : Type} {left right : Expr} {f : Value → Value → Machine β}
    {Q : World → β → Prop} (hl : J.Allows left) (hr : J.Allows right) (he : J.Writable w env)
    (after : ∀ w' l r, J.Admits w' l → J.Admits w' r → J.Holds w' (f l r) Q) :
    J.Holds w (do let l ← eval left env; let r ← eval right env; f l r) Q := by
  refine law.bind (parts hl he) fun l w₁ h₁ admitted => ?_
  refine law.bind (parts hr (law.writable_mono h₁ he)) fun r w₂ h₂ admittedRight => ?_
  exact after w₂ l r (admitted.mono law h₂) admittedRight

/-- One evaluation step, with the forms that have no lemma of their own. -/
theorem step (plain : J.total → eval.Plain) {e : Expr} (hc : J.Allows e) (he : J.Writable w env) :
    J.Holds w (Eval.step eval e env) J.Admits := by
  cases e with
  | missing => exact law.fail fun hs => nomatch hc.complete hs
  | block body => exact law.block parts (fun _ => hc.statement) he
  | letIn bindings body => exact law.letIn parts hc he
  | identifier name => exact law.lookup he
  | literal value => exact law.newScalar
  | emptyList => exact law.pure admits_empty
  | procedure parameters rest body =>
    have hbody : J.Allows body := hc.part (by simp [Expr.parts])
    refine law.bind law.newObjects fun id w₁ h₁ made => law.pure ⟨fun k hk => ?_, fun hs => ?_,
      fun ht => ?_, made 0 Nat.one_pos⟩
    · cases hk
      exact law.writable_scope (law.writable_mono h₁ he)
    · exact ⟨⟨_, rfl, hbody.complete hs⟩, rfl⟩
    · intro d hd
      cases hd
      exact hbody.exhaustive ht
  | call callee arguments => exact law.call parts hc he
  | conditional test yes no => exact law.conditional parts hc he
  | select clauses =>
    have hclauses : ∀ c ∈ clauses, J.Allows c.1 ∧ J.Allows c.2 := fun c member =>
      ⟨hc.part (List.mem_append_left _ (List.mem_map_of_mem member)),
        hc.part (List.mem_append_right _ (List.mem_map_of_mem member))⟩
    exact law.select parts plain hclauses (fun ht => (hc.exhaustive ht).select_last) he
  | «lazy» body => exact law.lazy parts (hc.part (by simp [Expr.parts])) he
  | define name body =>
    refine law.bind (parts (hc.part (by simp [Expr.parts])) he) fun v w₁ h₁ hv => ?_
    exact law.bind (law.put (law.writable_mono h₁ he) hv) fun _ w₂ h₂ _ => law.pure (hv.mono law h₂)
  | read => exact law.bind law.readLine fun _ _ _ _ => law.newScalar
  | readInteger => exact law.bind law.readInteger fun _ _ _ _ => law.newScalar
  | substring text start stop => exact law.substring parts hc he
  | pair left right =>
    exact law.sides parts (hc.part (by simp [Expr.parts])) (hc.part (by simp [Expr.parts])) he
      fun _ _ _ hl hr => law.newCons hl hr
  | list elements =>
    refine law.bind (law.evalAll parts (fun _ => hc.part) he) fun vs _ _ h => ?_
    exact law.newList h.2
  | vector elements =>
    refine law.bind (law.evalElements parts (fun _ => hc.part) he (by simp)) fun slots _ _ h => ?_
    exact law.newVector h
  | generator count procedure => exact law.generator parts hc he
  | index name position =>
    refine law.bind (law.findSlot parts (hc.part (by simp [Expr.parts])) he) fun found _ _ h => ?_
    exact law.slot h
  | size operand =>
    refine law.bind (parts (hc.part (by simp [Expr.parts])) he) fun v _ _ hv => ?_
    refine law.bind (law.vectorOf hv) fun id _ _ hid => ?_
    exact law.bind (law.vectorSize hid) fun _ _ _ _ => law.newScalar
  | car operand =>
    refine law.bind (parts (hc.part (by simp [Expr.parts])) he) fun v _ _ hv => ?_
    exact law.lift (fun u hu => hv.first hu) fun f hf hs => (hv.sound hs).first_expected hf
  | cdr operand =>
    refine law.bind (parts (hc.part (by simp [Expr.parts])) he) fun v _ _ hv => ?_
    exact law.lift (fun u hu => hv.second hu) fun f hf hs => (hv.sound hs).second_expected hf
  | isPair operand =>
    refine law.bind (parts (hc.part (by simp [Expr.parts])) he) fun v _ _ hv => ?_
    refine law.bind (P := fun _ _ => True) (law.lift (fun _ _ => trivial) fun f hf hs => ?_)
      fun _ _ _ _ => law.newScalar
    exact (hv.sound hs).pairTest_expected hf
  | identical left right =>
    exact law.sides parts (hc.part (by simp [Expr.parts])) (hc.part (by simp [Expr.parts])) he
      fun _ _ _ _ _ => law.newScalar
  | binary operator left right =>
    refine law.sides parts (hc.part (by simp [Expr.parts])) (hc.part (by simp [Expr.parts])) he
      fun _ _ _ hl hr => ?_
    exact law.bind (law.binary hl hr) fun _ _ _ _ => law.newScalar
  | unary operator operand =>
    refine law.bind (parts (hc.part (by simp [Expr.parts])) he) fun v _ _ hv => ?_
    refine law.bind (P := fun _ _ => True) (law.lift (fun _ _ => trivial) fun f hf hs => ?_)
      fun _ _ _ _ => law.newScalar
    exact applyUnary_expected (by cases hc.complete hs; assumption) (hv.sound hs) hf

end Parts

/-- A lawful judgement holds of every evaluation, whatever the bound on nesting. -/
theorem evaluates (bound : Nat) : J.Evaluates (evalWithin bound) := by
  -- One step needs its parts evaluated well, and these have the smaller bound.
  induction bound with
  | zero => exact fun _ _ _ _ _ => law.outgrown rfl
  | succ bound ih => exact fun _ _ _ hc he => law.step ih (fun _ => evalWithin_plain bound) hc he

end Judgement.Lawful

end Smpl

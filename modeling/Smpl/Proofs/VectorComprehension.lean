import Smpl.Proofs.CallScopes

/-!
# Vector comprehension

A vector literal evaluates its elements from left to right. A generator among their values is replaced
in place by the elements that it makes. The evaluator makes them in a loop of its own. As long as there
is room for them (`Eval.HasRoom`), they are what as many successive calls of the procedure of the
generator give, each for the index of its element or for nothing (`vector_calls_procedures`):

* One turn of the loop follows one call, which only adds a log line (`callProcedure_follows`).
* The loop follows the successive calls (`generate_follows`), and the expansion of a generator follows
  what the generator puts into a vector (`expand_follows`).
* The elements of a literal follow what they put into a vector, one after the other
  (`evalElements_ends`).

The room for the elements of a generator is set aside before the first call. If there is too little,
the literal crashes there, whatever the calls would have done (`endless_calls_not_made`).
-/

namespace Smpl

namespace Eval

/-! ## Successive calls -/

/-- What a procedure is given for an element: the index, if it has a parameter. -/
def indexArguments (p : Procedure) (index : Nat) : Machine (List Value) :=
  match p.parameters with
  | [] => pure []
  | _ :: _ => do
    let i ← Machine.newScalar (.integer (Int64.ofNat index))
    pure [i]

/-- The results of successive calls of a procedure, for the indices from `index` on. -/
def successiveCalls (eval : Evaluator) (p : Procedure) : Nat → Nat → Machine (List Value)
  | 0, _ => pure []
  | remaining + 1, index => do
    let arguments ← indexArguments p index
    let v ← callProcedure eval (some p) arguments
    let vs ← successiveCalls eval p remaining (index + 1)
    pure (v :: vs)

/-- What the value of an element puts into a vector: the results of the calls, if it is a generator,
else itself. The procedure of a generator takes the index or nothing, whatever the count is. No program
makes a generator that has no procedure to call, or a negative count. -/
def pieceOf (eval : Evaluator) : Value → Machine (List Value)
  | .generator _ _ none => throw .outOfRange
  | .generator _ count (some p) =>
    if p.restName? ≠ none then throw (.arity .generatorRest 0 1)
    else if 1 < p.parameters.length then
      throw (.arity .generatorParameters 1 p.parameters.length)
    else if count < 0 then throw (.noRoom count)
    else if p.declaration.isSome ∨ count = 0 then successiveCalls eval p count.toInt.toNat 0
    else throw .outOfRange
  | v => pure [v]

/-- The values of some elements, each with what it puts into a vector. -/
def pieces (eval : Evaluator) (env : ScopeId) : List Expr → Machine (List (Value × List Value))
  | [] => pure []
  | e :: rest => do
    let v ← eval e env
    let piece ← pieceOf eval v
    let others ← pieces eval env rest
    pure ((v, piece) :: others)

/-- Makes a vector of all that its elements put into it. -/
def vectorByCalls (eval : Evaluator) (env : ScopeId) (elements : List Expr) : Machine Value := do
  let all ← pieces eval env elements
  Machine.newVector (all.flatMap Prod.snd).toArray

/-- The counts of the generators among some values, and one for each other value. -/
def width : List Value → Nat
  | [] => 0
  | .generator _ count _ :: rest => count.toInt.toNat + width rest
  | _ :: rest => 1 + width rest

/-- There is room for what every element puts into a vector: a generator whose procedure takes the
index or nothing makes no more than `roomLimit` elements. -/
def HasRoom (eval : Evaluator) (env : ScopeId) (elements : List Expr) (s : State) : Prop :=
  ∀ before e after made s₁ id count p s₂, elements = before ++ e :: after →
    evalElements eval env before #[] s = .ok made s₁ →
    eval e env s₁ = .ok (.generator id count (some p)) s₂ →
    p.restName? = none → p.parameters.length ≤ 1 → count ≤ roomLimit

theorem evalElements_append (eval : Evaluator) (env : ScopeId) (before after : List Expr)
    (made : Array Value) :
    evalElements eval env (before ++ after) made =
      evalElements eval env before made >>= evalElements eval env after := by
  induction before generalizing made with
  | nil => rfl
  | cons e rest ih =>
    simp only [List.cons_append, evalElements, bind_assoc]
    congr 1
    funext v
    cases v with
    | generator id count source => simp only [bind_assoc, ih]
    | _ => exact ih _

/-! ## The number of elements -/

variable {eval : Evaluator} {s s' : State}

theorem successiveCalls_length {p : Procedure} {remaining index : Nat} {vs : List Value}
    (run : successiveCalls eval p remaining index s = .ok vs s') : vs.length = remaining := by
  induction remaining generalizing index s s' vs with
  | zero =>
    cases run
    rfl
  | succ remaining ih =>
    obtain ⟨_, _, _, called⟩ := Machine.bind_eq_ok.mp run
    obtain ⟨_, _, _, later⟩ := Machine.bind_eq_ok.mp called
    obtain ⟨others, _, rest, last⟩ := Machine.bind_eq_ok.mp later
    cases last
    rw [List.length_cons, ih rest]

theorem pieceOf_length {v : Value} {piece : List Value} (run : pieceOf eval v s = .ok piece s')
    (rest : List Value) : width (v :: rest) = piece.length + width rest := by
  cases v with
  | generator id count source =>
    cases source with
    | none => cases run
    | some p =>
      rw [pieceOf] at run
      split at run
      · cases run
      split at run
      · cases run
      split at run
      · cases run
      split at run
      · rw [successiveCalls_length run]
        rfl
      · cases run
  | _ =>
    cases run
    rfl

theorem pieces_length {env : ScopeId} {elements : List Expr} {all : List (Value × List Value)}
    (run : pieces eval env elements s = .ok all s') :
    (all.flatMap Prod.snd).length = width (all.map Prod.fst) := by
  induction elements generalizing s s' all with
  | nil =>
    cases run
    rfl
  | cons e rest ih =>
    obtain ⟨v, _, _, expanded⟩ := Machine.bind_eq_ok.mp run
    obtain ⟨piece, _, made, later⟩ := Machine.bind_eq_ok.mp expanded
    obtain ⟨others, _, following, last⟩ := Machine.bind_eq_ok.mp later
    cases last
    rw [List.flatMap_cons, List.length_append, ih following, List.map_cons, pieceOf_length made]

end Eval

/-! ## The loop of a generator -/

section Loop

variable {eval : Evaluator} (alike : Evaluator.Follows sameObjects eval eval)

theorem indexArguments_follows {p : Procedure} {d : Declaration} (declared : p.declaration = some d)
    (few : d.parameters.length ≤ 1) (index : Nat) :
    Machine.Follows sameObjects (Eval.generatorArguments d index) (Eval.indexArguments p index)
      fun vs ws => vs = ws ∧ d.parameters.length = ws.length := by
  have parameters : p.parameters = d.parameters := by rw [Procedure.parameters, declared]
  rw [Eval.indexArguments, Eval.generatorArguments, parameters]
  match names : d.parameters with
  | [] => exact .pure ⟨rfl, rfl⟩
  | [_] =>
    refine .bind (.newScalar _) fun _ _ values => .pure ?_
    rw [Value.paired_sameObjects.mp values]
    exact ⟨rfl, rfl⟩
  | _ :: _ :: _ =>
    rw [names] at few
    simp at few

include alike

theorem generate_follows {p : Procedure} {d : Declaration} (declared : p.declaration = some d)
    (plain : d.restName? = none) (few : d.parameters.length ≤ 1) (remaining index : Nat)
    (made : Array Value) :
    Machine.Follows sameObjects (Eval.generate eval d p.scope remaining index made)
      (Eval.successiveCalls eval p remaining index) fun all vs => all = made ++ vs.toArray := by
  induction remaining generalizing index made with
  | zero => exact .pure (by simp)
  | succ remaining ih =>
    refine .bind (indexArguments_follows declared few index) fun arguments _ found => ?_
    obtain ⟨rfl, full⟩ := found
    -- The new scope and the body in it are one call.
    rw [← bind_assoc]
    refine .bind (callProcedure_follows alike declared plain full) fun v _ same => ?_
    subst same
    refine .passed (ih (index + 1) (made.push v)) fun all vs here => ?_
    simp [here]

theorem expand_follows (id : ObjectId) (count : Int64) (source : Option Procedure)
    (made : Array Value)
    (room : ∀ p ∈ source, p.restName? = none → p.parameters.length ≤ 1 → count ≤ roomLimit) :
    Machine.Follows sameObjects (Eval.expand eval count source made)
      (Eval.pieceOf eval (.generator id count source)) fun all piece => all = made ++ piece.toArray := by
  cases source with
  | none => exact .fail _
  | some p =>
    rw [Eval.expand, Eval.pieceOf]
    split
    · exact .fail _
    next plain =>
    split
    · exact .fail _
    next few =>
    by_cases negative : count < 0
    · rw [if_pos (.inl negative), if_pos negative]
      exact .fail _
    have enough : count ≤ roomLimit := room p rfl (not_not.mp plain) (Nat.le_of_not_lt few)
    rw [if_neg negative, if_neg (not_or.mpr ⟨negative, Int64.not_lt.mpr enough⟩)]
    cases declared : p.declaration with
    | some d =>
      rw [Procedure.restName?, declared] at plain
      rw [Procedure.parameters, declared] at few
      have called : (some d).isSome ∨ count = 0 := .inl rfl
      rw [if_pos called]
      exact generate_follows alike declared (not_not.mp plain) (Nat.le_of_not_lt few) _ 0 made
    | none =>
      -- Without a declaration there is nothing to call, which does not matter for no elements.
      by_cases zero : count = 0
      · subst zero
        exact .pure (by simp)
      · dsimp only
        rw [if_neg zero, if_neg (by simp [zero])]
        exact .fail _

/-- The elements from some place in a literal on follow what they put into the vector. -/
theorem evalElements_ends {env : ScopeId} {elements : List Expr} {start : State}
    (room : Eval.HasRoom eval env elements start) (rest : List Expr) :
    ∀ (before : List Expr) (made : Array Value) (s t : State), elements = before ++ rest →
      Eval.evalElements eval env before #[] start = .ok made s → s.Paired sameObjects t →
      Ends sameObjects (fun all found => all = made ++ (found.flatMap Prod.snd).toArray)
        (Eval.evalElements eval env rest made s) (Eval.pieces eval env rest t) := by
  induction rest with
  | nil => exact fun before made s t _ _ states => .ok (by simp) states
  | cons e rest ih =>
    intro before made s t split run states
    have on : elements = (before ++ [e]) ++ rest := by
      rw [split, List.append_assoc, List.singleton_append]
    have run' : Eval.evalElements eval env (before ++ [e]) #[] start =
        Eval.evalElements eval env [e] made s := by
      rw [Eval.evalElements_append]
      simp only [bind, EStateM.bind, run]
    refine Ends.bind (alike e env s t states) fun v _ s₁ t₁ here values states₁ => ?_
    obtain rfl := Value.paired_sameObjects.mp values
    simp only [Eval.evalElements, bind, EStateM.bind, here] at run'
    cases v with
    | generator id count source =>
      have enough : ∀ p ∈ source, p.restName? = none → p.parameters.length ≤ 1 →
          count ≤ roomLimit := by
        rintro p rfl plain few
        exact room before e rest made s id count p s₁ split run here plain few
      refine Ends.bind (expand_follows alike id count source made enough s₁ t₁ states₁)
        fun made' piece s₂ t₂ expanded here' states₂ => ?_
      simp only [EStateM.bind, expanded] at run'
      refine (ih _ made' s₂ t₂ on run' states₂).passed fun all found later => ?_
      simp [later, here']
    | _ =>
      simp only [Eval.pieceOf, pure_bind]
      refine (ih _ _ s₁ t₁ on run' states₁).passed fun all found later => ?_
      simp [later]

/-- A literal ends like the vector of all that its elements put into it, if there is room for it. -/
theorem vector_ends {env : ScopeId} {elements : List Expr} {s : State}
    (room : Eval.HasRoom eval env elements s) :
    Ends sameObjects Eq (Eval.step eval (.vector elements) env s)
      (Eval.vectorByCalls eval env elements s) := by
  refine Ends.bind (evalElements_ends alike room elements [] #[] s s rfl rfl
    (sameObjects_keepsObjects.refl s))
    fun all found s₁ t₁ _ here states => ?_
  rw [here, Array.empty_append]
  exact (Machine.Follows.newVector (Value.allPaired_sameObjects.mpr rfl)).mono
    (fun _ _ => Value.paired_sameObjects.mp) s₁ t₁ states

end Loop

/-! ## Vector literals -/

namespace Eval

variable {eval : Evaluator} {env : ScopeId} {s s₁ s₂ : State}

theorem vectorByCalls_eq_ok {elements : List Expr} {v : Value}
    (run : vectorByCalls eval env elements s = .ok v s₁) :
    ∃ id all, v = .vector id ∧ (pieces eval env elements).outcome s = .ok all ∧
      s₁.vectors.slots id = (all.flatMap Prod.snd).toArray ∧
      (s₁.vectors.slots id).size = width (all.map Prod.fst) := by
  obtain ⟨all, s', found, made⟩ := Machine.bind_eq_ok.mp run
  have slots : Vectors.slots (s'.vectors.push (all.flatMap Prod.snd).toArray) s'.vectors.size =
      (all.flatMap Prod.snd).toArray := by
    simp [Vectors.slots]
  cases made
  refine ⟨s'.vectors.size, all, rfl, ?_, slots, ?_⟩
  · rw [Machine.outcome, found]
  · rw [slots, List.size_toArray, pieces_length found]

/-- A procedure with a rest parameter or several parameters makes no elements, not even none. -/
theorem expand_unfit (eval : Evaluator) {p : Procedure}
    (unfit : p.restName? ≠ none ∨ 1 < p.parameters.length) (count : Int64) (made : Array Value) :
    ∃ fault, fault.kind? = some .arityError ∧ expand eval count (some p) made = throw fault := by
  rw [expand]
  by_cases plain : p.restName? = none
  · have several := unfit.resolve_left (not_not.mpr plain)
    rw [if_neg (not_not.mpr plain), if_pos several]
    exact ⟨_, rfl, rfl⟩
  · rw [if_pos plain]
    exact ⟨_, rfl, rfl⟩

/-- A generator that there is no room for makes no elements. -/
theorem expand_noRoom (eval : Evaluator) {p : Procedure} (plain : p.restName? = none)
    (few : p.parameters.length ≤ 1) {count : Int64} (large : roomLimit < count) (made : Array Value) :
    expand eval count (some p) made = throw (.noRoom count) := by
  rw [expand, if_neg (not_not.mpr plain), if_neg (Nat.not_lt.mpr few), if_pos (.inr large)]

/-- A generator that cannot be expanded ends the literal. -/
theorem vector_of_expand {before : List Expr} {e : Expr} {after : List Expr} {made : Array Value}
    {id : ObjectId} {count : Int64} {source : Option Procedure} {fault : Failure}
    (earlier : evalElements eval env before #[] s = .ok made s₁)
    (here : eval e env s₁ = .ok (.generator id count source) s₂)
    (thrown : expand eval count source made = throw fault) :
    step eval (.vector (before ++ e :: after)) env s = .error fault s₂ := by
  have failed : evalElements eval env (before ++ e :: after) #[] s = .error fault s₂ := by
    rw [evalElements_append]
    simp only [bind, EStateM.bind, earlier, evalElements, here, thrown]
    rfl
  show EStateM.bind _ _ s = _
  rw [EStateM.bind, failed]

/-- Where a literal gives a value, there was room for it. -/
theorem hasRoom_of_ok {elements : List Expr} {v : Value}
    (run : step eval (.vector elements) env s = .ok v s₁) : HasRoom eval env elements s := by
  rintro before e after made s₂ id count p s₃ rfl earlier here plain few
  by_contra large
  have thrown := expand_noRoom eval plain few (Int64.not_le.mp large) made
  rw [vector_of_expand earlier here thrown] at run
  cases run

end Eval

/-- A vector literal that there is room for does what the successive calls do. It ends with the same
value or the same failure, and in the same state but for the log.

If a literal gives a vector, the slots are what the elements put into it one after the other. They are
as many as the values that are no generators and the counts of the generators together.

A generator whose procedure has a rest parameter or more than one parameter makes the literal fail,
whatever the count is. Any other generator that there is no room for makes it crash, before the first
call. -/
theorem vector_calls_procedures (bound : Nat) (elements : List Expr) (env : ScopeId) (s : State) :
    (Eval.HasRoom (evalWithin bound) env elements s →
      (evalWithin (bound + 1) (.vector elements) env).outcome s =
        (Eval.vectorByCalls (evalWithin bound) env elements).outcome s ∧
      ((evalWithin (bound + 1) (.vector elements) env).after s).SameBesidesLog
        ((Eval.vectorByCalls (evalWithin bound) env elements).after s)) ∧
    (∀ v s', evalWithin (bound + 1) (.vector elements) env s = .ok v s' →
      ∃ id all, v = .vector id ∧
        (Eval.pieces (evalWithin bound) env elements).outcome s = .ok all ∧
        s'.vectors.slots id = (all.flatMap Prod.snd).toArray ∧
        (s'.vectors.slots id).size = Eval.width (all.map Prod.fst)) ∧
    (∀ before e after made s₁ id count p s₂, elements = before ++ e :: after →
      Eval.evalElements (evalWithin bound) env before #[] s = .ok made s₁ →
      evalWithin bound e env s₁ = .ok (.generator id count (some p)) s₂ →
      (p.restName? ≠ none ∨ 1 < p.parameters.length →
        ∃ fault, fault.kind? = some .arityError ∧
          evalWithin (bound + 1) (.vector elements) env s = .error fault s₂) ∧
      (p.restName? = none → p.parameters.length ≤ 1 → roomLimit < count →
        evalWithin (bound + 1) (.vector elements) env s = .error (.noRoom count) s₂)) := by
  have alike : Evaluator.Follows sameObjects (evalWithin bound) (evalWithin bound) :=
    evalWithin_follows 0 (.inr rfl) bound
  refine ⟨fun room => (vector_ends alike room).alike, ?_, ?_⟩
  · intro v s' run
    obtain ⟨t, called, log, rfl⟩ := (vector_ends alike (Eval.hasRoom_of_ok run)).eq_ok run
    obtain ⟨id, all, vector, found, slots, size⟩ := Eval.vectorByCalls_eq_ok called
    exact ⟨id, all, vector, found, slots, size⟩
  · rintro before e after made s₁ id count p s₂ rfl earlier here
    constructor
    · intro unfit
      obtain ⟨fault, kind, thrown⟩ := Eval.expand_unfit (evalWithin bound) unfit count made
      exact ⟨fault, kind, Eval.vector_of_expand earlier here thrown⟩
    · intro plain few large
      exact Eval.vector_of_expand earlier here (Eval.expand_noRoom _ plain few large made)

/-- A generator that makes two indices, and a seven. -/
def indicesThenSeven : List Expr :=
  [.generator (.literal (.integer 2)) (.procedure ["i"] none (.identifier "i")), .literal (.integer 7)]

/-- A generator of no elements whose procedure has two parameters. -/
def pairsGenerator : Expr :=
  .generator (.literal (.integer 0)) (.procedure ["i", "j"] none (.identifier "i"))

theorem indicesThenSeven_called :
    (∃ id s', evalWithin 3 (.vector indicesThenSeven) State.global (State.initial none) =
        .ok (.vector id) s' ∧
      (Eval.vectorByCalls (evalWithin 2) State.global indicesThenSeven).outcome (State.initial none) =
        .ok (.vector id) ∧
      (Value.vector id).format s'.vectors = "[0, 1, 7]" ∧ (s'.vectors.slots id).size = 3) ∧
    ∃ fault s', fault.kind? = some .arityError ∧
      evalWithin 3 (.vector [.literal (.integer 7), pairsGenerator]) State.global
        (State.initial none) = .error fault s' := by
  obtain ⟨alike, made, _⟩ :=
    vector_calls_procedures 2 indicesThenSeven State.global (State.initial none)
  obtain ⟨_, _, unfit⟩ := vector_calls_procedures 2 [.literal (.integer 7), pairsGenerator] State.global
    (State.initial none)
  constructor
  · have printed : ((evalWithin 3 (.vector indicesThenSeven) State.global).outcome
        (State.initial none)).toOption.map (fun v => v.format
          ((evalWithin 3 (.vector indicesThenSeven) State.global).after (State.initial none)).vectors) =
        some "[0, 1, 7]" := by
      decide +kernel
    have counted : ((Eval.pieces (evalWithin 2) State.global indicesThenSeven).outcome
        (State.initial none)).toOption.map (fun all => Eval.width (all.map Prod.fst)) = some 3 := by
      decide +kernel
    cases run : evalWithin 3 (.vector indicesThenSeven) State.global (State.initial none) with
    | error e s' =>
      rw [Machine.outcome, run] at printed
      cases printed
    | ok v s' =>
      obtain ⟨id, all, rfl, found, _, size⟩ := made v s' run
      have called := (alike (Eval.hasRoom_of_ok run)).1.symm
      rw [Machine.outcome, Machine.after, run] at printed
      rw [Machine.outcome, Machine.outcome, run] at called
      rw [found] at counted
      exact ⟨id, s', rfl, called, Option.some.inj printed, size.trans (Option.some.inj counted)⟩
  · obtain ⟨fault, kind, failed⟩ := (unfit [.literal (.integer 7)] pairsGenerator [] _ _ _ _ _ _
      rfl rfl rfl).1 (.inr (by decide))
    exact ⟨fault, _, kind, failed⟩

/-- A generator of more elements than there is room for, each a division by zero. -/
def endlessCalls : Expr :=
  .generator (.literal (.integer 4611686018427387904))
    (.procedure [] none (.binary "/" (.literal (.integer 1)) (.literal (.integer 0))))

/-- The first of the calls divides by zero. The literal crashes before it. -/
theorem endless_calls_not_made :
    (∃ s, evalWithin 3 (.vector [endlessCalls]) State.global (State.initial none) =
      .error (.noRoom 4611686018427387904) s) ∧
    ∃ s, Eval.vectorByCalls (evalWithin 2) State.global [endlessCalls] (State.initial none) =
      .error .divisionByZero s :=
  ⟨⟨_, rfl⟩, ⟨_, rfl⟩⟩

end Smpl

import Smpl.Proofs.Decoding
import Smpl.Proofs.Soundness

/-!
# States that runs reach

A run starts with an empty store and evaluates programs read from texts, one after the other; a
program that fails leaves behind what it did until then, and the next one goes on from there.

In every state that is reached this way (`Reached`)
* no stored value (`Stored`) is absent, lists are proper, generators have a count and a procedure, and
  closures have a declaration and a scope;
* the parents of every scope form a finite chain without repetition up to the global scope
  (`ScopeChain`), and the value of a name is the one that the chain gives.

The failures of a first run are those that a program read from a text can run into
(`Failure.expected_iff`), or a vector has outgrown the room that there is. The run crashes then
(`decoded_program_crashes`).
-/

namespace Smpl

/-! ## Reached states -/

/-- The states that runs with a console reach. -/
inductive Reached (console : Option Console) : State → Prop
  | start : Reached console (State.initial console)
  | next {s : State} {source : String} {p : Program} :
      Reached console s → Program.decode source = .ok p →
      Reached console ((evaluateProgram (some p)).after s)

theorem Reached.sound {console : Option Console} {s : State} (h : Reached console s) : s.Sound := by
  induction h with
  | start => exact State.sound_initial console
  | @next s source p _ decoded ih =>
    have outcome := evaluateProgram_sound (Program.decode_complete decoded) ih
    rw [Machine.after]
    cases run : evaluateProgram (some p) s with
    | ok v s' =>
      rw [run] at outcome
      exact outcome.1
    | error e s' =>
      rw [run] at outcome
      exact outcome.1

/-! ## Stored values -/

/-- The values in the store of a state: those that are bound, kept as a memo, in a slot or in the
register, and the parts of such values. -/
inductive Stored (s : State) : Value → Prop
  | binding {k : ScopeId} {scope : Scope} {name : String} {v : Value} :
      s.scopes[k]? = some scope → (name, v) ∈ scope.bindings → Stored s v
  | memo {k : ScopeId} {scope : Scope} {v : Value} :
      s.scopes[k]? = some scope → scope.memo = some v → Stored s v
  | slot {id : VectorId} {slots : Array Value} {v : Value} :
      s.vectors[id]? = some slots → v ∈ slots → Stored s v
  | register : Stored s s.register
  | first {id : ObjectId} {a b : Value} : Stored s (.pair id a b) → Stored s a
  | second {id : ObjectId} {a b : Value} : Stored s (.pair id a b) → Stored s b
  | head {id : ObjectId} {head tail : Value} : Stored s (.cell id head tail) → Stored s head
  | tail {id : ObjectId} {head tail : Value} : Stored s (.cell id head tail) → Stored s tail
  | source {id : ObjectId} {count : Int64} {p : Procedure} :
      Stored s (.generator id count (some p)) → Stored s (.procedure p)

theorem Stored.valid {s : State} (sound : s.Sound) {v : Value} (h : Stored s v) :
    v.Valid s.extent := by
  induction h with
  | @binding k scope name v found bound =>
    exact (sound.stored.scopes k scope found).bindings (name, v) bound
  | @memo k scope v found kept => exact (sound.stored.scopes k scope found).memo v kept
  | @slot id slots v found inside => exact sound.stored.slots id slots found v inside
  | register => exact sound.register
  | first _ ih => exact ⟨ih.1.1, ih.2.1⟩
  | second _ ih => exact ⟨ih.1.2, ih.2.2⟩
  | head _ ih => exact ⟨ih.1.1, ih.2.1⟩
  | tail _ ih => exact ⟨ih.1.2, ih.2.2.1⟩
  | source _ ih =>
    obtain ⟨_, p, same, sound⟩ := ih.2
    cases same
    exact ⟨ih.1 _ rfl, sound⟩

/-- A sound list is proper. -/
theorem Value.Sound.elements {v : Value} (h : v.Sound) (listLike : v.isListLike) :
    ∃ vs, v.elements = .ok vs := by
  induction v with
  | empty => exact ⟨[], rfl⟩
  | cell id head tail _ ih =>
    obtain ⟨vs, rest⟩ := ih h.2.1 h.2.2
    exact ⟨head :: vs, by simp [Value.elements, rest]⟩
  | _ => cases listLike

/-! ## Chains of scopes -/

/-- The scopes from one outward, up to one without a parent. -/
inductive ScopeChain (scopes : Array Scope) : ScopeId → List ScopeId → Prop
  | outermost {k : ScopeId} {scope : Scope} :
      scopes[k]? = some scope → scope.parent = none → ScopeChain scopes k [k]
  | under {k parent : ScopeId} {scope : Scope} {chain : List ScopeId} :
      scopes[k]? = some scope → scope.parent = some parent → ScopeChain scopes parent chain →
      ScopeChain scopes k (k :: chain)

/-- The binding of a name in one scope. -/
def boundIn? (scopes : Array Scope) (name : String) (k : ScopeId) : Option Value :=
  scopes[k]?.bind fun scope => scope.bindings.get? name

namespace State.Sound

variable {s : State}

theorem parent_lt (sound : s.Sound) {k parent : ScopeId} {scope : Scope}
    (found : s.scopes[k]? = some scope) (under : scope.parent = some parent) : parent < k := by
  rcases sound.linked k scope found with ⟨_, none⟩ | ⟨p, older, some⟩
  · cases none.symm.trans under
  · cases some.symm.trans under
    exact older

/-- Every scope has a chain; what it holds is no younger than the scope. -/
theorem exists_chain (sound : s.Sound) (k : ScopeId) (old : k < s.scopes.size) :
    ∃ chain, ScopeChain s.scopes k chain ∧ (∀ j ∈ chain, j ≤ k) ∧ chain.Nodup ∧
      chain.getLast? = some State.global := by
  -- The parent is older than the scope, so its chain exists and does not come back to the scope.
  induction k using Nat.strongRecOn with
  | _ k ih =>
    have found : s.scopes[k]? = some s.scopes[k] := Array.getElem?_eq_getElem old
    rcases sound.linked k _ found with ⟨rfl, none⟩ | ⟨parent, older, under⟩
    · exact ⟨[State.global], .outermost found none, by simp, by simp, rfl⟩
    · obtain ⟨chain, outward, bound, distinct, last⟩ := ih parent older (Nat.lt_trans older old)
      have new : k ∉ chain := fun member => Nat.not_le.mpr older (bound k member)
      refine ⟨k :: chain, .under found under outward, ?_, List.nodup_cons.mpr ⟨new, distinct⟩, ?_⟩
      · intro j member
        rcases List.mem_cons.mp member with rfl | inChain
        · exact Nat.le_refl _
        · exact Nat.le_of_lt (Nat.lt_of_le_of_lt (bound j inChain) older)
      · rw [List.getLast?_cons, last]
        rfl

/-- Looking up a name goes through the chain and ends at the first scope that binds it. -/
theorem lookup_eq_findSome? (sound : s.Sound) {k : ScopeId} {chain : List ScopeId}
    (h : ScopeChain s.scopes k chain) (name : String) :
    s.lookup? k name = chain.findSome? (boundIn? s.scopes name) := by
  rw [State.lookup?]
  induction h with
  | @outermost k scope found top =>
    rw [State.lookupIn?_of_found found, top, List.findSome?_cons, boundIn?, found]
    simp only [Option.bind_some, List.findSome?_nil]
    cases scope.bindings.get? name <;> rfl
  | @under k parent scope chain found under _ ih =>
    -- The parent is older, so the look-up does go on there.
    have older : parent < k := sound.parent_lt found under
    rw [State.lookupIn?_of_found found, under, List.findSome?_cons, boundIn?, found]
    simp only [Option.bind_some, if_pos older, ih]
    cases scope.bindings.get? name <;> rfl

end State.Sound

/-! ## The store of a reached state -/

/-- In every state that runs reach, whether their programs ended in values or in failures, the store
is in order. No stored value is absent. The tail of a list is a list, and a list has elements. A
generator has a count that is not negative and a procedure; a closure has a declaration and a scope
that exists. From every scope a chain of distinct scopes leads to the global one, and looking up a
name ends with the first binding on the chain. -/
theorem reached_store_in_order {console : Option Console} {s : State} (h : Reached console s) :
    (∀ v, Stored s v → v ≠ .nothing) ∧
    (∀ id head tail, Stored s (.cell id head tail) →
      tail.isListLike ∧ ∃ vs, (Value.cell id head tail).elements = .ok vs) ∧
    (∀ id count source, Stored s (.generator id count source) → 0 ≤ count ∧ source.isSome) ∧
    (∀ p, Stored s (.procedure p) →
      p.declaration.isSome ∧ ∃ k, p.scope = some k ∧ k < s.scopes.size) ∧
    (∀ k < s.scopes.size, ∃ chain, ScopeChain s.scopes k chain ∧ chain.Nodup ∧
      chain.getLast? = some State.global ∧
      ∀ name, s.lookup? k name = chain.findSome? (boundIn? s.scopes name)) := by
  have sound := h.sound
  refine ⟨?_, ?_, ?_, ?_, ?_⟩
  · rintro v stored rfl
    exact (stored.valid sound).2
  · intro id head tail stored
    have proper := (stored.valid sound).2
    exact ⟨proper.2.2, proper.elements rfl⟩
  · intro id count source stored
    obtain ⟨_, natural, p, rfl, _⟩ := stored.valid sound
    exact ⟨natural, rfl⟩
  · intro p stored
    obtain ⟨within, ⟨d, declared, _⟩, closed⟩ := stored.valid sound
    obtain ⟨k, scope⟩ := Option.isSome_iff_exists.mp closed
    exact ⟨by rw [declared]; rfl, k, scope, within k scope⟩
  · intro k old
    obtain ⟨chain, outward, _, distinct, last⟩ := sound.exists_chain k old
    exact ⟨chain, outward, distinct, last, sound.lookup_eq_findSome? outward⟩

/-- The text of a program that reads a line. -/
def readingText : String := "\x7b\"type\":\"ReadExpression\"\x7d"

theorem decode_readingText : Program.decode readingText = .ok ⟨some [.eval .read]⟩ := by
  have parsed : Json.read? readingText = some (.object [("type", .string "ReadExpression")]) := by
    decide +kernel
  rw [Program.decode, parsed]
  rfl

/-- The text of a program that makes the list of the empty list. -/
def listingText : String :=
  "\x7b\"type\":\"ListExpression\",\"elements\":[\x7b\"type\":\"EmptyListLiteral\"\x7d]\x7d"

theorem decode_listingText :
    Program.decode listingText = .ok ⟨some [.eval (.list [.emptyList])]⟩ := by
  have parsed : Json.read? listingText =
      some (.object [("type", .string "ListExpression"),
        ("elements", .array [.object [("type", .string "EmptyListLiteral")]])]) := by
    decide +kernel
  rw [Program.decode, parsed]
  rfl

/-- The state after the first program, which fails without a console, and then the second. -/
def listingState : State :=
  (evaluateProgram (some ⟨some [.eval (.list [.emptyList])]⟩)).after
    ((evaluateProgram (some ⟨some [.eval .read]⟩)).after (State.initial none))

/-- A failed program and one that makes a list: the list in the register is proper. -/
theorem listing_store_in_order :
    Reached none listingState ∧ listingState.register = .cell 3 .empty .empty ∧
    Value.isListLike .empty ∧ ∃ vs, (Value.cell 3 .empty .empty).elements = .ok vs := by
  have reached : Reached none listingState :=
    .next (.next .start decode_readingText) decode_listingText
  have register : listingState.register = .cell 3 .empty .empty := rfl
  have stored : Stored listingState (.cell 3 .empty .empty) := register ▸ .register
  exact ⟨reached, register, (reached_store_in_order reached).2.1 3 .empty .empty stored⟩

/-! ## The failures of a run -/

theorem Failure.expected_iff (e : Failure) :
    e.expected ↔
      (e.kind?.isSome ∨ (∃ operation, e = .endOfInput operation) ∨
        (∃ operation, e = .noConsole operation) ∨ ∃ symbol, e = .unknownBinary symbol) ∧
      (∀ expected actual, e ≠ .arity .scopeBindings expected actual) ∧
      (∀ expected actual, e ≠ .arity .slotAssignment expected actual) ∧
      (∀ operation expected, e ≠ .wrongKind operation expected none) := by
  cases e with
  | wrongKind operation expected actual =>
    cases actual <;> simp [Failure.expected, Failure.kind?]
  | arity context expected actual =>
    cases context <;> simp [Failure.expected, Failure.kind?]
  | _ => simp [Failure.expected, Failure.kind?]

theorem Failure.noRoom_of_outgrown {e : Failure} (h : e.outgrown) (ended : e ≠ .tooDeep) :
    ∃ count, e = .noRoom count ∧ roomLimit < count := by
  cases e with
  | tooDeep => exact absurd rfl ended
  | noRoom count => exact ⟨count, rfl, of_decide_eq_true h⟩
  | _ => cases h

/-- A first run of a program read from a text that ends in a failure ends in an error of one of the
five kinds, at a console that gives nothing, or at a binary operator that does not exist. Never is
a scope or a slot given a wrong number of values, or an operand absent; and no access is out of
range, since that failure is of none of these kinds. The only other end is the crash at a generator of
more elements than there is room for. A run that is nested too deeply has not ended. -/
theorem decoded_program_fails_as_expected {source : String} {p : Program} {console : Option Console}
    {e : Failure} {s : State} (decoded : Program.decode source = .ok p)
    (failed : evaluateProgram (some p) (State.initial console) = .error e s)
    (ended : e ≠ .tooDeep) :
    ((e.kind?.isSome ∨ (∃ operation, e = .endOfInput operation) ∨
        (∃ operation, e = .noConsole operation) ∨ ∃ symbol, e = .unknownBinary symbol) ∧
      (∀ expected actual, e ≠ .arity .scopeBindings expected actual) ∧
      (∀ expected actual, e ≠ .arity .slotAssignment expected actual) ∧
      (∀ operation expected, e ≠ .wrongKind operation expected none)) ∨
    ∃ count, e = .noRoom count ∧ roomLimit < count := by
  have outcome :=
    evaluateProgram_sound (Program.decode_complete decoded) (State.sound_initial console)
  rw [failed] at outcome
  rcases outcome.2 with expected | outgrown
  · exact .inl (e.expected_iff.mp expected)
  · exact .inr (e.noRoom_of_outgrown outgrown ended)

/-- Reading a line without a console fails as it may. -/
theorem reading_fails_as_expected :
    Program.decode readingText = .ok ⟨some [.eval .read]⟩ ∧
    ∃ s, evaluateProgram (some ⟨some [.eval .read]⟩) (State.initial none) =
        .error (.noConsole "read") s ∧
      ((Failure.noConsole "read").kind?.isSome ∨
        (∃ operation, Failure.noConsole "read" = .endOfInput operation) ∨
        (∃ operation, Failure.noConsole "read" = .noConsole operation) ∨
        ∃ symbol, Failure.noConsole "read" = .unknownBinary symbol) := by
  have failed : ∃ s, evaluateProgram (some ⟨some [.eval .read]⟩) (State.initial none) =
      .error (.noConsole "read") s := ⟨_, rfl⟩
  obtain ⟨s, failed⟩ := failed
  refine ⟨decode_readingText, s, failed, ?_⟩
  rcases decoded_program_fails_as_expected decode_readingText failed nofun with expected | ⟨_, none, _⟩
  · exact expected.1
  · cases none

/-- The text of a program that makes a vector of more elements than there is room for. -/
def outgrownText : String :=
  "\x7b\"type\":\"VectorExpression\",\"elements\":[\x7b\"type\":\"VectorGenerator\"," ++
    "\"count\":\x7b\"type\":\"IntegerLiteral\",\"value\":4611686018427387904\x7d," ++
    "\"procedure\":\x7b\"type\":\"ProcedureExpression\"," ++
    "\"body\":\x7b\"type\":\"Identifier\",\"name\":\"x\"\x7d\x7d\x7d]\x7d"

/-- The statement of that text. -/
def outgrown : Stmt :=
  .eval (.vector [.generator (.literal (.integer 4611686018427387904))
    (.procedure [] none (.identifier "x"))])

/-- Such a text is a program, and the run crashes. -/
theorem decoded_program_crashes :
    Program.decode outgrownText = .ok ⟨some [outgrown]⟩ ∧
    ∃ s, evaluateProgram (some ⟨some [outgrown]⟩) (State.initial none) =
        .error (.noRoom 4611686018427387904) s ∧
      (Failure.noRoom 4611686018427387904).isCrash ∧
      ¬(Failure.noRoom 4611686018427387904).expected := by
  have parsed : Json.read? outgrownText =
      some (.object [("type", .string "VectorExpression"),
        ("elements", .array [.object [("type", .string "VectorGenerator"),
          ("count", .object [("type", .string "IntegerLiteral"),
            ("value", .number "4611686018427387904")]),
          ("procedure", .object [("type", .string "ProcedureExpression"),
            ("body", .object [("type", .string "Identifier"), ("name", .string "x")])])]])]) := by
    decide +kernel
  refine ⟨?_, _, rfl, rfl, by decide⟩
  rw [Program.decode, parsed]
  rfl

end Smpl

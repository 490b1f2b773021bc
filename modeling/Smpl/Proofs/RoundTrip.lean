import Mathlib.Data.List.Forall2
import Smpl.Program.Encode
import Smpl.Proofs.Decoding
import Smpl.Proofs.Numerals

/-!
# Programs written as JSON read back

Writing a program leaves out what is absent: the names of an assignment, the index of a plain
definition, a rest parameter, a second branch. Reading is lenient: an absent part may be a default, and
an identifier may be a plain string. The two fit: a program that was read from text, written as JSON
and read again, is the same program.

* One rule for each type of node says what a written object denotes when its parts denote something
  (`Denotes`).
* By induction on the program, every complete expression and statement has a JSON form that denotes it
  (`Expr.reads_back`, `Stmt.reads_back`), if its names are not empty and its reals can be written.

Main result: `decoded_program_reads_back`.
-/

namespace Smpl

/-! ## Names and literals -/

mutual

/-- Every identifier in an expression satisfies `N`, and every literal `L`. -/
inductive Expr.Leaves (N : String → Prop) (L : Scalar → Prop) : Expr → Prop
  | missing : Expr.Leaves N L .missing
  | block {body : List Stmt} : (∀ s ∈ body, Stmt.Leaves N L s) → Expr.Leaves N L (.block body)
  | letIn {bindings : List (String × Expr)} {body : Expr} :
      (∀ b ∈ bindings, N b.1) → (∀ b ∈ bindings, Expr.Leaves N L b.2) → Expr.Leaves N L body →
      Expr.Leaves N L (.letIn bindings body)
  | identifier {name : String} : N name → Expr.Leaves N L (.identifier name)
  | literal {value : Scalar} : L value → Expr.Leaves N L (.literal value)
  | emptyList : Expr.Leaves N L .emptyList
  | procedure {parameters : List String} {rest : Option String} {body : Expr} :
      (∀ name ∈ parameters, N name) → (∀ name ∈ rest, N name) → Expr.Leaves N L body →
      Expr.Leaves N L (.procedure parameters rest body)
  | call {callee arguments : Expr} :
      Expr.Leaves N L callee → Expr.Leaves N L arguments → Expr.Leaves N L (.call callee arguments)
  | conditional {test yes : Expr} {no : Option Expr} :
      Expr.Leaves N L test → Expr.Leaves N L yes → (∀ e ∈ no, Expr.Leaves N L e) →
      Expr.Leaves N L (.conditional test yes no)
  | select {clauses : List (Expr × Expr)} :
      (∀ c ∈ clauses, Expr.Leaves N L c.1) → (∀ c ∈ clauses, Expr.Leaves N L c.2) →
      Expr.Leaves N L (.select clauses)
  | lazy {body : Expr} : Expr.Leaves N L body → Expr.Leaves N L (.lazy body)
  | define {name : String} {body : Expr} :
      N name → Expr.Leaves N L body → Expr.Leaves N L (.define name body)
  | read : Expr.Leaves N L .read
  | readInteger : Expr.Leaves N L .readInteger
  | substring {text start stop : Expr} :
      Expr.Leaves N L text → Expr.Leaves N L start → Expr.Leaves N L stop →
      Expr.Leaves N L (.substring text start stop)
  | pair {left right : Expr} :
      Expr.Leaves N L left → Expr.Leaves N L right → Expr.Leaves N L (.pair left right)
  | list {elements : List Expr} :
      (∀ e ∈ elements, Expr.Leaves N L e) → Expr.Leaves N L (.list elements)
  | vector {elements : List Expr} :
      (∀ e ∈ elements, Expr.Leaves N L e) → Expr.Leaves N L (.vector elements)
  | generator {count procedure : Expr} :
      Expr.Leaves N L count → Expr.Leaves N L procedure →
      Expr.Leaves N L (.generator count procedure)
  | index {name : String} {position : Expr} :
      N name → Expr.Leaves N L position → Expr.Leaves N L (.index name position)
  | size {operand : Expr} : Expr.Leaves N L operand → Expr.Leaves N L (.size operand)
  | car {operand : Expr} : Expr.Leaves N L operand → Expr.Leaves N L (.car operand)
  | cdr {operand : Expr} : Expr.Leaves N L operand → Expr.Leaves N L (.cdr operand)
  | isPair {operand : Expr} : Expr.Leaves N L operand → Expr.Leaves N L (.isPair operand)
  | identical {left right : Expr} :
      Expr.Leaves N L left → Expr.Leaves N L right → Expr.Leaves N L (.identical left right)
  | binary {operator : String} {left right : Expr} :
      Expr.Leaves N L left → Expr.Leaves N L right → Expr.Leaves N L (.binary operator left right)
  | unary {operator : String} {operand : Expr} :
      Expr.Leaves N L operand → Expr.Leaves N L (.unary operator operand)

/-- Every identifier in a statement satisfies `N`, and every literal `L`. -/
inductive Stmt.Leaves (N : String → Prop) (L : Scalar → Prop) : Stmt → Prop
  | define {names : List String} {values : List Expr} :
      (∀ name ∈ names, N name) → (∀ e ∈ values, Expr.Leaves N L e) →
      Stmt.Leaves N L (.define names values)
  | assign {name : String} {position : Expr} {values : List Expr} :
      N name → Expr.Leaves N L position → (∀ e ∈ values, Expr.Leaves N L e) →
      Stmt.Leaves N L (.assign name position values)
  | print {value : Expr} {terminator : String} :
      Expr.Leaves N L value → Stmt.Leaves N L (.print value terminator)
  | eval {e : Expr} : Expr.Leaves N L e → Stmt.Leaves N L (.eval e)

end

/-- Every identifier in a program satisfies `N`, and every literal `L`. -/
def Program.Leaves (N : String → Prop) (L : Scalar → Prop) (p : Program) : Prop :=
  ∀ s ∈ p.statements, s.Leaves N L

/-- A literal that is no infinity and not NaN. -/
def Scalar.Finite : Scalar → Prop
  | .real x => x.isFinite
  | _ => True

/-- A literal whose JSON number, if it is a real, is read as the real again. -/
def Scalar.ReadsBack : Scalar → Prop
  | .real x => ∀ text, Numeric.jsonRealText? x = some text → Numeric.readReal text.toList = .ok x
  | _ => True

/-- A finite literal that reads back. -/
def Scalar.Writable (value : Scalar) : Prop := value.Finite ∧ value.ReadsBack

/-! ## What written objects denote -/

/-- Reading takes a JSON value for a node. -/
def Denotes (value : Json) (node : Node) : Prop :=
  ∃ fields, Item.ofJson value = .object fields (.ok node)

/-- Reading takes a JSON value for an expression. -/
def DenotesExpr (value : Json) (e : Expr) : Prop := Denotes value (.statement (.eval e))

/-- Reading takes a JSON value for a binding of a `let`. -/
def DenotesBinding (value : Json) (binding : String × Expr) : Prop :=
  ∃ fields node, Item.ofJson value = .object fields node ∧
    childIdentifier "Binding" fields "name" = .ok binding.1 ∧
    childExpr "Binding" fields "value" = .ok binding.2

/-- Reading takes a JSON value for a clause of a `case`. -/
def DenotesClause (value : Json) (clause : Expr × Expr) : Prop :=
  ∃ fields node, Item.ofJson value = .object fields node ∧
    childExpr "CaseClause" fields "condition" = .ok clause.1 ∧
    childExpr "CaseClause" fields "result" = .ok clause.2

/-- The members of a written object, as reading sees them. -/
def writtenFields (type : String) (parts : List (String × Json)) : Fields :=
  ("type", .atom (.string type)) :: Item.ofMembers parts

theorem denotes_nodeObject {type : String} {parts : List (String × Json)} {node : Node}
    (h : nodeOfFields (writtenFields type parts) = .ok node) :
    Denotes (nodeObject type parts) node := by
  refine ⟨writtenFields type parts, ?_⟩
  rw [← h]
  rfl

/-- The type of an expression decides how its members are read. -/
theorem denotesExpr_nodeObject {type : String} {parts : List (String × Json)} {e : Expr}
    {reading : Except DecodeError Expr}
    (typed : (writtenFields type parts).text "type" = type)
    (form : exprOfFields? type (writtenFields type parts) = some reading)
    (h : reading = .ok e) : DenotesExpr (nodeObject type parts) e := by
  subst h
  refine denotes_nodeObject ?_
  simp only [nodeOfFields, typed]
  -- The first four types are in no row of the table of expressions.
  split
  · cases form
  · cases form
  · cases form
  · cases form
  · rw [form]
    rfl

theorem denotes_identifier {name : String} (named : name ≠ "") :
    DenotesExpr (encodeIdentifier name) (.identifier name) := by
  refine denotesExpr_nodeObject rfl rfl ?_
  exact if_neg named

section Parts

variable {fields : Fields} {owner name : String} {value : Json}

theorem childNode_of_denotes {node : Node} (found : fields.get? name = some (Item.ofJson value))
    (denotes : Denotes value node) : childNode owner fields name = .ok node := by
  obtain ⟨inner, same⟩ := denotes
  rw [childNode, found, same]

theorem childExpr_of_denotes {e : Expr} (found : fields.get? name = some (Item.ofJson value))
    (denotes : DenotesExpr value e) : childExpr owner fields name = .ok e := by
  rw [childExpr, childNode_of_denotes found denotes]
  rfl

theorem hasObject_of_denotes {node : Node} (found : fields.get? name = some (Item.ofJson value))
    (denotes : Denotes value node) : fields.hasObject name = true := by
  obtain ⟨inner, same⟩ := denotes
  rw [Fields.hasObject, found, same]

theorem childIdentifier_written {id : String} (named : id ≠ "")
    (found : fields.get? name = some (Item.ofJson (encodeIdentifier id))) :
    childIdentifier owner fields name = .ok id := by
  rw [childIdentifier, childNode_of_denotes found (denotes_identifier named)]
  rfl

end Parts

/-! ## Entries of arrays -/

section Entries

variable {owner field : String} {position : Nat} {values : List Json}

theorem statementEntries_of_denotes {body : List Stmt}
    (denote : List.Forall₂ (fun value s => Denotes value (.statement s)) values body) :
    statementEntries owner field position (Item.ofItems values) = .ok body := by
  induction denote generalizing position with
  | nil => rfl
  | cons here _ ih =>
    obtain ⟨inner, same⟩ := here
    rw [Item.ofItems, same, statementEntries]
    simp only [bind, Except.bind, ih]
    rfl

theorem exprEntries_of_denotes {es : List Expr} (denote : List.Forall₂ DenotesExpr values es) :
    exprEntries owner field position (Item.ofItems values) = .ok es := by
  induction denote generalizing position with
  | nil => rfl
  | cons here _ ih =>
    obtain ⟨inner, same⟩ := here
    rw [Item.ofItems, same, exprEntries]
    simp only [bind, Except.bind, ih]
    rfl

theorem identifierEntries_written {names : List String} (named : ∀ name ∈ names, name ≠ "") :
    identifierEntries owner field position (Item.ofItems (names.map encodeIdentifier)) =
      .ok names := by
  induction names generalizing position with
  | nil => rfl
  | cons name rest ih =>
    obtain ⟨here, later⟩ := List.forall_mem_cons.mp named
    obtain ⟨inner, same⟩ := denotes_identifier here
    rw [List.map_cons, Item.ofItems, same, identifierEntries]
    simp only [bind, Except.bind, ih later]
    rfl

theorem denotes_binding {name : String} {value : Json} {e : Expr} (named : name ≠ "")
    (denotes : DenotesExpr value e) :
    DenotesBinding (nodeObject "Binding" [("name", encodeIdentifier name), ("value", value)])
      (name, e) :=
  ⟨_, _, rfl, childIdentifier_written named rfl, childExpr_of_denotes rfl denotes⟩

theorem denotes_clause {condition result : Json} {c r : Expr} (first : DenotesExpr condition c)
    (second : DenotesExpr result r) :
    DenotesClause (nodeObject "CaseClause" [("condition", condition), ("result", result)]) (c, r) :=
  ⟨_, _, rfl, childExpr_of_denotes rfl first, childExpr_of_denotes rfl second⟩

theorem bindingEntries_of_denotes {bindings : List (String × Expr)}
    (denote : List.Forall₂ DenotesBinding values bindings) :
    bindingEntries (Item.ofItems values) = .ok bindings := by
  induction denote with
  | nil => rfl
  | cons here _ ih =>
    obtain ⟨fields, node, same, first, second⟩ := here
    rw [Item.ofItems, same, bindingEntries, first, second, ih]
    rfl

theorem clauseEntries_of_denotes {clauses : List (Expr × Expr)}
    (denote : List.Forall₂ DenotesClause values clauses) :
    clauseEntries (Item.ofItems values) = .ok clauses := by
  induction denote with
  | nil => rfl
  | cons here _ ih =>
    obtain ⟨fields, node, same, first, second⟩ := here
    rw [Item.ofItems, same, clauseEntries, first, second, ih]
    rfl

end Entries

/-! ## One rule for each type of node

A rule evaluates the table at a known type, so that its row comes out by computation; then the parts
are rewritten by what they denote, and the rest is computation again. -/

theorem denotes_block {values : List Json} {body : List Stmt}
    (denote : List.Forall₂ (fun value s => Denotes value (.statement s)) values body) :
    DenotesExpr (nodeObject "Sequence" [("statements", .array values)]) (.block body) := by
  refine denotesExpr_nodeObject rfl rfl ?_
  change (statementEntries _ _ _ (Item.ofItems values) >>= fun body => pure (Expr.block body)) = _
  rw [statementEntries_of_denotes denote]
  rfl

theorem denotes_letIn {values : List Json} {bindings : List (String × Expr)} {b : Json} {body : Expr}
    (denote : List.Forall₂ DenotesBinding values bindings) (last : DenotesExpr b body) :
    DenotesExpr (nodeObject "Let" [("bindings", .array values), ("body", b)])
      (.letIn bindings body) := by
  refine denotesExpr_nodeObject rfl rfl ?_
  rw [childExpr_of_denotes rfl last]
  change (bindingEntries (Item.ofItems values) >>= _) = _
  rw [bindingEntries_of_denotes denote]
  rfl

/-- A form with two sides is read from its two sides. -/
theorem denotes_sides {type : String} {form : Expr → Expr → Expr} {l r : Json} {left right : Expr}
    (typed : (writtenFields type [("left", l), ("right", r)]).text "type" = type)
    (sided : exprOfFields? type (writtenFields type [("left", l), ("right", r)]) =
      some (sides type (writtenFields type [("left", l), ("right", r)]) form))
    (first : DenotesExpr l left) (second : DenotesExpr r right) :
    DenotesExpr (nodeObject type [("left", l), ("right", r)]) (form left right) := by
  refine denotesExpr_nodeObject typed sided ?_
  rw [sides, childExpr_of_denotes rfl first, childExpr_of_denotes rfl second]
  rfl

/-- A form with one operand is read from its operand. -/
theorem denotes_operandOf {type : String} {form : Expr → Expr} {value : Json} {e : Expr}
    (typed : (writtenFields type [("expression", value)]).text "type" = type)
    (formed : exprOfFields? type (writtenFields type [("expression", value)]) =
      some (operandOf type (writtenFields type [("expression", value)]) form))
    (denotes : DenotesExpr value e) :
    DenotesExpr (nodeObject type [("expression", value)]) (form e) := by
  refine denotesExpr_nodeObject typed formed ?_
  rw [operandOf, childExpr_of_denotes rfl denotes]
  rfl

theorem denotes_real {text : String} {x : Float} (h : Numeric.readReal text.toList = .ok x) :
    DenotesExpr (nodeObject "RealLiteral" [("value", .number text)]) (.literal (.real x)) := by
  refine denotesExpr_nodeObject rfl rfl ?_
  change (fun x => Expr.literal (.real x)) <$>
    (Numeric.readReal text.toList).mapError (DecodeError.numeral "RealLiteral" .real text) = _
  rw [h]
  rfl

theorem denotes_literal {value : Scalar} (writable : value.Writable) :
    ∃ written, value.encode? = some written ∧ DenotesExpr written (.literal value) := by
  cases value with
  | integer n =>
    refine ⟨_, rfl, denotesExpr_nodeObject rfl rfl ?_⟩
    change _ <$> (Numeric.readInt64 (Numeric.integerText n).toList).mapError _ = _
    rw [Numeric.readInt64_integerText]
    rfl
  | real x =>
    obtain ⟨finite, back⟩ := writable
    obtain ⟨text, written⟩ := Numeric.exists_jsonRealText finite
    refine ⟨nodeObject "RealLiteral" [("value", .number text)], ?_, denotes_real (back text written)⟩
    rw [Scalar.encode?, written]
    rfl
  | boolean b => exact ⟨_, rfl, denotesExpr_nodeObject rfl rfl rfl⟩
  | string s => exact ⟨_, rfl, denotesExpr_nodeObject rfl rfl rfl⟩

theorem denotes_procedure {parameters : List String} {b : Json} {body : Expr}
    (named : ∀ name ∈ parameters, name ≠ "") (denotes : DenotesExpr b body) :
    DenotesExpr (nodeObject "ProcedureExpression"
      [("parameters", .array (parameters.map encodeIdentifier)), ("body", b)])
      (.procedure parameters none body) := by
  refine denotesExpr_nodeObject rfl rfl ?_
  rw [procedureExpr, childExpr_of_denotes rfl denotes]
  change (identifierEntries _ _ _ (Item.ofItems (parameters.map encodeIdentifier)) >>= _) = _
  rw [identifierEntries_written named]
  rfl

theorem denotes_procedure_rest {parameters : List String} {rest : String} {b : Json} {body : Expr}
    (named : ∀ name ∈ parameters, name ≠ "") (restNamed : rest ≠ "")
    (denotes : DenotesExpr b body) :
    DenotesExpr (nodeObject "ProcedureExpression"
      [("parameters", .array (parameters.map encodeIdentifier)), ("rest", encodeIdentifier rest),
        ("body", b)])
      (.procedure parameters (some rest) body) := by
  refine denotesExpr_nodeObject rfl rfl ?_
  rw [procedureExpr, childExpr_of_denotes rfl denotes, childIdentifier_written restNamed rfl]
  change (identifierEntries _ _ _ (Item.ofItems (parameters.map encodeIdentifier)) >>= _) = _
  rw [identifierEntries_written named]
  rfl

theorem denotes_call {c a : Json} {callee arguments : Expr} (first : DenotesExpr c callee)
    (second : DenotesExpr a arguments) :
    DenotesExpr (nodeObject "Call" [("callee", c), ("arguments", a)]) (.call callee arguments) := by
  refine denotesExpr_nodeObject rfl rfl ?_
  rw [childExpr_of_denotes rfl first, childExpr_of_denotes rfl second]
  rfl

theorem denotes_conditional {t y : Json} {test yes : Expr} (first : DenotesExpr t test)
    (second : DenotesExpr y yes) :
    DenotesExpr (nodeObject "IfExpression" [("condition", t), ("then", y)])
      (.conditional test yes none) := by
  refine denotesExpr_nodeObject rfl rfl ?_
  rw [conditionalExpr, childExpr_of_denotes rfl first, childExpr_of_denotes rfl second]
  rfl

theorem denotes_conditional_else {t y o : Json} {test yes other : Expr}
    (first : DenotesExpr t test) (second : DenotesExpr y yes) (third : DenotesExpr o other) :
    DenotesExpr (nodeObject "IfExpression" [("condition", t), ("then", y), ("else", o)])
      (.conditional test yes (some other)) := by
  refine denotesExpr_nodeObject rfl rfl ?_
  rw [conditionalExpr, childExpr_of_denotes rfl first, childExpr_of_denotes rfl second,
    hasObject_of_denotes rfl third, childExpr_of_denotes rfl third]
  rfl

theorem denotes_select {values : List Json} {clauses : List (Expr × Expr)}
    (denote : List.Forall₂ DenotesClause values clauses) :
    DenotesExpr (nodeObject "CaseExpression" [("clauses", .array values)]) (.select clauses) := by
  refine denotesExpr_nodeObject rfl rfl ?_
  change _ <$> clauseEntries (Item.ofItems values) = _
  rw [clauseEntries_of_denotes denote]
  rfl

theorem denotes_lazy {b : Json} {body : Expr} (denotes : DenotesExpr b body) :
    DenotesExpr (nodeObject "LazyExpression" [("body", b)]) (.lazy body) := by
  refine denotesExpr_nodeObject rfl rfl ?_
  rw [childExpr_of_denotes rfl denotes]
  rfl

theorem denotes_define {name : String} {b : Json} {body : Expr} (named : name ≠ "")
    (denotes : DenotesExpr b body) :
    DenotesExpr (nodeObject "DefineExpression" [("name", encodeIdentifier name), ("body", b)])
      (.define name body) := by
  refine denotesExpr_nodeObject rfl rfl ?_
  rw [childIdentifier_written named rfl, childExpr_of_denotes rfl denotes]
  rfl

theorem denotes_substring {t a b : Json} {text start stop : Expr} (first : DenotesExpr t text)
    (second : DenotesExpr a start) (third : DenotesExpr b stop) :
    DenotesExpr (nodeObject "SubstringExpression" [("string", t), ("start", a), ("end", b)])
      (.substring text start stop) := by
  refine denotesExpr_nodeObject rfl rfl ?_
  rw [childExpr_of_denotes rfl first, childExpr_of_denotes rfl second,
    childExpr_of_denotes rfl third]
  rfl

theorem denotes_list {values : List Json} {elements : List Expr}
    (denote : List.Forall₂ DenotesExpr values elements) :
    DenotesExpr (nodeObject "ListExpression" [("elements", .array values)]) (.list elements) := by
  refine denotesExpr_nodeObject rfl rfl ?_
  change _ <$> exprEntries _ _ _ (Item.ofItems values) = _
  rw [exprEntries_of_denotes denote]
  rfl

theorem denotes_vector {values : List Json} {elements : List Expr}
    (denote : List.Forall₂ DenotesExpr values elements) :
    DenotesExpr (nodeObject "VectorExpression" [("elements", .array values)]) (.vector elements) := by
  refine denotesExpr_nodeObject rfl rfl ?_
  change _ <$> exprEntries _ _ _ (Item.ofItems values) = _
  rw [exprEntries_of_denotes denote]
  rfl

theorem denotes_generator {c p : Json} {count procedure : Expr} (first : DenotesExpr c count)
    (second : DenotesExpr p procedure) :
    DenotesExpr (nodeObject "VectorGenerator" [("count", c), ("procedure", p)])
      (.generator count procedure) := by
  refine denotesExpr_nodeObject rfl rfl ?_
  rw [childExpr_of_denotes rfl first, childExpr_of_denotes rfl second]
  rfl

theorem denotes_index {name : String} {i : Json} {position : Expr} (named : name ≠ "")
    (denotes : DenotesExpr i position) :
    DenotesExpr (nodeObject "VectorIndex" [("name", encodeIdentifier name), ("index", i)])
      (.index name position) := by
  refine denotesExpr_nodeObject rfl rfl ?_
  rw [childIdentifier_written named rfl, childExpr_of_denotes rfl denotes]
  rfl

theorem denotes_binary {operator : String} {l r : Json} {left right : Expr} (symbol : operator ≠ "")
    (first : DenotesExpr l left) (second : DenotesExpr r right) :
    DenotesExpr
      (nodeObject "BinaryExpression" [("operator", .string operator), ("left", l), ("right", r)])
      (.binary operator left right) := by
  refine denotesExpr_nodeObject rfl rfl ?_
  change (if operator = "" then _ else _) = _
  rw [if_neg symbol, sides, childExpr_of_denotes rfl first, childExpr_of_denotes rfl second]
  rfl

theorem denotes_unary {operator : String} {value : Json} {operand : Expr}
    (known : operator = notSymbol ∨ operator = complementSymbol)
    (denotes : DenotesExpr value operand) :
    DenotesExpr (nodeObject "UnaryExpression" [("operator", .string operator), ("operand", value)])
      (.unary operator operand) := by
  refine denotesExpr_nodeObject rfl rfl ?_
  rw [childExpr_of_denotes rfl denotes]
  exact if_pos known

/-- Without names, the member that would hold them is left out and read as no names. -/
theorem denotes_definition {names : List String} {vs : List Json} {values : List Expr}
    (named : ∀ name ∈ names, name ≠ "") (denote : List.Forall₂ DenotesExpr vs values) :
    Denotes (nodeObject "Definition"
      ((if names.isEmpty then [] else [("names", .array (names.map encodeIdentifier))]) ++
        [("values", .array vs)]))
      (.statement (.define names values)) := by
  refine denotes_nodeObject ?_
  cases names with
  | nil =>
    change _ <$> (exprEntries _ _ _ (Item.ofItems vs) >>= _) = _
    rw [exprEntries_of_denotes denote]
    rfl
  | cons name rest =>
    change _ <$> (exprEntries _ _ _ (Item.ofItems vs) >>= fun values =>
      identifierEntries _ _ _ (Item.ofItems ((name :: rest).map encodeIdentifier)) >>= fun names =>
        pure (Stmt.define names values)) = _
    rw [exprEntries_of_denotes denote, identifierEntries_written named]
    rfl

theorem denotes_assignment {name : String} {i v : Json} {position value : Expr} (named : name ≠ "")
    (slot : DenotesExpr i position) (denotes : DenotesExpr v value) :
    Denotes (nodeObject "Definition" [("values", .array [v]),
        ("index", nodeObject "VectorIndex" [("name", encodeIdentifier name), ("index", i)])])
      (.statement (.assign name position [value])) := by
  refine denotes_nodeObject ?_
  have slotted := denotes_index named slot
  change _ <$> definition _ = _
  rw [definition, hasObject_of_denotes rfl slotted, childNode_of_denotes rfl slotted]
  change _ <$> (exprEntries _ _ _ (Item.ofItems [v]) >>= _) = _
  rw [exprEntries_of_denotes (.cons denotes .nil)]
  rfl

theorem denotes_print {v : Json} {value : Expr} {terminator : String}
    (denotes : DenotesExpr v value) :
    Denotes (nodeObject "Print" [("expression", v), ("terminator", .string terminator)])
      (.statement (.print value terminator)) := by
  refine denotes_nodeObject ?_
  change _ <$> printing _ = _
  rw [printing, childExpr_of_denotes rfl denotes]
  rfl

/-! ## Expressions and statements -/

mutual

/-- Every complete expression has a JSON form that denotes it. -/
theorem Expr.reads_back : {e : Expr} → e.Complete → e.Leaves (· ≠ "") Scalar.Writable →
    ∃ value, e.encode? = some value ∧ DenotesExpr value e
  | .block _, .block complete, .block leaves => by
    obtain ⟨values, written, denote⟩ := statements_read_back complete leaves
    exact ⟨_, by rw [Expr.encode?, written]; rfl, denotes_block denote⟩
  | .letIn _ _, .letIn complete last, .letIn names leaves lastLeaves => by
    obtain ⟨values, written, denote⟩ := bindings_read_back complete names leaves
    obtain ⟨b, lastWritten, lastDenotes⟩ := Expr.reads_back last lastLeaves
    exact ⟨_, by rw [Expr.encode?, written, lastWritten]; rfl, denotes_letIn denote lastDenotes⟩
  | .identifier _, _, .identifier named => ⟨_, by rw [Expr.encode?], denotes_identifier named⟩
  | .literal _, _, .literal writable => by
    rw [Expr.encode?]
    exact denotes_literal writable
  | .emptyList, _, _ => ⟨_, by rw [Expr.encode?], denotesExpr_nodeObject rfl rfl rfl⟩
  | .procedure _ none _, .procedure complete, .procedure names _ leaves => by
    obtain ⟨b, written, denotes⟩ := Expr.reads_back complete leaves
    exact ⟨_, by rw [Expr.encode?, written]; rfl, denotes_procedure names denotes⟩
  | .procedure _ (some rest) _, .procedure complete, .procedure names restNamed leaves => by
    obtain ⟨b, written, denotes⟩ := Expr.reads_back complete leaves
    exact ⟨_, by rw [Expr.encode?, written]; rfl,
      denotes_procedure_rest names (restNamed rest rfl) denotes⟩
  | .call _ _, .call first second, .call leaves moreLeaves => by
    obtain ⟨c, written, denotes⟩ := Expr.reads_back first leaves
    obtain ⟨a, moreWritten, moreDenotes⟩ := Expr.reads_back second moreLeaves
    exact ⟨_, by rw [Expr.encode?, written, moreWritten]; rfl, denotes_call denotes moreDenotes⟩
  | .conditional _ _ none, .conditional first second _, .conditional leaves moreLeaves _ => by
    obtain ⟨t, written, denotes⟩ := Expr.reads_back first leaves
    obtain ⟨y, moreWritten, moreDenotes⟩ := Expr.reads_back second moreLeaves
    exact ⟨_, by rw [Expr.encode?, written, moreWritten]; rfl,
      denotes_conditional denotes moreDenotes⟩
  | .conditional _ _ (some other), .conditional first second third,
      .conditional leaves moreLeaves lastLeaves => by
    obtain ⟨t, written, denotes⟩ := Expr.reads_back first leaves
    obtain ⟨y, moreWritten, moreDenotes⟩ := Expr.reads_back second moreLeaves
    obtain ⟨o, lastWritten, lastDenotes⟩ :=
      Expr.reads_back (third other rfl) (lastLeaves other rfl)
    exact ⟨_, by simp only [Expr.encode?, written, moreWritten, lastWritten]; rfl,
      denotes_conditional_else denotes moreDenotes lastDenotes⟩
  | .select _, .select first second, .select leaves moreLeaves => by
    obtain ⟨values, written, denote⟩ := clauses_read_back first second leaves moreLeaves
    exact ⟨_, by rw [Expr.encode?, written]; rfl, denotes_select denote⟩
  | .lazy _, .lazy complete, .lazy leaves => by
    obtain ⟨value, written, denotes⟩ := Expr.reads_back complete leaves
    exact ⟨_, by rw [Expr.encode?, written]; rfl, denotes_lazy denotes⟩
  | .define _ _, .define complete, .define named leaves => by
    obtain ⟨b, written, denotes⟩ := Expr.reads_back complete leaves
    exact ⟨_, by rw [Expr.encode?, written]; rfl, denotes_define named denotes⟩
  | .read, _, _ => ⟨_, by rw [Expr.encode?], denotesExpr_nodeObject rfl rfl rfl⟩
  | .readInteger, _, _ => ⟨_, by rw [Expr.encode?], denotesExpr_nodeObject rfl rfl rfl⟩
  | .substring _ _ _, .substring first second third,
      .substring leaves moreLeaves lastLeaves => by
    obtain ⟨t, written, denotes⟩ := Expr.reads_back first leaves
    obtain ⟨a, moreWritten, moreDenotes⟩ := Expr.reads_back second moreLeaves
    obtain ⟨b, lastWritten, lastDenotes⟩ := Expr.reads_back third lastLeaves
    exact ⟨_, by rw [Expr.encode?, written, moreWritten, lastWritten]; rfl,
      denotes_substring denotes moreDenotes lastDenotes⟩
  | .pair _ _, .pair first second, .pair leaves moreLeaves => by
    obtain ⟨c, written, denotes⟩ := Expr.reads_back first leaves
    obtain ⟨a, moreWritten, moreDenotes⟩ := Expr.reads_back second moreLeaves
    exact ⟨_, by rw [Expr.encode?, written, moreWritten]; rfl, denotes_sides rfl rfl denotes moreDenotes⟩
  | .list _, .list complete, .list leaves => by
    obtain ⟨values, written, denote⟩ := exprs_read_back complete leaves
    exact ⟨_, by rw [Expr.encode?, written]; rfl, denotes_list denote⟩
  | .vector _, .vector complete, .vector leaves => by
    obtain ⟨values, written, denote⟩ := exprs_read_back complete leaves
    exact ⟨_, by rw [Expr.encode?, written]; rfl, denotes_vector denote⟩
  | .generator _ _, .generator first second, .generator leaves moreLeaves => by
    obtain ⟨c, written, denotes⟩ := Expr.reads_back first leaves
    obtain ⟨a, moreWritten, moreDenotes⟩ := Expr.reads_back second moreLeaves
    exact ⟨_, by rw [Expr.encode?, written, moreWritten]; rfl, denotes_generator denotes moreDenotes⟩
  | .index _ _, .index complete, .index named leaves => by
    obtain ⟨i, written, denotes⟩ := Expr.reads_back complete leaves
    exact ⟨_, by rw [Expr.encode?, written]; rfl, denotes_index named denotes⟩
  | .size _, .size complete, .size leaves => by
    obtain ⟨value, written, denotes⟩ := Expr.reads_back complete leaves
    exact ⟨_, by rw [Expr.encode?, written]; rfl, denotes_operandOf rfl rfl denotes⟩
  | .car _, .car complete, .car leaves => by
    obtain ⟨value, written, denotes⟩ := Expr.reads_back complete leaves
    exact ⟨_, by rw [Expr.encode?, written]; rfl, denotes_operandOf rfl rfl denotes⟩
  | .cdr _, .cdr complete, .cdr leaves => by
    obtain ⟨value, written, denotes⟩ := Expr.reads_back complete leaves
    exact ⟨_, by rw [Expr.encode?, written]; rfl, denotes_operandOf rfl rfl denotes⟩
  | .isPair _, .isPair complete, .isPair leaves => by
    obtain ⟨value, written, denotes⟩ := Expr.reads_back complete leaves
    exact ⟨_, by rw [Expr.encode?, written]; rfl, denotes_operandOf rfl rfl denotes⟩
  | .identical _ _, .identical first second, .identical leaves moreLeaves => by
    obtain ⟨c, written, denotes⟩ := Expr.reads_back first leaves
    obtain ⟨a, moreWritten, moreDenotes⟩ := Expr.reads_back second moreLeaves
    exact ⟨_, by rw [Expr.encode?, written, moreWritten]; rfl, denotes_sides rfl rfl denotes moreDenotes⟩
  | .binary _ _ _, .binary symbol first second, .binary leaves moreLeaves => by
    obtain ⟨l, written, denotes⟩ := Expr.reads_back first leaves
    obtain ⟨r, moreWritten, moreDenotes⟩ := Expr.reads_back second moreLeaves
    exact ⟨_, by rw [Expr.encode?, written, moreWritten]; rfl,
      denotes_binary symbol denotes moreDenotes⟩
  | .unary _ _, .unary known complete, .unary leaves => by
    obtain ⟨value, written, denotes⟩ := Expr.reads_back complete leaves
    exact ⟨_, by rw [Expr.encode?, written]; rfl, denotes_unary known denotes⟩

/-- Every complete statement has a JSON form that denotes it. -/
theorem Stmt.reads_back : {s : Stmt} → s.Complete → s.Leaves (· ≠ "") Scalar.Writable →
    ∃ value, s.encode? = some value ∧ Denotes value (.statement s)
  | .eval _, .eval complete, .eval leaves => by
    rw [Stmt.encode?]
    exact Expr.reads_back complete leaves
  | .define _ _, .define complete, .define names leaves => by
    obtain ⟨values, written, denote⟩ := exprs_read_back complete leaves
    exact ⟨_, by rw [Stmt.encode?, written]; rfl, denotes_definition names denote⟩
  | .assign _ _ [value], .assign position complete, .assign named slotLeaves leaves => by
    obtain ⟨i, slotWritten, slotDenotes⟩ := Expr.reads_back position slotLeaves
    obtain ⟨v, written, denotes⟩ := Expr.reads_back complete (leaves value List.mem_cons_self)
    exact ⟨_, by rw [Stmt.encode?, encodeAll?, encodeAll?, written, slotWritten]; rfl,
      denotes_assignment named slotDenotes denotes⟩
  | .print _ _, .print complete, .print leaves => by
    obtain ⟨v, written, denotes⟩ := Expr.reads_back complete leaves
    exact ⟨_, by rw [Stmt.encode?, written]; rfl, denotes_print denotes⟩

theorem exprs_read_back : {es : List Expr} → (∀ e ∈ es, e.Complete) →
    (∀ e ∈ es, e.Leaves (· ≠ "") Scalar.Writable) →
    ∃ values, encodeAll? es = some values ∧ List.Forall₂ DenotesExpr values es
  | [], _, _ => ⟨[], by rw [encodeAll?], .nil⟩
  | _ :: _, complete, leaves => by
    obtain ⟨here, later⟩ := List.forall_mem_cons.mp complete
    obtain ⟨leavesHere, leavesLater⟩ := List.forall_mem_cons.mp leaves
    obtain ⟨value, written, denotes⟩ := Expr.reads_back here leavesHere
    obtain ⟨values, allWritten, denote⟩ := exprs_read_back later leavesLater
    exact ⟨value :: values, by rw [encodeAll?, written, allWritten]; rfl, .cons denotes denote⟩

theorem statements_read_back : {body : List Stmt} → (∀ s ∈ body, s.Complete) →
    (∀ s ∈ body, s.Leaves (· ≠ "") Scalar.Writable) →
    ∃ values, encodeStatements? body = some values ∧
      List.Forall₂ (fun value s => Denotes value (.statement s)) values body
  | [], _, _ => ⟨[], by rw [encodeStatements?], .nil⟩
  | s :: rest, complete, leaves => by
    obtain ⟨here, later⟩ := List.forall_mem_cons.mp complete
    obtain ⟨leavesHere, leavesLater⟩ := List.forall_mem_cons.mp leaves
    obtain ⟨value, written, denotes⟩ := Stmt.reads_back here leavesHere
    obtain ⟨values, allWritten, denote⟩ := statements_read_back later leavesLater
    exact ⟨value :: values, by rw [encodeStatements?, written, allWritten]; rfl, .cons denotes denote⟩

theorem bindings_read_back : {bindings : List (String × Expr)} → (∀ b ∈ bindings, b.2.Complete) →
    (∀ b ∈ bindings, b.1 ≠ "") → (∀ b ∈ bindings, b.2.Leaves (· ≠ "") Scalar.Writable) →
    ∃ values, encodeBindings? bindings = some values ∧
      List.Forall₂ DenotesBinding values bindings
  | [], _, _, _ => ⟨[], by rw [encodeBindings?], .nil⟩
  | (name, e) :: rest, complete, names, leaves => by
    obtain ⟨here, later⟩ := List.forall_mem_cons.mp complete
    obtain ⟨named, laterNames⟩ := List.forall_mem_cons.mp names
    obtain ⟨leavesHere, leavesLater⟩ := List.forall_mem_cons.mp leaves
    obtain ⟨value, written, denotes⟩ := Expr.reads_back here leavesHere
    obtain ⟨values, allWritten, denote⟩ := bindings_read_back later laterNames leavesLater
    exact ⟨_ :: values, by rw [encodeBindings?, written, allWritten]; rfl,
      .cons (denotes_binding named denotes) denote⟩

theorem clauses_read_back : {clauses : List (Expr × Expr)} → (∀ c ∈ clauses, c.1.Complete) →
    (∀ c ∈ clauses, c.2.Complete) → (∀ c ∈ clauses, c.1.Leaves (· ≠ "") Scalar.Writable) →
    (∀ c ∈ clauses, c.2.Leaves (· ≠ "") Scalar.Writable) →
    ∃ values, encodeClauses? clauses = some values ∧ List.Forall₂ DenotesClause values clauses
  | [], _, _, _, _ => ⟨[], by rw [encodeClauses?], .nil⟩
  | (_, _) :: _, first, second, leaves, moreLeaves => by
    obtain ⟨firstHere, firstLater⟩ := List.forall_mem_cons.mp first
    obtain ⟨secondHere, secondLater⟩ := List.forall_mem_cons.mp second
    obtain ⟨leavesHere, leavesLater⟩ := List.forall_mem_cons.mp leaves
    obtain ⟨moreHere, moreLater⟩ := List.forall_mem_cons.mp moreLeaves
    obtain ⟨c, written, denotes⟩ := Expr.reads_back firstHere leavesHere
    obtain ⟨r, moreWritten, moreDenotes⟩ := Expr.reads_back secondHere moreHere
    obtain ⟨values, allWritten, denote⟩ :=
      clauses_read_back firstLater secondLater leavesLater moreLater
    exact ⟨_ :: values, by rw [encodeClauses?, written, moreWritten, allWritten]; rfl,
      .cons (denotes_clause denotes moreDenotes) denote⟩

end

/-! ## Programs -/

theorem nodeOfFields_bodied (fields : Fields) :
    Yields (nodeOfFields fields) fun n => ∀ p, n = .program p → ∃ body, p.body = some body := by
  have other (s : Stmt) (p : Program) (same : Node.statement s = .program p) :
      ∃ body, p.body = some body := by cases same
  simp only [nodeOfFields]
  split
  · exact .error
  · refine Yields.any.map fun body _ p same => ?_
    cases same
    exact ⟨body, rfl⟩
  · exact Yields.any.map fun s _ => other s
  · exact Yields.any.map fun s _ => other s
  · split
    · exact Yields.any.map fun e _ => other (.eval e)
    · exact .error

/-- Every program that is read has a body. -/
theorem Program.ofJson_bodied (value : Json) :
    Yields (Program.ofJson value) fun p => ∃ body, p.body = some body := by
  cases value with
  | array items => exact Yields.any.bind fun body _ => .ok ⟨body, rfl⟩
  | object members =>
    refine (nodeOfFields_bodied (Item.ofMembers members)).bind fun n bodied => ?_
    split
    · next p => exact .ok (bodied p rfl)
    · next body => exact .ok ⟨body, rfl⟩
    · next s _ => exact .ok ⟨[s], rfl⟩
    · exact .error
  | _ => exact .error

theorem Program.decode_bodied {source : String} {p : Program} (h : Program.decode source = .ok p) :
    ∃ body, p.body = some body := by
  unfold Program.decode at h
  split at h
  · cases h
  · exact Program.ofJson_bodied _ p h

/-- The body of a program that stands under its name as an object. -/
theorem programBody_of_denotes {fields : Fields} {value : Json} {body : List Stmt}
    (found : fields.get? "body" = some (Item.ofJson value))
    (denotes : DenotesExpr value (.block body)) : programBody fields = .ok body := by
  have child : childNode "Program" fields "body" = .ok (.statement (.eval (.block body))) :=
    childNode_of_denotes found denotes
  obtain ⟨inner, same⟩ := denotes
  rw [same] at found
  rw [programBody, found, child]
  rfl

theorem denotes_program {value : Json} {body : List Stmt} (denotes : DenotesExpr value (.block body)) :
    Denotes (nodeObject "Program" [("body", value)]) (.program ⟨some body⟩) := by
  refine denotes_nodeObject ?_
  change _ <$> programBody _ = _
  rw [programBody_of_denotes rfl denotes]
  rfl

theorem Program.ofJson_of_denotes {value : Json} {p : Program} (denotes : Denotes value (.program p)) :
    Program.ofJson value = .ok p := by
  obtain ⟨fields, same⟩ := denotes
  rw [Program.ofJson, same]
  rfl

/-- A program that was read from a text, all of whose identifiers have a name and all of whose
reals are finite and written so that they are read as the same real, has a JSON form; the program
is read from that form, and so from every text that holds it. -/
theorem decoded_program_reads_back {source : String} {p : Program}
    (decoded : Program.decode source = .ok p)
    (leaves : p.Leaves (· ≠ "") Scalar.Writable) :
    ∃ value, p.encode? = some value ∧ Program.ofJson value = .ok p ∧
      ∀ text, Json.read? text = some value → Program.decode text = .ok p := by
  have complete := Program.decode_complete decoded
  obtain ⟨body, bodied⟩ := Program.decode_bodied decoded
  obtain rfl : p = ⟨some body⟩ := congrArg Program.mk bodied
  obtain ⟨b, written, denotes⟩ : ∃ b, (Expr.block body).encode? = some b ∧
      DenotesExpr b (.block body) := Expr.reads_back (.block complete) (.block leaves)
  have same := Program.ofJson_of_denotes (denotes_program denotes)
  refine ⟨nodeObject "Program" [("body", b)], ?_, same, fun text read => ?_⟩
  · simp only [Program.encode?, written]
    rfl
  · rw [Program.decode, read]
    exact same

/-- A definition on its own, with a plain string in place of an identifier. -/
def definingText : String :=
  "\x7b\"type\":\"Definition\",\"names\":[\"x\"]," ++
    "\"values\":[\x7b\"type\":\"RealLiteral\",\"value\":1.5\x7d]\x7d"

/-- The double one and a half. -/
def oneAndAHalf : Float := Numeric.ofMagnitude false 0x3FF8000000000000

/-- The program that defines a name as one and a half. -/
def definingProgram : Program := ⟨some [.define ["x"] [.literal (.real oneAndAHalf)]]⟩

theorem readReal_oneAndAHalf : Numeric.readReal "1.5".toList = .ok oneAndAHalf := by
  have scaled : Numeric.readReal "1.5".toList =
      if Numeric.infinityBits ≤ Numeric.nearestBits 15 10 then .error .outOfRange
      else .ok (Numeric.ofMagnitude false (Numeric.nearestBits 15 10)) := rfl
  have nearest : Numeric.nearestBits 15 10 = 0x3FF8000000000000 := by decide
  rw [scaled, nearest]
  rfl

theorem decode_definingText : Program.decode definingText = .ok definingProgram := by
  have parsed : Json.read? definingText =
      some (nodeObject "Definition" [("names", .array [.string "x"]),
        ("values", .array [nodeObject "RealLiteral" [("value", .number "1.5")]])]) := by decide +kernel
  have defined : Denotes
      (nodeObject "Definition" [("names", .array [.string "x"]),
        ("values", .array [nodeObject "RealLiteral" [("value", .number "1.5")]])])
      (.statement (.define ["x"] [.literal (.real oneAndAHalf)])) := by
    refine denotes_nodeObject ?_
    change _ <$> (exprEntries _ _ _ (Item.ofItems [nodeObject _ _]) >>= _) = _
    rw [exprEntries_of_denotes (.cons (denotes_real readReal_oneAndAHalf) .nil)]
    rfl
  obtain ⟨fields, same⟩ := defined
  rw [Program.decode, parsed]
  change Program.ofJson _ = _
  rw [Program.ofJson, same]
  rfl

/-- A definition of one and a half is read from its text, written, and read again. -/
theorem defining_program_reads_back :
    Program.decode definingText = .ok definingProgram ∧
    ∃ value, definingProgram.encode? = some value ∧ Program.ofJson value = .ok definingProgram ∧
      ∀ text, Json.read? text = some value → Program.decode text = .ok definingProgram := by
  have written : Numeric.jsonRealText? oneAndAHalf = some "1.5" := rfl
  have back : (Scalar.real oneAndAHalf).ReadsBack := by
    intro text same
    obtain rfl : "1.5" = text := Option.some.inj (written.symm.trans same)
    exact readReal_oneAndAHalf
  have finite : oneAndAHalf.isFinite := by decide
  have leaves : definingProgram.Leaves (· ≠ "") Scalar.Writable := by
    refine List.forall_mem_singleton.mpr (.define ?_ ?_)
    · exact List.forall_mem_singleton.mpr (by decide)
    · exact List.forall_mem_singleton.mpr (.literal ⟨finite, back⟩)
  exact ⟨decode_definingText, decoded_program_reads_back decode_definingText leaves⟩

end Smpl

import Smpl.Proofs.RoundTrip

/-!
# Identifiers written as strings

In a list of names or parameters a string may stand for an identifier. A program in which one such
string is written as the object of the identifier (`Json.Respelled`) is read as the same program, or is
refused for the same reason, with one exception: an object must not have an empty name, while the empty
string is accepted.

Two runs of the reader are compared part by part (`Agrees`): they end alike, unless the string is empty
and the second one stops at the object. Reading respects this at every form (`agrees_nodeOfFields`), so
it holds of whole programs (`agrees_ofJson`).

Main result: `Program.respelling_iff`. A program for which it matters: `definingOne`, with the empty
name (`empty_name_refused`).
-/

namespace Smpl

/-- The members that hold lists of identifiers. -/
def Listed (name : String) : Prop := name = "names" ∨ name = "parameters"

/-- In a list of identifiers somewhere in a value, a string is written as the object of an
identifier. -/
inductive Json.Respelled (s : String) : Json → Json → Prop
  | entry {name : String} {front back : List Json} {before after : List (String × Json)} :
      Listed name →
      Json.Respelled s (.object (before ++ (name, .array (front ++ .string s :: back)) :: after))
        (.object (before ++ (name, .array (front ++ encodeIdentifier s :: back)) :: after))
  | item {value value' : Json} {front back : List Json} :
      Json.Respelled s value value' →
      Json.Respelled s (.array (front ++ value :: back)) (.array (front ++ value' :: back))
  | member {name : String} {value value' : Json} {before after : List (String × Json)} :
      Json.Respelled s value value' →
      Json.Respelled s (.object (before ++ (name, value) :: after))
        (.object (before ++ (name, value') :: after))

/-! ## Readers that agree -/

/-- The fault of an identifier object without a name. -/
def DecodeError.nameless : DecodeError := .missing "Identifier" "name"

/-- The second reader gives what the first one gives, unless the string is empty and it stops at the
object that has no name. -/
def Agrees (s : String) {α : Type} (x y : Except DecodeError α) : Prop :=
  y = x ∨ s = "" ∧ y = .error .nameless

namespace Agrees

variable {s : String} {α β : Type} {x y : Except DecodeError α}

theorem refl (x : Except DecodeError α) : Agrees s x x := .inl rfl

theorem bind {f g : α → Except DecodeError β} (first : Agrees s x y)
    (next : ∀ a, Agrees s (f a) (g a)) : Agrees s (x >>= f) (y >>= g) := by
  rcases first with rfl | ⟨empty, rfl⟩
  · cases y with
    | ok a => exact next a
    | error e => exact refl _
  · exact .inr ⟨empty, rfl⟩

theorem map (f : α → β) (agrees : Agrees s x y) : Agrees s (f <$> x) (f <$> y) := by
  rcases agrees with rfl | ⟨empty, rfl⟩
  · exact refl _
  · exact .inr ⟨empty, rfl⟩

end Agrees

/-! ## Annotated values -/

mutual

/-- Annotated values that differ only in how a string is written in lists of identifiers. -/
inductive Item.Alike (s : String) : Item → Item → Prop
  | refl (item : Item) : Item.Alike s item item
  | array {items items' : List Item} :
      List.Forall₂ (Item.Alike s) items items' → Item.Alike s (.array items) (.array items')
  | object {fields fields' : Fields} {node node' : Except DecodeError Node} :
      List.Forall₂ (Member.Alike s) fields fields' → Agrees s node node' →
      Item.Alike s (.object fields node) (.object fields' node')

/-- Members that differ only so. -/
inductive Member.Alike (s : String) : String × Item → String × Item → Prop
  | same {name : String} {item item' : Item} :
      Item.Alike s item item' → Member.Alike s (name, item) (name, item')
  | list {name : String} {items items' : List Item} :
      Listed name → List.Forall₂ (Entry.Alike s) items items' →
      Member.Alike s (name, .array items) (name, .array items')

/-- Entries of lists of identifiers that differ only so. -/
inductive Entry.Alike (s : String) : Item → Item → Prop
  | same {item item' : Item} : Item.Alike s item item' → Entry.Alike s item item'
  | respelled : Entry.Alike s (.atom (.string s)) (Item.ofJson (encodeIdentifier s))

end

section Alike

variable {s : String}

theorem Member.Alike.refl (member : String × Item) : Member.Alike s member member :=
  .same (.refl member.2)

theorem alike_append {α : Type} {R : α → α → Prop} (refl : ∀ a, R a a) {a b : α} (here : R a b)
    (front back : List α) : List.Forall₂ R (front ++ a :: back) (front ++ b :: back) :=
  List.rel_append (List.forall₂_same.mpr fun a _ => refl a)
    (.cons here (List.forall₂_same.mpr fun a _ => refl a))

/-- Values that are alike have one shape. -/
theorem Item.Alike.shapes {item item' : Item} (alike : Item.Alike s item item') :
    (∃ value, item = .atom value ∧ item' = .atom value) ∨
    (∃ items items', item = .array items ∧ item' = .array items' ∧
      List.Forall₂ (Item.Alike s) items items') ∨
    ∃ fields fields' node node', item = .object fields node ∧ item' = .object fields' node' ∧
      List.Forall₂ (Member.Alike s) fields fields' ∧ Agrees s node node' := by
  cases alike with
  | refl =>
    cases item with
    | atom value => exact .inl ⟨value, rfl, rfl⟩
    | array items =>
      exact .inr (.inl ⟨items, items, rfl, rfl, List.forall₂_same.mpr fun a _ => .refl a⟩)
    | object fields node =>
      exact .inr (.inr ⟨fields, fields, node, node, rfl, rfl,
        List.forall₂_same.mpr fun f _ => .refl f, .refl node⟩)
  | array items => exact .inr (.inl ⟨_, _, rfl, rfl, items⟩)
  | object fields node => exact .inr (.inr ⟨_, _, _, _, rfl, rfl, fields, node⟩)

end Alike

/-! ## Parts -/

section Parts

variable {s : String} {fields fields' : Fields} (alike : List.Forall₂ (Member.Alike s) fields fields')

include alike

theorem get?_alike (name : String) :
    (fields.get? name = none ∧ fields'.get? name = none) ∨
    ∃ item item', fields.get? name = some item ∧ fields'.get? name = some item' ∧
      Member.Alike s (name, item) (name, item') := by
  induction alike with
  | nil => exact .inl ⟨rfl, rfl⟩
  | @cons f g rest rest' here _ ih =>
    obtain ⟨key, first⟩ := f
    obtain ⟨key', first'⟩ := g
    obtain rfl : key = key' := by cases here <;> rfl
    simp only [Fields.get?, Json.lastOf?_cons] at ih ⊢
    rcases ih with ⟨nothing, nothing'⟩ | ⟨item, item', found, found', inside⟩
    · rw [nothing, nothing', Option.none_or, Option.none_or]
      split
      · next named => exact .inr ⟨first, first', rfl, rfl, named ▸ here⟩
      · exact .inl ⟨rfl, rfl⟩
    · exact .inr ⟨item, item', by rw [found, Option.some_or], by rw [found', Option.some_or], inside⟩

/-- What may stand under a name. Only lists of identifiers may hold a string that is written as an
object. -/
theorem members_alike (name : String) :
    (fields.get? name = none ∧ fields'.get? name = none) ∨
    (∃ value, fields.get? name = some (.atom value) ∧ fields'.get? name = some (.atom value)) ∨
    (∃ items items', fields.get? name = some (.array items) ∧
      fields'.get? name = some (.array items') ∧ List.Forall₂ (Entry.Alike s) items items' ∧
      (¬ Listed name → List.Forall₂ (Item.Alike s) items items')) ∨
    ∃ inner inner' node node', fields.get? name = some (.object inner node) ∧
      fields'.get? name = some (.object inner' node') ∧ Agrees s node node' := by
  rcases get?_alike alike name with nothing | ⟨item, item', found, found', inside⟩
  · exact .inl nothing
  cases inside with
  | same inside =>
    rcases inside.shapes with ⟨value, rfl, rfl⟩ | ⟨items, items', rfl, rfl, all⟩ |
      ⟨inner, inner', node, node', rfl, rfl, _, agrees⟩
    · exact .inr (.inl ⟨value, found, found'⟩)
    · exact .inr (.inr (.inl ⟨items, items', found, found', all.imp fun _ _ => .same, fun _ => all⟩))
    · exact .inr (.inr (.inr ⟨inner, inner', node, node', found, found', agrees⟩))
  | list listed entries =>
    exact .inr (.inr (.inl ⟨_, _, found, found', entries, fun other => absurd listed other⟩))

theorem text_alike (name : String) : fields'.text name = fields.text name := by
  rcases members_alike alike name with ⟨h, h'⟩ | ⟨_, h, h'⟩ | ⟨_, _, h, h', _⟩ | ⟨_, _, _, _, h, h', _⟩ <;>
    simp only [Fields.text, h, h']

theorem shape_alike (name : String) : fields'.shape name = fields.shape name := by
  rcases members_alike alike name with ⟨h, h'⟩ | ⟨_, h, h'⟩ | ⟨_, _, h, h', _⟩ | ⟨_, _, _, _, h, h', _⟩ <;>
    simp only [Fields.shape, h, h', Item.shape]

theorem hasObject_alike (name : String) : fields'.hasObject name = fields.hasObject name := by
  rcases members_alike alike name with ⟨h, h'⟩ | ⟨_, h, h'⟩ | ⟨_, _, h, h', _⟩ | ⟨_, _, _, _, h, h', _⟩ <;>
    simp only [Fields.hasObject, h, h']

theorem entries_alike (name : String) :
    List.Forall₂ (Entry.Alike s) (fields.entries name) (fields'.entries name) ∧
      (¬ Listed name → List.Forall₂ (Item.Alike s) (fields.entries name) (fields'.entries name)) := by
  rcases members_alike alike name with ⟨h, h'⟩ | ⟨_, h, h'⟩ | ⟨_, _, h, h', entries, plain⟩ |
    ⟨_, _, _, _, h, h', _⟩
  · simp only [Fields.entries, h, h']
    exact ⟨.nil, fun _ => .nil⟩
  · simp only [Fields.entries, h, h']
    exact ⟨.nil, fun _ => .nil⟩
  · simp only [Fields.entries, h, h']
    exact ⟨entries, plain⟩
  · simp only [Fields.entries, h, h']
    exact ⟨.nil, fun _ => .nil⟩

theorem agrees_childNode (owner name : String) :
    Agrees s (childNode owner fields name) (childNode owner fields' name) := by
  rcases members_alike alike name with ⟨h, h'⟩ | ⟨_, h, h'⟩ | ⟨_, _, h, h', _⟩ |
    ⟨_, _, _, _, h, h', node⟩
  · simp only [childNode, h, h']
    exact .refl _
  · simp only [childNode, h, h']
    exact .refl _
  · simp only [childNode, h, h']
    exact .refl _
  · simp only [childNode, h, h']
    exact node

theorem agrees_childExpr (owner name : String) :
    Agrees s (childExpr owner fields name) (childExpr owner fields' name) :=
  (agrees_childNode alike owner name).bind fun _ => .refl _

theorem agrees_childIdentifier (owner name : String) :
    Agrees s (childIdentifier owner fields name) (childIdentifier owner fields' name) :=
  (agrees_childNode alike owner name).bind fun _ => .refl _

end Parts

/-! ## Entries of arrays -/

section Entries

variable {s : String} {items items' : List Item}

theorem agrees_statementEntries (owner field : String) (position : Nat)
    (alike : List.Forall₂ (Item.Alike s) items items') :
    Agrees s (statementEntries owner field position items)
      (statementEntries owner field position items') := by
  induction alike generalizing position with
  | nil => exact .refl _
  | cons here _ ih =>
    rcases here.shapes with ⟨_, rfl, rfl⟩ | ⟨_, _, rfl, rfl, _⟩ | ⟨_, _, _, _, rfl, rfl, _, node⟩
    · exact .refl _
    · exact .refl _
    · refine node.bind fun n => ?_
      cases n with
      | statement => exact (ih (position + 1)).bind fun _ => .refl _
      | _ => exact .refl _

theorem agrees_exprEntries (owner field : String) (position : Nat)
    (alike : List.Forall₂ (Item.Alike s) items items') :
    Agrees s (exprEntries owner field position items) (exprEntries owner field position items') := by
  induction alike generalizing position with
  | nil => exact .refl _
  | cons here _ ih =>
    rcases here.shapes with ⟨_, rfl, rfl⟩ | ⟨_, _, rfl, rfl, _⟩ | ⟨_, _, _, _, rfl, rfl, _, node⟩
    · exact .refl _
    · exact .refl _
    · refine node.bind fun n => ?_
      split
      · exact (ih (position + 1)).bind fun _ => .refl _
      · exact .refl _

/-- The object of an identifier denotes it, unless the name is empty. -/
theorem ofJson_encodeIdentifier (s : String) :
    ∃ fields, Item.ofJson (encodeIdentifier s) =
      .object fields (if s = "" then .error .nameless else .ok (.statement (.eval (.identifier s)))) := by
  by_cases empty : s = ""
  · subst empty
    exact ⟨_, rfl⟩
  · rw [if_neg empty]
    exact denotes_identifier empty

theorem agrees_identifierEntries (owner field : String) (position : Nat)
    (alike : List.Forall₂ (Entry.Alike s) items items') :
    Agrees s (identifierEntries owner field position items)
      (identifierEntries owner field position items') := by
  induction alike generalizing position with
  | nil => exact .refl _
  | cons here _ ih =>
    cases here with
    | same here =>
      rcases here.shapes with ⟨value, rfl, rfl⟩ | ⟨_, _, rfl, rfl, _⟩ | ⟨_, _, _, _, rfl, rfl, _, node⟩
      · cases value with
        | string name => exact (ih (position + 1)).bind fun _ => .refl _
        | _ => exact .refl _
      · exact .refl _
      · refine node.bind fun n => ?_
        split
        · exact (ih (position + 1)).bind fun _ => .refl _
        · exact .refl _
    | respelled =>
      -- The string is taken as it is, while the object must not lack a name.
      obtain ⟨fields, denotes⟩ := ofJson_encodeIdentifier s
      rw [denotes]
      split
      · next empty => exact .inr ⟨empty, rfl⟩
      · exact (ih (position + 1)).bind fun _ => .refl _

theorem agrees_bindingEntries (alike : List.Forall₂ (Item.Alike s) items items') :
    Agrees s (bindingEntries items) (bindingEntries items') := by
  induction alike with
  | nil => exact .refl _
  | cons here _ ih =>
    rcases here.shapes with ⟨_, rfl, rfl⟩ | ⟨_, _, rfl, rfl, _⟩ | ⟨_, _, _, _, rfl, rfl, fields, _⟩
    · exact .refl _
    · exact .refl _
    · refine (agrees_childIdentifier fields "Binding" "name").bind fun _ => ?_
      refine (agrees_childExpr fields "Binding" "value").bind fun _ => ?_
      exact ih.bind fun _ => .refl _

theorem agrees_clauseEntries (alike : List.Forall₂ (Item.Alike s) items items') :
    Agrees s (clauseEntries items) (clauseEntries items') := by
  induction alike with
  | nil => exact .refl _
  | cons here _ ih =>
    rcases here.shapes with ⟨_, rfl, rfl⟩ | ⟨_, _, rfl, rfl, _⟩ | ⟨_, _, _, _, rfl, rfl, fields, _⟩
    · exact .refl _
    · exact .refl _
    · refine (agrees_childExpr fields "CaseClause" "condition").bind fun _ => ?_
      refine (agrees_childExpr fields "CaseClause" "result").bind fun _ => ?_
      exact ih.bind fun _ => .refl _

end Entries

/-! ## Forms -/

section Forms

variable {s : String} {fields fields' : Fields} (alike : List.Forall₂ (Member.Alike s) fields fields')

theorem not_listed {name : String} (other : name ∉ ["names", "parameters"]) : ¬ Listed name := by
  simpa [Listed] using other

include alike

theorem agrees_programBody : Agrees s (programBody fields) (programBody fields') := by
  have node := agrees_childNode alike "Program" "body"
  rw [programBody, programBody]
  rcases members_alike alike "body" with ⟨h, h'⟩ | ⟨_, h, h'⟩ | ⟨_, _, h, h', _, plain⟩ |
    ⟨_, _, _, _, h, h', _⟩
  · rw [h, h']
    exact node.bind fun _ => .refl _
  · rw [h, h']
    exact node.bind fun _ => .refl _
  · rw [h, h']
    exact agrees_statementEntries "Program" "body" 0 (plain (not_listed (by decide)))
  · rw [h, h']
    exact node.bind fun _ => .refl _

theorem numeralText?_alike : numeralText? fields' = numeralText? fields := by
  rcases members_alike alike "value" with ⟨h, h'⟩ | ⟨_, h, h'⟩ | ⟨_, _, h, h', _⟩ |
    ⟨_, _, _, _, h, h', _⟩ <;>
    simp only [numeralText?, h, h']

theorem agrees_integerField : Agrees s (integerField fields) (integerField fields') := by
  rw [integerField, integerField, numeralText?_alike alike, shape_alike alike]
  exact .refl _

theorem agrees_realField : Agrees s (realField fields) (realField fields') := by
  rw [realField, realField, numeralText?_alike alike, shape_alike alike]
  exact .refl _

theorem agrees_booleanField : Agrees s (booleanField fields) (booleanField fields') := by
  rw [booleanField, booleanField, shape_alike alike]
  rcases members_alike alike "value" with ⟨h, h'⟩ | ⟨_, h, h'⟩ | ⟨_, _, h, h', _⟩ |
    ⟨_, _, _, _, h, h', _⟩ <;>
    rw [h, h'] <;> exact .refl _

theorem agrees_stringField : Agrees s (stringField fields) (stringField fields') := by
  rw [stringField, stringField, shape_alike alike]
  rcases members_alike alike "value" with ⟨h, h'⟩ | ⟨_, h, h'⟩ | ⟨_, _, h, h', _⟩ |
    ⟨_, _, _, _, h, h', _⟩ <;>
    rw [h, h'] <;> exact .refl _

theorem agrees_definition : Agrees s (definition fields) (definition fields') := by
  refine (agrees_exprEntries "Definition" "values" 0
    ((entries_alike alike "values").2 (not_listed (by decide)))).bind fun values => ?_
  rw [hasObject_alike alike]
  split
  · exact (agrees_childNode alike "Definition" "index").bind fun _ => .refl _
  · refine (agrees_identifierEntries "Definition" "names" 0 (entries_alike alike "names").1).bind ?_
    exact fun _ => .refl _

theorem agrees_printing : Agrees s (printing fields) (printing fields') := by
  refine (agrees_childExpr alike "Print" "expression").bind fun value => ?_
  rcases members_alike alike "terminator" with ⟨h, h'⟩ | ⟨_, h, h'⟩ | ⟨_, _, h, h', _⟩ |
    ⟨_, _, _, _, h, h', _⟩ <;>
    rw [h, h'] <;> exact .refl _

theorem agrees_procedureExpr : Agrees s (procedureExpr fields) (procedureExpr fields') := by
  refine (agrees_identifierEntries "ProcedureExpression" "parameters" 0
    (entries_alike alike "parameters").1).bind fun parameters => ?_
  have body : ∀ rest, Agrees s
      (childExpr "ProcedureExpression" fields "body" >>= fun body =>
        pure (Expr.procedure parameters rest body))
      (childExpr "ProcedureExpression" fields' "body" >>= fun body =>
        pure (Expr.procedure parameters rest body)) :=
    fun rest => (agrees_childExpr alike "ProcedureExpression" "body").bind fun _ => .refl _
  simp only []
  rw [hasObject_alike alike]
  split
  · exact ((agrees_childIdentifier alike "ProcedureExpression" "rest").map some).bind body
  · exact body none

theorem agrees_conditionalExpr : Agrees s (conditionalExpr fields) (conditionalExpr fields') := by
  refine (agrees_childExpr alike "IfExpression" "condition").bind fun test => ?_
  refine (agrees_childExpr alike "IfExpression" "then").bind fun yes => ?_
  simp only []
  rw [hasObject_alike alike]
  split
  · exact ((agrees_childExpr alike "IfExpression" "else").map some).bind fun _ => .refl _
  · exact .refl _

theorem agrees_sides (owner : String) (form : Expr → Expr → Expr) :
    Agrees s (sides owner fields form) (sides owner fields' form) := by
  refine (agrees_childExpr alike owner "left").bind fun left => ?_
  exact (agrees_childExpr alike owner "right").bind fun _ => .refl _

theorem agrees_operandOf (owner : String) (form : Expr → Expr) :
    Agrees s (operandOf owner fields form) (operandOf owner fields' form) :=
  (agrees_childExpr alike owner "expression").bind fun _ => .refl _

/-- Each type of expressions is read from alike members alike. -/
theorem agrees_exprOfFields (type : String) :
    Option.Rel (Agrees s) (exprOfFields? type fields) (exprOfFields? type fields') := by
  have plain : ∀ {name}, name ∉ ["names", "parameters"] →
      List.Forall₂ (Item.Alike s) (fields.entries name) (fields'.entries name) :=
    fun other => (entries_alike alike _).2 (not_listed other)
  -- One case for each type, in the order of the table.
  unfold exprOfFields?
  split
  · exact .some ((agrees_statementEntries _ _ _ (plain (by decide))).bind fun _ => .refl _)
  · refine .some ((agrees_bindingEntries (plain (by decide))).bind fun bindings => ?_)
    exact (agrees_childExpr alike "Let" "body").bind fun _ => .refl _
  · rw [text_alike alike]
    exact .some (.refl _)
  · exact .some ((agrees_integerField alike).map _)
  · exact .some ((agrees_realField alike).map _)
  · exact .some ((agrees_booleanField alike).map _)
  · exact .some ((agrees_stringField alike).map _)
  · exact .some (.refl _)
  · exact .some (agrees_procedureExpr alike)
  · refine .some ((agrees_childExpr alike "Call" "callee").bind fun callee => ?_)
    exact (agrees_childExpr alike "Call" "arguments").bind fun _ => .refl _
  · exact .some (agrees_conditionalExpr alike)
  · exact .some ((agrees_clauseEntries (plain (by decide))).map _)
  · exact .some ((agrees_childExpr alike "LazyExpression" "body").map _)
  · refine .some ((agrees_childIdentifier alike "DefineExpression" "name").bind fun name => ?_)
    exact (agrees_childExpr alike "DefineExpression" "body").bind fun _ => .refl _
  · exact .some (.refl _)
  · exact .some (.refl _)
  · refine .some ((agrees_childExpr alike "SubstringExpression" "string").bind fun text => ?_)
    refine (agrees_childExpr alike "SubstringExpression" "start").bind fun start => ?_
    exact (agrees_childExpr alike "SubstringExpression" "end").bind fun _ => .refl _
  · exact .some (agrees_sides alike _ _)
  · exact .some (agrees_sides alike _ _)
  · rw [text_alike alike]
    refine .some ?_
    simp only []
    split
    · exact .refl _
    · exact agrees_sides alike _ _
  · rw [text_alike alike]
    exact .some ((agrees_childExpr alike "UnaryExpression" "operand").bind fun _ => .refl _)
  · exact .some ((agrees_exprEntries _ _ _ (plain (by decide))).map _)
  · exact .some ((agrees_exprEntries _ _ _ (plain (by decide))).map _)
  · refine .some ((agrees_childExpr alike "VectorGenerator" "count").bind fun count => ?_)
    exact (agrees_childExpr alike "VectorGenerator" "procedure").bind fun _ => .refl _
  · refine .some ((agrees_childIdentifier alike "VectorIndex" "name").bind fun name => ?_)
    exact (agrees_childExpr alike "VectorIndex" "index").bind fun _ => .refl _
  · exact .some (agrees_operandOf alike _ _)
  · exact .some (agrees_operandOf alike _ _)
  · exact .some (agrees_operandOf alike _ _)
  · exact .some (agrees_operandOf alike _ _)
  · exact .none

theorem agrees_nodeOfFields : Agrees s (nodeOfFields fields) (nodeOfFields fields') := by
  simp only [nodeOfFields]
  rw [text_alike alike]
  split
  · exact .refl _
  · exact (agrees_programBody alike).map _
  · exact (agrees_definition alike).map _
  · exact (agrees_printing alike).map _
  · have agrees := agrees_exprOfFields alike (fields.text "type")
    generalize exprOfFields? (fields.text "type") fields = x at agrees ⊢
    generalize exprOfFields? (fields.text "type") fields' = y at agrees ⊢
    cases agrees with
    | none => exact .refl _
    | some expr => exact expr.map _

end Forms

/-! ## Programs -/

section Programs

variable {s : String} {value value' : Json}

theorem ofItems_append (front back : List Json) :
    Item.ofItems (front ++ back) = Item.ofItems front ++ Item.ofItems back := by
  induction front with
  | nil => rfl
  | cons item rest ih => rw [List.cons_append, Item.ofItems, ih, Item.ofItems, List.cons_append]

theorem ofMembers_append (front back : List (String × Json)) :
    Item.ofMembers (front ++ back) = Item.ofMembers front ++ Item.ofMembers back := by
  induction front with
  | nil => rfl
  | cons member rest ih =>
    rw [List.cons_append, Item.ofMembers, ih, Item.ofMembers, List.cons_append]

/-- An object of which one member is exchanged for one that is alike. -/
theorem alike_object {name : String} {before after : List (String × Json)}
    (inside : Member.Alike s (name, Item.ofJson value) (name, Item.ofJson value')) :
    Item.Alike s (Item.ofJson (.object (before ++ (name, value) :: after)))
      (Item.ofJson (.object (before ++ (name, value') :: after))) := by
  have members : List.Forall₂ (Member.Alike s) (Item.ofMembers (before ++ (name, value) :: after))
      (Item.ofMembers (before ++ (name, value') :: after)) := by
    rw [ofMembers_append, ofMembers_append, Item.ofMembers, Item.ofMembers]
    exact alike_append .refl inside _ _
  exact .object members (agrees_nodeOfFields members)

theorem Json.Respelled.alike (respelled : Json.Respelled s value value') :
    Item.Alike s (Item.ofJson value) (Item.ofJson value') := by
  -- What does not hold the entry is the same in both values; the objects around it denote anew.
  induction respelled with
  | entry listed =>
    refine alike_object ?_
    rw [Item.ofJson, Item.ofJson, ofItems_append, ofItems_append, Item.ofItems, Item.ofItems]
    exact .list listed (alike_append (fun a => .same (.refl a)) .respelled _ _)
  | item _ ih =>
    rw [Item.ofJson, Item.ofJson, ofItems_append, ofItems_append, Item.ofItems, Item.ofItems]
    exact .array (alike_append .refl ih _ _)
  | member _ ih => exact alike_object (.same ih)

theorem agrees_ofJson (respelled : Json.Respelled s value value') :
    Agrees s (Program.ofJson value) (Program.ofJson value') := by
  rw [Program.ofJson, Program.ofJson]
  rcases respelled.alike.shapes with ⟨_, h, h'⟩ | ⟨_, _, h, h', items⟩ | ⟨_, _, _, _, h, h', _, node⟩
  · rw [h, h']
    exact .refl _
  · rw [h, h']
    exact (agrees_statementEntries "Program" "body" 0 items).bind fun _ => .refl _
  · rw [h, h']
    exact node.bind fun _ => .refl _

end Programs

/-- A definition of one by a list of names with one entry. -/
def definingOne (entry : Json) : Json :=
  .array [nodeObject "Definition" [("names", .array [entry]),
    ("values", .array [nodeObject "IntegerLiteral" [("value", .number "1")]])]]

theorem respelled_definingOne (s : String) :
    Json.Respelled s (definingOne (.string s)) (definingOne (encodeIdentifier s)) :=
  @Json.Respelled.item s _ _ [] [] (@Json.Respelled.entry s "names" [] [] [_] [_] (.inl rfl))

/-- The text of such a definition, with the empty string. -/
def emptyStringText : String :=
  "[\x7b\"type\":\"Definition\",\"names\":[\"\"]," ++
    "\"values\":[\x7b\"type\":\"IntegerLiteral\",\"value\":1\x7d]\x7d]"

/-- The text of such a definition, with the object of the empty name. -/
def emptyObjectText : String :=
  "[\x7b\"type\":\"Definition\",\"names\":[\x7b\"type\":\"Identifier\",\"name\":\"\"\x7d]," ++
    "\"values\":[\x7b\"type\":\"IntegerLiteral\",\"value\":1\x7d]\x7d]"

theorem read_emptyStringText :
    Json.read? emptyStringText = some (definingOne (.string "")) := by decide +kernel

theorem read_emptyObjectText :
    Json.read? emptyObjectText = some (definingOne (encodeIdentifier "")) := by decide +kernel

theorem ofJson_definingOne :
    Program.ofJson (definingOne (.string "")) =
        .ok ⟨some [.define [""] [.literal (.integer 1)]]⟩ ∧
      Program.ofJson (definingOne (encodeIdentifier "")) = .error .nameless :=
  ⟨rfl, rfl⟩

/-- Two outcomes are the same: one program, or two failures. -/
def SameOutcome (x y : Except DecodeError Program) : Prop := ∀ p, x = .ok p ↔ y = .ok p

/-- It makes no difference which way an identifier is written in a list of names or parameters, if and
only if it is not empty. With the empty one, the program is read as the same, or refused for the lack of
a name. -/
theorem Program.respelling_iff (s : String) :
    (∀ value value', Json.Respelled s value value' →
      Program.ofJson value' = Program.ofJson value ∨
        s = "" ∧ Program.ofJson value' = .error (.missing "Identifier" "name")) ∧
    ((∀ source source' value value', Json.read? source = some value →
        Json.read? source' = some value' → Json.Respelled s value value' →
        SameOutcome (Program.decode source) (Program.decode source')) ↔ s ≠ "") := by
  refine ⟨fun value value' => agrees_ofJson, ?_, ?_⟩
  · rintro same rfl
    have same := same _ _ _ _ read_emptyStringText read_emptyObjectText (respelled_definingOne "")
    rw [Program.decode, Program.decode, read_emptyStringText, read_emptyObjectText] at same
    have refused := (same _).mp ofJson_definingOne.1
    cases ofJson_definingOne.2.symm.trans refused
  · intro given source source' value value' read read' respelled p
    rw [Program.decode, Program.decode, read, read']
    rcases agrees_ofJson respelled with same | ⟨empty, _⟩
    · dsimp only
      rw [same]
    · exact absurd empty given

/-- The name `x` may be written as an object. -/
theorem ofJson_respelled_x :
    Program.ofJson (definingOne (encodeIdentifier "x")) =
      .ok ⟨some [.define ["x"] [.literal (.integer 1)]]⟩ := by
  rcases (Program.respelling_iff "x").1 _ _ (respelled_definingOne "x") with same | ⟨empty, _⟩
  · exact same.trans rfl
  · exact absurd empty (by decide)

/-- The empty name may be written as a string, but not as an object. -/
theorem empty_name_refused :
    Json.read? emptyStringText = some (definingOne (.string "")) ∧
    Json.read? emptyObjectText = some (definingOne (encodeIdentifier "")) ∧
    Json.Respelled "" (definingOne (.string "")) (definingOne (encodeIdentifier "")) ∧
    Program.decode emptyStringText = .ok ⟨some [.define [""] [.literal (.integer 1)]]⟩ ∧
    Program.decode emptyObjectText = .error (.missing "Identifier" "name") := by
  refine ⟨read_emptyStringText, read_emptyObjectText, respelled_definingOne "", ?_, ?_⟩
  · rw [Program.decode, read_emptyStringText]
    exact ofJson_definingOne.1
  · rw [Program.decode, read_emptyObjectText]
    exact ofJson_definingOne.2

end Smpl

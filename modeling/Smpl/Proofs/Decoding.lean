import Smpl.Program.Decode
import Smpl.Proofs.Complete

/-!
# Programs read from text are complete

Reading annotates a JSON value from the leaves up. Every node that it attaches to an object is
complete (`Item.Complete`): the parts that the node is made of come from members that are complete
already, an absent part is a fault, and so are binary operators without a symbol, unknown unary
operators and assignments with more or fewer values than one.
-/

namespace Smpl

/-- A node that has all its parts. -/
def Node.Complete : Node → Prop
  | .program p => p.Complete
  | .statement s => s.Complete
  | .binding _ value => value.Complete
  | .clause condition result => condition.Complete ∧ result.Complete

/-- An annotated value all of whose nodes are complete. -/
inductive Item.Complete : Item → Prop
  | atom {value : Json} : Item.Complete (.atom value)
  | array {items : List Item} : (∀ item ∈ items, Item.Complete item) → Item.Complete (.array items)
  | object {fields : Fields} {node : Except DecodeError Node} :
      (∀ f ∈ fields, Item.Complete f.2) → (∀ n, node = .ok n → n.Complete) →
      Item.Complete (.object fields node)

/-- Members all of whose nodes are complete. -/
def Fields.Complete (fields : Fields) : Prop := ∀ f ∈ fields, f.2.Complete

/-! ## Readers that yield complete results -/

/-- What a reader gives, if it gives anything, has a property. -/
def Yields {α : Type} (x : Except DecodeError α) (P : α → Prop) : Prop := ∀ a, x = .ok a → P a

namespace Yields

variable {α β : Type} {P : α → Prop} {Q : β → Prop}

theorem ok {a : α} (h : P a) : Yields (.ok a) P := by
  intro b hb
  cases hb
  exact h

theorem error {e : DecodeError} : Yields (.error e) P := nofun

theorem any {x : Except DecodeError α} : Yields x fun _ => True := fun _ _ => trivial

theorem bind {x : Except DecodeError α} {f : α → Except DecodeError β} (hx : Yields x P)
    (hf : ∀ a, P a → Yields (f a) Q) : Yields (x >>= f) Q := by
  intro b hb
  cases x with
  | ok a => exact hf a (hx a rfl) b hb
  | error e => cases hb

theorem map {x : Except DecodeError α} {f : α → β} (hx : Yields x P) (hf : ∀ a, P a → Q (f a)) :
    Yields (f <$> x) Q := by
  intro b hb
  cases x with
  | ok a =>
    cases hb
    exact hf a (hx a rfl)
  | error e => cases hb

end Yields

/-! ## Parts -/

theorem Json.lastOf?_cons {α : Type} (e : String × α) (entries : List (String × α)) (name : String) :
    lastOf? name (e :: entries) =
      (lastOf? name entries).or (if e.1 = name then some e.2 else none) := by
  rw [lastOf?]
  cases lastOf? name entries <;> rfl

theorem Json.mem_of_lastOf? {α : Type} {name : String} {entries : List (String × α)} {a : α}
    (h : Json.lastOf? name entries = some a) : (name, a) ∈ entries := by
  induction entries with
  | nil => cases h
  | cons entry rest ih =>
    unfold Json.lastOf? at h
    split at h
    · next later found =>
      cases h
      exact List.mem_cons_of_mem _ (ih found)
    · split at h
      · next here =>
        cases h
        rw [← here]
        exact List.mem_cons_self
      · cases h

section Parts

variable {fields : Fields} (hf : fields.Complete) {owner name : String}

include hf

theorem Fields.Complete.get? {item : Item} (h : fields.get? name = some item) : item.Complete :=
  hf (name, item) (Json.mem_of_lastOf? h)

theorem Fields.Complete.entries : ∀ item ∈ fields.entries name, item.Complete := by
  unfold Fields.entries
  split
  · next items found =>
    cases hf.get? found with
    | array all => exact all
  · simp

theorem childNode_complete : Yields (childNode owner fields name) Node.Complete := by
  unfold childNode
  split
  · next found =>
    cases hf.get? found with
    | object _ node => exact node
  · exact .error

theorem childExpr_complete : Yields (childExpr owner fields name) Expr.Complete := by
  refine (childNode_complete hf).bind fun node complete => ?_
  split
  · cases complete with
    | eval e => exact .ok e
  · exact .error

end Parts

/-! ## Entries of arrays -/

theorem statementEntries_complete {owner field : String} {position : Nat} {items : List Item}
    (hi : ∀ item ∈ items, item.Complete) :
    Yields (statementEntries owner field position items) fun body => ∀ s ∈ body, s.Complete := by
  induction items generalizing position with
  | nil => exact .ok (by simp)
  | cons item rest ih =>
    obtain ⟨here, hr⟩ := List.forall_mem_cons.mp hi
    cases here with
    | object _ node =>
      refine Yields.bind node fun n complete => ?_
      split
      · exact (ih hr).bind fun body all => .ok (List.forall_mem_cons.mpr ⟨complete, all⟩)
      · exact .error
    | atom => exact .error
    | array _ => exact .error

theorem exprEntries_complete {owner field : String} {position : Nat} {items : List Item}
    (hi : ∀ item ∈ items, item.Complete) :
    Yields (exprEntries owner field position items) fun es => ∀ e ∈ es, e.Complete := by
  induction items generalizing position with
  | nil => exact .ok (by simp)
  | cons item rest ih =>
    obtain ⟨here, hr⟩ := List.forall_mem_cons.mp hi
    cases here with
    | object _ node =>
      refine Yields.bind node fun n complete => ?_
      split
      · cases complete with
        | eval e =>
          exact (ih hr).bind fun es all => .ok (List.forall_mem_cons.mpr ⟨e, all⟩)
      · exact .error
    | atom => exact .error
    | array _ => exact .error

theorem bindingEntries_complete {items : List Item} (hi : ∀ item ∈ items, item.Complete) :
    Yields (bindingEntries items) fun bindings => ∀ b ∈ bindings, b.2.Complete := by
  induction items with
  | nil => exact .ok (by simp)
  | cons item rest ih =>
    obtain ⟨here, hr⟩ := List.forall_mem_cons.mp hi
    cases here with
    | object fields _ =>
      refine Yields.any.bind fun name _ => ?_
      refine (childExpr_complete fields).bind fun value complete => ?_
      exact (ih hr).bind fun bindings all => .ok (List.forall_mem_cons.mpr ⟨complete, all⟩)
    | atom => exact .error
    | array _ => exact .error

theorem clauseEntries_complete {items : List Item} (hi : ∀ item ∈ items, item.Complete) :
    Yields (clauseEntries items) fun clauses =>
      (∀ c ∈ clauses, c.1.Complete) ∧ ∀ c ∈ clauses, c.2.Complete := by
  induction items with
  | nil => exact .ok (by simp)
  | cons item rest ih =>
    obtain ⟨here, hr⟩ := List.forall_mem_cons.mp hi
    cases here with
    | object fields _ =>
      refine (childExpr_complete fields).bind fun condition first => ?_
      refine (childExpr_complete fields).bind fun result second => ?_
      refine (ih hr).bind fun clauses all => .ok ⟨?_, ?_⟩
      · exact List.forall_mem_cons.mpr ⟨first, all.1⟩
      · exact List.forall_mem_cons.mpr ⟨second, all.2⟩
    | atom => exact .error
    | array _ => exact .error

/-! ## Nodes -/

section Nodes

variable {fields : Fields} (hf : fields.Complete)

include hf

theorem programBody_complete :
    Yields (programBody fields) fun body => ∀ s ∈ body, s.Complete := by
  unfold programBody
  split
  · next items found =>
    cases hf.get? found with
    | array all => exact statementEntries_complete all
  · refine (childNode_complete hf).bind fun node complete => ?_
    split
    · cases complete with
      | eval e => cases e with
        | block all => exact .ok all
    · exact .error

theorem definition_complete : Yields (definition fields) Stmt.Complete := by
  refine (exprEntries_complete hf.entries).bind fun values complete => ?_
  split
  · refine (childNode_complete hf).bind fun node slot => ?_
    split
    · split
      -- Only here is the number of values checked; `Stmt.Complete` asks for exactly one.
      · next single =>
        obtain ⟨value, rfl⟩ := List.length_eq_one_iff.mp single
        cases slot with
        | eval e => cases e with
          | index position => exact .ok (.assign position (complete value List.mem_cons_self))
      · exact .error
    · exact .error
  · exact Yields.any.bind fun names _ => .ok (.define complete)

theorem printing_complete : Yields (printing fields) Stmt.Complete := by
  refine (childExpr_complete hf).bind fun value complete => ?_
  split
  · exact .ok (.print complete)
  · exact .ok (.print complete)

theorem procedureExpr_complete : Yields (procedureExpr fields) Expr.Complete := by
  refine Yields.any.bind fun parameters _ => ?_
  have body : ∀ rest, Yields (do
      let body ← childExpr "ProcedureExpression" fields "body"
      pure (Expr.procedure parameters rest body)) Expr.Complete :=
    fun rest => (childExpr_complete hf).bind fun body complete => .ok (.procedure complete)
  simp only []
  split
  · exact Yields.any.bind fun rest _ => body rest
  · exact body none

theorem conditionalExpr_complete : Yields (conditionalExpr fields) Expr.Complete := by
  refine (childExpr_complete hf).bind fun test first => ?_
  refine (childExpr_complete hf).bind fun yes second => ?_
  simp only []
  split
  · have branch : Yields (some <$> childExpr "IfExpression" fields "else")
        fun no => ∀ e ∈ no, e.Complete :=
      (childExpr_complete hf).map fun e complete => by simpa using complete
    exact branch.bind fun no third => .ok (.conditional first second third)
  · exact .ok (.conditional first second (by simp))

theorem sides_complete {owner : String} {form : Expr → Expr → Expr}
    (complete : ∀ l r, l.Complete → r.Complete → (form l r).Complete) :
    Yields (sides owner fields form) Expr.Complete := by
  refine (childExpr_complete hf).bind fun left first => ?_
  exact (childExpr_complete hf).bind fun right second => .ok (complete left right first second)

theorem operandOf_complete {owner : String} {form : Expr → Expr}
    (complete : ∀ e, e.Complete → (form e).Complete) :
    Yields (operandOf owner fields form) Expr.Complete :=
  (childExpr_complete hf).bind fun operand h => .ok (complete operand h)

/-- Each type of expressions is made of parts that are complete. -/
theorem exprOfFields_complete {type : String} {expr : Except DecodeError Expr}
    (h : exprOfFields? type fields = some expr) : Yields expr Expr.Complete := by
  -- One case for each type, in the order of the table.
  unfold exprOfFields? at h
  split at h <;> cases h
  · exact (statementEntries_complete hf.entries).bind fun body complete => .ok (.block complete)
  · refine (bindingEntries_complete hf.entries).bind fun bindings complete => ?_
    exact (childExpr_complete hf).bind fun body last => .ok (.letIn complete last)
  · simp only []
    split
    · exact .error
    · exact .ok .identifier
  · exact Yields.any.map fun n _ => .literal
  · exact Yields.any.map fun x _ => .literal
  · exact Yields.any.map fun b _ => .literal
  · exact Yields.any.map fun s _ => .literal
  · exact .ok .emptyList
  · exact procedureExpr_complete hf
  · refine (childExpr_complete hf).bind fun callee first => ?_
    exact (childExpr_complete hf).bind fun arguments second => .ok (.call first second)
  · exact conditionalExpr_complete hf
  · exact (clauseEntries_complete hf.entries).map fun clauses complete => .select complete.1 complete.2
  · exact (childExpr_complete hf).map fun body complete => .lazy complete
  · refine Yields.any.bind fun name _ => ?_
    exact (childExpr_complete hf).bind fun body complete => .ok (.define complete)
  · exact .ok .read
  · exact .ok .readInteger
  · refine (childExpr_complete hf).bind fun text first => ?_
    refine (childExpr_complete hf).bind fun start second => ?_
    exact (childExpr_complete hf).bind fun stop third => .ok (.substring first second third)
  · exact sides_complete hf fun _ _ => .pair
  · exact sides_complete hf fun _ _ => .identical
  · simp only []
    split
    · exact .error
    · next symbol => exact sides_complete hf fun _ _ => .binary symbol
  · refine (childExpr_complete hf).bind fun operand complete => ?_
    split
    · next known => exact .ok (.unary known complete)
    · exact .error
  · exact (exprEntries_complete hf.entries).map fun elements complete => .list complete
  · exact (exprEntries_complete hf.entries).map fun elements complete => .vector complete
  · refine (childExpr_complete hf).bind fun count first => ?_
    exact (childExpr_complete hf).bind fun procedure second => .ok (.generator first second)
  · refine Yields.any.bind fun name _ => ?_
    exact (childExpr_complete hf).bind fun position complete => .ok (.index complete)
  · exact operandOf_complete hf fun _ => .size
  · exact operandOf_complete hf fun _ => .car
  · exact operandOf_complete hf fun _ => .cdr
  · exact operandOf_complete hf fun _ => .isPair

theorem nodeOfFields_complete : Yields (nodeOfFields fields) Node.Complete := by
  simp only [nodeOfFields]
  split
  · exact .error
  · exact (programBody_complete hf).map fun body complete => complete
  · exact (definition_complete hf).map fun s complete => complete
  · exact (printing_complete hf).map fun s complete => complete
  · split
    · next found => exact (exprOfFields_complete hf found).map fun e complete => .eval complete
    · exact .error

end Nodes

/-! ## Programs -/

mutual

theorem Item.ofJson_complete : (value : Json) → (Item.ofJson value).Complete
  | .array items => .array (Item.ofItems_complete items)
  | .object members =>
    .object (Item.ofMembers_complete members)
      (nodeOfFields_complete (Item.ofMembers_complete members))
  | .null => .atom
  | .bool _ => .atom
  | .number _ => .atom
  | .string _ => .atom

theorem Item.ofItems_complete : (items : List Json) → ∀ item ∈ Item.ofItems items, item.Complete
  | [] => by simp [Item.ofItems]
  | value :: rest =>
    List.forall_mem_cons.mpr ⟨Item.ofJson_complete value, Item.ofItems_complete rest⟩

theorem Item.ofMembers_complete : (members : List (String × Json)) →
    ∀ f ∈ Item.ofMembers members, f.2.Complete
  | [] => by simp [Item.ofMembers]
  | (_, value) :: rest =>
    List.forall_mem_cons.mpr ⟨Item.ofJson_complete value, Item.ofMembers_complete rest⟩

end

theorem Program.ofJson_complete (value : Json) : Yields (Program.ofJson value) Program.Complete := by
  have complete := Item.ofJson_complete value
  unfold Program.ofJson
  split
  · next items found =>
    rw [found] at complete
    cases complete with
    | array all => exact (statementEntries_complete all).bind fun body complete => .ok complete
  · next fields node found =>
    rw [found] at complete
    cases complete with
    | object _ nodes =>
      refine Yields.bind nodes fun n complete => ?_
      split
      · exact .ok complete
      · cases complete with
        | eval e => cases e with
          | block all => exact .ok all
      · exact .ok (List.forall_mem_singleton.mpr complete)
      · exact .error
  · exact .error

/-- Every program that can be read from text is complete. -/
theorem Program.decode_complete {source : String} {p : Program}
    (h : Program.decode source = .ok p) : p.Complete := by
  unfold Program.decode at h
  split at h
  · cases h
  · exact Program.ofJson_complete _ p h

end Smpl

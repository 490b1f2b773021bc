import Smpl.Json.Reader
import Smpl.Numeric.RealText
import Smpl.Program.Basic
import Smpl.Text.Quoted

/-!
# Reading programs

A program is read from JSON: an array of statements, a sequence or a program object, or one
statement alone. Reading goes in two steps.
* `Item.ofJson` annotates a JSON value from the leaves up: every object carries the node that it
  denotes, or the reason why it denotes none.
* `nodeOfFields` says what an object denotes in terms of its annotated members. It looks at the
  members in a fixed order, so that of several faults the first in that order is reported; a member
  that it does not look at may hold anything.

Where an identifier is expected in an array, a plain string will do.
-/

namespace Smpl

/-! ## Faults -/

/-- The shape of a JSON value as messages name it. -/
inductive Shape where
  | null
  | bool
  | number
  | string
  | array
  | object
  deriving DecidableEq, Repr

/-- The word for a shape. -/
def Shape.text : Shape → String
  | .null => "<nil>"
  | .bool => "bool"
  | .number => "json.Number"
  | .string => "string"
  | .array => "[]interface \x7b\x7d"
  | .object => "map[string]interface \x7b\x7d"

/-- The shape of a JSON value. -/
def Json.shape : Json → Shape
  | .null => .null
  | .bool _ => .bool
  | .number _ => .number
  | .string _ => .string
  | .array _ => .array
  | .object _ => .object

/-- The two kinds of numeric literals. -/
inductive NumeralKind where
  | integer
  | real
  deriving DecidableEq, Repr

/-- Why a text is no program. -/
inductive DecodeError where
  /-- The text is no JSON. -/
  | malformed
  /-- The root is neither an object nor an array. -/
  | rootShape (shape : Shape)
  /-- A part is absent or no object. -/
  | missing (owner field : String)
  /-- A part is a node of another kind. -/
  | unexpected (owner field node : String)
  /-- An entry of an array is no object. -/
  | entryShape (owner field : String) (position : Nat) (shape : Shape)
  /-- An entry of an array is a node of another kind. -/
  | entryNode (owner field : String) (position : Nat) (node : String)
  /-- A binding or clause is no object. -/
  | partShape (owner field : String) (shape : Shape)
  /-- An object has no type. -/
  | untyped
  /-- An object has a type that no node has. -/
  | unknownType (type : String)
  /-- An assignment to a slot has not exactly one value. -/
  | slotValues (count : Nat)
  /-- A literal holds a value of another shape. -/
  | literalShape (owner expected : String) (shape : Shape)
  /-- A literal holds text that is no such number. -/
  | numeral (owner : String) (kind : NumeralKind) (text : String) (fault : Numeric.NumberFault)
  /-- A unary operator is unknown. -/
  | unaryOperator (symbol : String)
  deriving Repr

/-- The text of a number that could not be read. -/
def numeralMessage (kind : NumeralKind) (text : String) (fault : Numeric.NumberFault) : String :=
  let reader := match kind with
    | .integer => "strconv.ParseInt"
    | .real => "strconv.ParseFloat"
  let reason := match fault with
    | .malformed => "invalid syntax"
    | .outOfRange => "value out of range"
  reader ++ ": parsing " ++ Text.quote text ++ ": " ++ reason

/-- The message of a fault. -/
def DecodeError.message : DecodeError → String
  | .malformed => "decode program: malformed JSON"
  | .rootShape shape => "decode program: unexpected root " ++ shape.text
  | .missing owner field => owner ++ "." ++ field ++ ": missing"
  | .unexpected owner field node => owner ++ "." ++ field ++ ": unexpected " ++ node
  | .entryShape owner field position shape =>
    owner ++ "." ++ field ++ "[" ++ toString position ++ "]: invalid entry " ++ shape.text
  | .entryNode owner field position node =>
    owner ++ "." ++ field ++ "[" ++ toString position ++ "]: unexpected " ++ node
  | .partShape owner field shape => owner ++ "." ++ field ++ ": invalid entry " ++ shape.text
  | .untyped => "node missing type"
  | .unknownType type => "unsupported node type " ++ type
  | .slotValues count =>
    "Definition.values: indexed definition takes one value, got " ++ toString count
  | .literalShape owner expected shape =>
    owner ++ ".value: expected " ++ expected ++ ", got " ++ shape.text
  | .numeral owner kind text fault => owner ++ ".value: " ++ numeralMessage kind text fault
  | .unaryOperator symbol => "UnaryExpression.operator: unsupported " ++ Text.quote symbol

/-! ## Annotated JSON -/

/-- A JSON value whose objects carry the nodes that they denote. -/
inductive Item where
  /-- A value without parts. -/
  | atom (value : Json)
  | array (items : List Item)
  | object (fields : List (String × Item)) (node : Except DecodeError Node)

/-- The members of an object. -/
abbrev Fields := List (String × Item)

/-- The shape of an annotated value. -/
def Item.shape : Item → Shape
  | .atom value => value.shape
  | .array _ => .array
  | .object _ _ => .object

/-- The member of a name; of several the last. -/
def Fields.get? (fields : Fields) (name : String) : Option Item := Json.lastOf? name fields

/-- The shape of a member; an absent one has the shape of `null`. -/
def Fields.shape (fields : Fields) (name : String) : Shape :=
  match fields.get? name with
  | some item => item.shape
  | none => .null

/-- The string under a name, or the empty string. -/
def Fields.text (fields : Fields) (name : String) : String :=
  match fields.get? name with
  | some (.atom (.string s)) => s
  | _ => ""

/-- The entries of the array under a name, or none. -/
def Fields.entries (fields : Fields) (name : String) : List Item :=
  match fields.get? name with
  | some (.array items) => items
  | _ => []

/-- Whether an object stands under a name. -/
def Fields.hasObject (fields : Fields) (name : String) : Bool :=
  match fields.get? name with
  | some (.object _ _) => true
  | _ => false

/-! ## Parts -/

/-- The node under a name. -/
def childNode (owner : String) (fields : Fields) (name : String) : Except DecodeError Node :=
  match fields.get? name with
  | some (.object _ node) => node
  | _ => .error (.missing owner name)

/-- The expression under a name. -/
def childExpr (owner : String) (fields : Fields) (name : String) : Except DecodeError Expr := do
  match ← childNode owner fields name with
  | .statement (.eval e) => pure e
  | node => .error (.unexpected owner name node.nodeName)

/-- The identifier under a name. -/
def childIdentifier (owner : String) (fields : Fields) (name : String) :
    Except DecodeError String := do
  match ← childNode owner fields name with
  | .statement (.eval (.identifier id)) => pure id
  | node => .error (.unexpected owner name node.nodeName)

/-- The entries of an array as statements. -/
def statementEntries (owner field : String) : Nat → List Item → Except DecodeError (List Stmt)
  | _, [] => pure []
  | position, .object _ node :: rest => do
    match ← node with
    | .statement s =>
      let more ← statementEntries owner field (position + 1) rest
      pure (s :: more)
    | other => .error (.entryNode owner field position other.nodeName)
  | position, item :: _ => .error (.entryShape owner field position item.shape)

/-- The entries of an array as expressions. -/
def exprEntries (owner field : String) : Nat → List Item → Except DecodeError (List Expr)
  | _, [] => pure []
  | position, .object _ node :: rest => do
    match ← node with
    | .statement (.eval e) =>
      let more ← exprEntries owner field (position + 1) rest
      pure (e :: more)
    | other => .error (.entryNode owner field position other.nodeName)
  | position, item :: _ => .error (.entryShape owner field position item.shape)

/-- The entries of an array as identifiers; a string is an identifier. -/
def identifierEntries (owner field : String) : Nat → List Item → Except DecodeError (List String)
  | _, [] => pure []
  | position, .atom (.string s) :: rest => do
    let more ← identifierEntries owner field (position + 1) rest
    pure (s :: more)
  | position, .object _ node :: rest => do
    match ← node with
    | .statement (.eval (.identifier id)) =>
      let more ← identifierEntries owner field (position + 1) rest
      pure (id :: more)
    | other => .error (.entryNode owner field position other.nodeName)
  | position, item :: _ => .error (.entryShape owner field position item.shape)

/-- The entries of an array as the bindings of a `let`. -/
def bindingEntries : List Item → Except DecodeError (List (String × Expr))
  | [] => pure []
  | .object fields _ :: rest => do
    let name ← childIdentifier "Binding" fields "name"
    let value ← childExpr "Binding" fields "value"
    let more ← bindingEntries rest
    pure ((name, value) :: more)
  | item :: _ => .error (.partShape "Let" "bindings" item.shape)

/-- The entries of an array as the clauses of a `case`. -/
def clauseEntries : List Item → Except DecodeError (List (Expr × Expr))
  | [] => pure []
  | .object fields _ :: rest => do
    let condition ← childExpr "CaseClause" fields "condition"
    let result ← childExpr "CaseClause" fields "result"
    let more ← clauseEntries rest
    pure ((condition, result) :: more)
  | item :: _ => .error (.partShape "CaseExpression" "clauses" item.shape)

/-- The body of a program: an array of statements, or a sequence. -/
def programBody (fields : Fields) : Except DecodeError (List Stmt) :=
  match fields.get? "body" with
  | some (.array items) => statementEntries "Program" "body" 0 items
  | _ => do
    match ← childNode "Program" fields "body" with
    | .statement (.eval (.block body)) => pure body
    | node => .error (.unexpected "Program" "body" node.nodeName)

/-- The text of a numeral: a number, or a string that holds one. -/
def numeralText? (fields : Fields) : Option String :=
  match fields.get? "value" with
  | some (.atom (.number t)) => some t
  | some (.atom (.string t)) => some t
  | _ => none

/-- The value of an integer literal. -/
def integerField (fields : Fields) : Except DecodeError Int64 :=
  match numeralText? fields with
  | none => .error (.literalShape "IntegerLiteral" "integer" (fields.shape "value"))
  | some t => (Numeric.readInt64 t.toList).mapError (.numeral "IntegerLiteral" .integer t)

/-- The value of a real literal. -/
def realField (fields : Fields) : Except DecodeError Float :=
  match numeralText? fields with
  | none => .error (.literalShape "RealLiteral" "number" (fields.shape "value"))
  | some t => (Numeric.readReal t.toList).mapError (.numeral "RealLiteral" .real t)

/-- The value of a boolean literal. -/
def booleanField (fields : Fields) : Except DecodeError Bool :=
  match fields.get? "value" with
  | some (.atom (.bool b)) => pure b
  | _ => .error (.literalShape "BooleanLiteral" "boolean" (fields.shape "value"))

/-- The value of a string literal. -/
def stringField (fields : Fields) : Except DecodeError String :=
  match fields.get? "value" with
  | some (.atom (.string s)) => pure s
  | _ => .error (.literalShape "StringLiteral" "string" (fields.shape "value"))

/-- A definition: its values first, then the slot it assigns to, or else its names. -/
def definition (fields : Fields) : Except DecodeError Stmt := do
  let values ← exprEntries "Definition" "values" 0 (fields.entries "values")
  if fields.hasObject "index" then
    match ← childNode "Definition" fields "index" with
    | .statement (.eval (.index name position)) =>
      if values.length = 1 then pure (.assign name position values)
      else .error (.slotValues values.length)
    | node => .error (.unexpected "Definition" "index" node.nodeName)
  else
    let names ← identifierEntries "Definition" "names" 0 (fields.entries "names")
    pure (.define names values)

/-- A printing statement; without a terminator it ends the line. -/
def printing (fields : Fields) : Except DecodeError Stmt := do
  let value ← childExpr "Print" fields "expression"
  match fields.get? "terminator" with
  | some (.atom (.string t)) => pure (.print value t)
  | _ => pure (.print value "\n")

/-- A procedure; anything but an object in place of the rest parameter means that there is none. -/
def procedureExpr (fields : Fields) : Except DecodeError Expr := do
  let parameters ←
    identifierEntries "ProcedureExpression" "parameters" 0 (fields.entries "parameters")
  let rest ←
    if fields.hasObject "rest" then
      some <$> childIdentifier "ProcedureExpression" fields "rest"
    else pure none
  let body ← childExpr "ProcedureExpression" fields "body"
  pure (.procedure parameters rest body)

/-- A conditional; anything but an object in place of the second branch means that there is none. -/
def conditionalExpr (fields : Fields) : Except DecodeError Expr := do
  let test ← childExpr "IfExpression" fields "condition"
  let yes ← childExpr "IfExpression" fields "then"
  let no ←
    if fields.hasObject "else" then some <$> childExpr "IfExpression" fields "else"
    else pure none
  pure (.conditional test yes no)

/-- A form with two sides. -/
def sides (owner : String) (fields : Fields) (form : Expr → Expr → Expr) :
    Except DecodeError Expr := do
  let left ← childExpr owner fields "left"
  let right ← childExpr owner fields "right"
  pure (form left right)

/-- A form with one operand. -/
def operandOf (owner : String) (fields : Fields) (form : Expr → Expr) :
    Except DecodeError Expr := do
  let operand ← childExpr owner fields "expression"
  pure (form operand)

/-- The expression of a type that an object denotes, if the type is that of an expression. -/
def exprOfFields? (type : String) (fields : Fields) : Option (Except DecodeError Expr) :=
  match type with
  | "Sequence" => some do
    let body ← statementEntries "Sequence" "statements" 0 (fields.entries "statements")
    pure (.block body)
  | "Let" => some do
    let bindings ← bindingEntries (fields.entries "bindings")
    let body ← childExpr "Let" fields "body"
    pure (.letIn bindings body)
  | "Identifier" => some (
    let name := fields.text "name"
    if name = "" then .error (.missing "Identifier" "name") else pure (.identifier name))
  | "IntegerLiteral" => some ((fun n => .literal (.integer n)) <$> integerField fields)
  | "RealLiteral" => some ((fun x => .literal (.real x)) <$> realField fields)
  | "BooleanLiteral" => some ((fun b => .literal (.boolean b)) <$> booleanField fields)
  | "StringLiteral" => some ((fun s => .literal (.string s)) <$> stringField fields)
  | "EmptyListLiteral" => some (pure .emptyList)
  | "ProcedureExpression" => some (procedureExpr fields)
  | "Call" => some do
    let callee ← childExpr "Call" fields "callee"
    let arguments ← childExpr "Call" fields "arguments"
    pure (.call callee arguments)
  | "IfExpression" => some (conditionalExpr fields)
  | "CaseExpression" => some (.select <$> clauseEntries (fields.entries "clauses"))
  | "LazyExpression" => some (.lazy <$> childExpr "LazyExpression" fields "body")
  | "DefineExpression" => some do
    let name ← childIdentifier "DefineExpression" fields "name"
    let body ← childExpr "DefineExpression" fields "body"
    pure (.define name body)
  | "ReadExpression" => some (pure .read)
  | "ReadIntegerExpression" => some (pure .readInteger)
  | "SubstringExpression" => some do
    let text ← childExpr "SubstringExpression" fields "string"
    let start ← childExpr "SubstringExpression" fields "start"
    let stop ← childExpr "SubstringExpression" fields "end"
    pure (.substring text start stop)
  | "PairExpression" => some (sides "PairExpression" fields .pair)
  | "EqualvExpression" => some (sides "EqualvExpression" fields .identical)
  | "BinaryExpression" => some (
    let symbol := fields.text "operator"
    if symbol = "" then .error (.missing "BinaryExpression" "operator")
    else sides "BinaryExpression" fields (.binary symbol))
  | "UnaryExpression" => some do
    let symbol := fields.text "operator"
    let operand ← childExpr "UnaryExpression" fields "operand"
    if symbol = notSymbol ∨ symbol = complementSymbol then pure (.unary symbol operand)
    else .error (.unaryOperator symbol)
  | "ListExpression" =>
    some (.list <$> exprEntries "ListExpression" "elements" 0 (fields.entries "elements"))
  | "VectorExpression" =>
    some (.vector <$> exprEntries "VectorExpression" "elements" 0 (fields.entries "elements"))
  | "VectorGenerator" => some do
    let count ← childExpr "VectorGenerator" fields "count"
    let procedure ← childExpr "VectorGenerator" fields "procedure"
    pure (.generator count procedure)
  | "VectorIndex" => some do
    let name ← childIdentifier "VectorIndex" fields "name"
    let position ← childExpr "VectorIndex" fields "index"
    pure (.index name position)
  | "SizeExpression" => some (operandOf "SizeExpression" fields .size)
  | "CarExpression" => some (operandOf "CarExpression" fields .car)
  | "CdrExpression" => some (operandOf "CdrExpression" fields .cdr)
  | "PairCheckExpression" => some (operandOf "PairCheckExpression" fields .isPair)
  | _ => none

/-- The node that an object denotes. -/
def nodeOfFields (fields : Fields) : Except DecodeError Node :=
  let type := fields.text "type"
  match type with
  | "" => .error .untyped
  | "Program" => (fun body => .program ⟨some body⟩) <$> programBody fields
  | "Definition" => .statement <$> definition fields
  | "Print" => .statement <$> printing fields
  | _ =>
    match exprOfFields? type fields with
    | some expr => (fun e => .statement (.eval e)) <$> expr
    | none => .error (.unknownType type)

mutual

/-- Annotates a JSON value from the leaves up. -/
def Item.ofJson : Json → Item
  | .array items => .array (Item.ofItems items)
  | .object members =>
    let fields := Item.ofMembers members
    .object fields (nodeOfFields fields)
  | value => .atom value

/-- Annotates the items of an array. -/
def Item.ofItems : List Json → List Item
  | [] => []
  | item :: rest => Item.ofJson item :: Item.ofItems rest

/-- Annotates the members of an object. -/
def Item.ofMembers : List (String × Json) → List (String × Item)
  | [] => []
  | (name, value) :: rest => (name, Item.ofJson value) :: Item.ofMembers rest

end

/-- The program that a JSON value denotes. -/
def Program.ofJson (value : Json) : Except DecodeError Program :=
  match Item.ofJson value with
  | .array items => do
    let body ← statementEntries "Program" "body" 0 items
    pure ⟨some body⟩
  | .object _ node => do
    match ← node with
    | .program p => pure p
    | .statement (.eval (.block body)) => pure ⟨some body⟩
    | .statement s => pure ⟨some [s]⟩
    | other => .error (.unexpected "Program" "body" other.nodeName)
  | .atom value => .error (.rootShape value.shape)

/-- Reads a program from its text. -/
def Program.decode (source : String) : Except DecodeError Program :=
  match Json.read? source with
  | none => .error .malformed
  | some value => Program.ofJson value

end Smpl

import Smpl.Yaml.Implicit
import Smpl.Yaml.Layout

/-!
# Documents as trees

The tokens of a document form a tree of scalars, sequences and mappings. A node may have an anchor;
an alias stands for the node of an anchor, which may be a node around the alias. Anchored nodes are
therefore numbered, and an alias holds a number.

Only the first document of a text is read, and no more of the text than is needed for it and two
tokens beyond.
-/

namespace Smpl.Yaml

/-- A node of a document. Lines are counted from one; tags have their short form. -/
inductive Node where
  | scalar (line : Nat) (tag text : String)
  | sequence (line : Nat) (tag : String) (items : List Node)
  | mapping (line : Nat) (tag : String) (entries : List (Node × Node))
  /-- An alias for the anchored node of a number. -/
  | alias (line : Nat) (name : String) (target : Nat)
  deriving Inhabited

/-- A document: its root, its anchored nodes by their numbers, and the number of its tokens. -/
structure Document where
  root : Node
  anchored : Array Node
  size : Nat

namespace Node

/-- The line where a node starts. -/
def line : Node → Nat
  | .scalar line _ _ => line
  | .sequence line _ _ => line
  | .mapping line _ _ => line
  | .alias line _ _ => line

/-- The tag of a node; an alias has none of its own. -/
def tag : Node → String
  | .scalar _ tag _ => tag
  | .sequence _ tag _ => tag
  | .mapping _ tag _ => tag
  | .alias _ _ _ => ""

/-- An empty place, which is null. -/
def empty (line : Nat) : Node := .scalar line nullTag ""

end Node

/-- The node that a node stands for. -/
def Document.follow (d : Document) : Node → Node
  | .alias line _ target => d.anchored.getD target (.empty line)
  | n => n

/-- The state of reading a tree. -/
structure TreeState where
  position : Nat := 0
  anchors : List (String × Nat) := []
  anchored : Array Node := #[]
  handles : List (String × String) := []

/-- A step of reading a tree; it fails when the text is malformed. -/
abbrev TreeReader := StateT TreeState Option

namespace TreeReader

/-- The token at hand. Where the text is malformed further on, two tokens beyond it must be sound.
-/
def peek (ts : Tokens) : TreeReader Token := fun s =>
  let i := s.position
  if ts.complete then
    match ts.tokens[i]? with
    | some t => some (t, s)
    | none => some (⟨.streamEnd, 0⟩, s)
  else if i + 2 < ts.tokens.size then ts.tokens[i]?.map fun t => (t, s)
  else none

/-- Moves behind the token at hand. -/
def skip : TreeReader Unit := modify fun s => { s with position := s.position + 1 }

/-- The text is malformed. -/
def malformed {α : Type} : TreeReader α := fun _ => none

/-- Gives an anchored node its number. -/
def register (anchor : Option String) (node : Node) : TreeReader (Option Nat) := fun s =>
  match anchor with
  | none => some (none, s)
  | some name =>
    let number := s.anchored.size
    some (some number,
      { s with anchors := (name, number) :: s.anchors, anchored := s.anchored.push node })

/-- Puts the finished node in its place among the anchored ones. -/
def settle (number : Option Nat) (node : Node) : TreeReader Node := fun s =>
  match number with
  | none => some (node, s)
  | some n => some (node, { s with anchored := s.anchored.setIfInBounds n node })

/-- What may stand before a node. -/
structure Properties where
  anchor : Option String := none
  /-- The tag in full. -/
  tag : Option String := none
  /-- The line of the first of them. -/
  line : Option Nat := none

/-- The tag in full that a handle and a suffix give. -/
def fullTag (handle suffix : String) : TreeReader String := fun s =>
  let found := if handle = "" then some suffix else (s.handles.lookup handle).map (· ++ suffix)
  match found with
  | none => none
  | some tag => if tag = "" then none else some (tag, s)

/-- Reads an anchor and a tag, in either order. -/
def properties (ts : Tokens) : TreeReader Properties := do
  let first ← peek ts
  match first.kind with
  | .anchor name =>
    skip
    match (← peek ts).kind with
    | .tag handle suffix =>
      skip
      pure ⟨some name, some (← fullTag handle suffix), some first.line⟩
    | _ => pure ⟨some name, none, some first.line⟩
  | .tag handle suffix =>
    skip
    match (← peek ts).kind with
    | .anchor name =>
      skip
      pure ⟨some name, some (← fullTag handle suffix), some first.line⟩
    | _ => pure ⟨none, some (← fullTag handle suffix), some first.line⟩
  | _ => pure {}

/-- The tag of a node: the given one, unless it is the tag that asks for the default. -/
def Properties.tagOr (p : Properties) (default : String) : String :=
  match p.tag with
  | some tag => if tag = "!" then default else shortTag tag
  | none => default

/-- The tag of a scalar without a tag of its own. -/
def scalarTag (text : String) (plain : Bool) : String :=
  if !plain then strTag else if text = "<<" then mergeTag else implicitTag text

mutual

/-- Reads a node. Block collections only stand where `block` holds; a sequence as far to the left as
the key before it only where `indentless` holds. -/
def node (ts : Tokens) : Nat → Bool → Bool → TreeReader Node
  | 0, _, _ => malformed
  | fuel + 1, block, indentless => do
    let first ← peek ts
    match first.kind with
    | .alias name =>
      match (← get).anchors.lookup name with
      | none => malformed
      | some number =>
        skip
        pure (.alias first.line name number)
    | _ =>
      let p ← properties ts
      let t ← peek ts
      let line := p.line.getD t.line
      match t.kind with
      | .scalar text plain =>
        skip
        let n := Node.scalar line (p.tagOr (scalarTag text plain)) text
        let _ ← register p.anchor n
        pure n
      | .flowSequenceStart =>
        let number ← register p.anchor (.empty line)
        skip
        settle number (.sequence line (p.tagOr seqTag) (← flowItems ts fuel true))
      | .flowMappingStart =>
        let number ← register p.anchor (.empty line)
        skip
        settle number (.mapping line (p.tagOr mapTag) (← flowEntries ts fuel true))
      | kind =>
        if kind = .blockEntry && indentless then
          let number ← register p.anchor (.empty line)
          settle number (.sequence line (p.tagOr seqTag) (← hangingItems ts fuel))
        else if kind = .blockSequenceStart && block then
          let number ← register p.anchor (.empty line)
          skip
          settle number (.sequence line (p.tagOr seqTag) (← blockItems ts fuel))
        else if kind = .blockMappingStart && block then
          let number ← register p.anchor (.empty line)
          skip
          settle number (.mapping line (p.tagOr mapTag) (← blockEntries ts fuel))
        else if p.line.isSome then
          let n := Node.scalar line (p.tagOr nullTag) ""
          let _ ← register p.anchor n
          pure n
        else malformed

/-- Reads a node, unless a token that cannot start one is at hand. -/
def nodeUnless (ts : Tokens) :
    Nat → List TokenKind → Nat → Bool → Bool → TreeReader Node
  | 0, _, _, _, _ => malformed
  | fuel + 1, ends, line, block, indentless => do
    if (← peek ts).kind ∈ ends then pure (.empty line) else node ts fuel block indentless

/-- Reads the items of a block sequence. -/
def blockItems (ts : Tokens) : Nat → TreeReader (List Node)
  | 0 => malformed
  | fuel + 1 => do
    let t ← peek ts
    match t.kind with
    | .blockEntry =>
      skip
      let item ← nodeUnless ts fuel [.blockEntry, .blockEnd] t.line true false
      pure (item :: (← blockItems ts fuel))
    | .blockEnd =>
      skip
      pure []
    | _ => malformed

/-- Reads the items of a sequence as far to the left as the key before it. -/
def hangingItems (ts : Tokens) : Nat → TreeReader (List Node)
  | 0 => malformed
  | fuel + 1 => do
    let t ← peek ts
    match t.kind with
    | .blockEntry =>
      skip
      let item ← nodeUnless ts fuel [.blockEntry, .key, .value, .blockEnd] t.line true false
      pure (item :: (← hangingItems ts fuel))
    | _ => pure []

/-- Reads the entries of a block mapping. -/
def blockEntries (ts : Tokens) : Nat → TreeReader (List (Node × Node))
  | 0 => malformed
  | fuel + 1 => do
    let t ← peek ts
    match t.kind with
    | .key =>
      skip
      let key ← nodeUnless ts fuel [.key, .value, .blockEnd] t.line true true
      let colon ← peek ts
      let value ←
        if colon.kind = .value then do
          skip
          nodeUnless ts fuel [.key, .value, .blockEnd] colon.line true true
        else pure (.empty colon.line)
      pure ((key, value) :: (← blockEntries ts fuel))
    | .blockEnd =>
      skip
      pure []
    | _ => malformed

/-- Reads the items of a sequence in brackets. -/
def flowItems (ts : Tokens) : Nat → Bool → TreeReader (List Node)
  | 0, _ => malformed
  | fuel + 1, first => do
    if (← peek ts).kind = .flowSequenceEnd then
      skip
      pure []
    else
      if !first then
        if (← peek ts).kind = .flowEntry then skip else malformed
      let t ← peek ts
      match t.kind with
      | .flowSequenceEnd =>
        skip
        pure []
      | .key =>
        skip
        let entry ← flowPair ts fuel
        pure (.mapping t.line mapTag [entry] :: (← flowItems ts fuel false))
      | _ =>
        let item ← node ts fuel false false
        pure (item :: (← flowItems ts fuel false))

/-- Reads a single entry that stands for a mapping among the items of a sequence. -/
def flowPair (ts : Tokens) : Nat → TreeReader (Node × Node)
  | 0 => malformed
  | fuel + 1 => do
    let t ← peek ts
    let key ←
      if t.kind ∈ [.value, .flowEntry, .flowSequenceEnd] then do
        skip
        pure (.empty t.line)
      else node ts fuel false false
    let colon ← peek ts
    let value ←
      if colon.kind = .value then do
        skip
        nodeUnless ts fuel [.flowEntry, .flowSequenceEnd] colon.line false false
      else pure (.empty colon.line)
    pure (key, value)

/-- Reads the entries of a mapping in braces. -/
def flowEntries (ts : Tokens) : Nat → Bool → TreeReader (List (Node × Node))
  | 0, _ => malformed
  | fuel + 1, first => do
    if (← peek ts).kind = .flowMappingEnd then
      skip
      pure []
    else
      if !first then
        if (← peek ts).kind = .flowEntry then skip else malformed
      let t ← peek ts
      match t.kind with
      | .flowMappingEnd =>
        skip
        pure []
      | .key =>
        skip
        let key ← nodeUnless ts fuel [.value, .flowEntry, .flowMappingEnd] t.line false false
        let colon ← peek ts
        let value ←
          if colon.kind = .value then do
            skip
            nodeUnless ts fuel [.flowEntry, .flowMappingEnd] colon.line false false
          else pure (.empty colon.line)
        pure ((key, value) :: (← flowEntries ts fuel false))
      | _ =>
        let key ← node ts fuel false false
        let after ← peek ts
        pure ((key, .empty after.line) :: (← flowEntries ts fuel false))

end

/-- The handles that every document knows. -/
def defaultHandles : List (String × String) := [("!", "!"), ("!!", longTagStart)]

/-- Reads the directives before a document; `versioned` says whether a version was given. -/
def directives (ts : Tokens) : Nat → Bool → TreeReader Unit
  | 0, _ => malformed
  | fuel + 1, versioned => do
    match (← peek ts).kind with
    | .versionDirective supported =>
      if versioned || !supported then malformed
      else
        skip
        directives ts fuel true
    | .tagDirective handle start =>
      if ((← get).handles.lookup handle).isSome then malformed
      else
        modify fun s => { s with handles := (handle, start) :: s.handles }
        skip
        directives ts fuel versioned
    | _ => modify fun s => { s with handles := s.handles ++ defaultHandles }

/-- Whether a token cannot start the root of a document. -/
def startsNoRoot : TokenKind → Bool
  | .versionDirective _ => true
  | .tagDirective _ _ => true
  | .documentStart => true
  | .documentEnd => true
  | .streamEnd => true
  | _ => false

/-- Reads the root of a document, if there is a document. -/
def root (ts : Tokens) (fuel : Nat) : TreeReader (Option Node) := do
  let t ← peek ts
  if t.kind = .streamEnd then pure none
  else
    let explicit := t.kind ≠ .documentEnd && startsNoRoot t.kind
    if explicit then directives ts fuel false
    else modify fun s => { s with handles := defaultHandles }
    let n ←
      if explicit then do
        if (← peek ts).kind ≠ .documentStart then malformed
        skip
        let content ← peek ts
        if startsNoRoot content.kind then pure (.empty content.line) else node ts fuel true false
      else node ts fuel true false
    let _ ← peek ts
    pure (some n)

end TreeReader

/-- What reading a text as a document gives. -/
inductive DocumentRead where
  /-- The text holds no document. -/
  | none
  | malformed
  | document (document : Document)

/-- Reads the first document of a text. -/
def Document.ofText (text : String) : DocumentRead :=
  let ts := Tokens.ofText text
  match (TreeReader.root ts (2 * ts.tokens.size + 4)).run {} with
  | Option.none => .malformed
  | some (Option.none, _) => .none
  | some (some root, s) => .document ⟨root, s.anchored, ts.tokens.size⟩

end Smpl.Yaml

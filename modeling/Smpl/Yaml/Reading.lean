import Smpl.Text.Quoted
import Smpl.Yaml.Node

/-!
# Reading documents as records

A document is read as a value of a known type: a string, a list, or a record with named fields.
* Any scalar reads as a string by its text; null leaves a field as it is, and is dropped from a
  list.
* What does not fit is noted (`TypeFault`) and reading goes on, so that all such faults are reported
  together, in the order of the document.
* Some things stop reading at once: a scalar that does not fit its own tag, or a refusal by the
  reader of a field.
-/

namespace Smpl.Yaml

/-- Something that does not fit the type it is read as. -/
inductive TypeFault where
  /-- A node of another kind; a scalar shows its text. -/
  | mismatch (line : Nat) (tag : String) (text : Option String) (type : String)
  /-- A key that is no field. -/
  | unknownField (line : Nat) (name type : String)
  /-- A field that is given twice. -/
  | repeatedField (line : Nat) (name type : String)
  /-- A key that stands twice in a mapping. -/
  | repeatedKey (line : Nat) (key : String) (earlier : Nat)
  deriving DecidableEq, Repr

/-- The beginning of a text, of a number of bytes. A character of which only a part would remain
shows as a mark for each of its bytes. -/
def firstBytes : Nat → List Char → List Char
  | 0, _ => []
  | _, [] => []
  | n + 1, c :: rest =>
    if c.utf8Size ≤ n + 1 then c :: firstBytes (n + 1 - c.utf8Size) rest
    else List.replicate (n + 1) '\ufffd'
termination_by _ cs => cs.length

/-- The text of a scalar in a message; a long one is cut. -/
def shownText (text : String) : String :=
  if 10 < text.utf8ByteSize then String.ofList (firstBytes 7 text.toList) ++ "..." else text

/-- The message of a fault. -/
def TypeFault.message : TypeFault → String
  | .mismatch line tag text type =>
    "line " ++ toString line ++ ": cannot unmarshal " ++ tag ++
      (match text with
        | some t => " `" ++ shownText t ++ "`"
        | none => "") ++ " into " ++ type
  | .unknownField line name type =>
    "line " ++ toString line ++ ": field " ++ name ++ " not found in type " ++ type
  | .repeatedField line name type =>
    "line " ++ toString line ++ ": field " ++ name ++ " already set in type " ++ type
  | .repeatedKey line key earlier =>
    "line " ++ toString line ++ ": mapping key " ++ Text.quote key ++ " already defined at line " ++
      toString earlier

/-- Why reading stops at once; `ε` are the refusals of field readers. -/
inductive Abort (ε : Type) where
  | malformed
  | refused (reason : ε)

/-- Why a text does not read as a value. -/
inductive ReadError (ε : Type) where
  /-- The text holds no document. -/
  | noDocument
  /-- The text is no well-formed document. -/
  | malformed
  /-- Parts of the document do not fit. -/
  | types (faults : List TypeFault)
  /-- A field reader refuses a part. -/
  | refused (reason : ε)

/-- The message of an error, given the messages of refusals. -/
def ReadError.message {ε : Type} (refusal : ε → String) : ReadError ε → String
  | .noDocument => "EOF"
  | .malformed => "yaml: malformed document"
  | .types faults =>
    "yaml: unmarshal errors:" ++ String.join (faults.map fun f => "\n  " ++ f.message)
  | .refused reason => refusal reason

/-- A step of reading: it notes faults, and may stop. -/
abbrev Reading (ε : Type) := StateT (Array TypeFault) (Except (Abort ε))

variable {ε α : Type}

namespace Reading

/-- Notes a fault. -/
def note (fault : TypeFault) : Reading ε Unit := modify (·.push fault)

/-- Stops: the document is malformed. -/
def malformed : Reading ε α := throw .malformed

/-- The value read, if there are no faults. -/
def finish (m : Reading ε α) : Except (ReadError ε) α :=
  match m.run #[] with
  | .ok (a, faults) => if faults.isEmpty then .ok a else .error (.types faults.toList)
  | .error .malformed => .error .malformed
  | .error (.refused reason) => .error (.refused reason)

/-- Reads on its own: where that notes faults, they are passed on and there is no value. -/
def apart (m : Reading ε α) : Reading ε (Option α) := do
  match m.run #[] with
  | .ok (a, faults) =>
    modify (· ++ faults)
    pure (if faults.isEmpty then some a else none)
  | .error e => throw e

/-- Notes that a node does not fit a type. -/
def mismatch (n : Node) (type : String) : Reading ε Unit :=
  let text := match n with
    | .scalar _ _ text => some text
    | _ => if n.tag = seqTag || n.tag = mapTag then none else some ""
  note (.mismatch n.line n.tag text type)

/-- The contents of a scalar: nothing for null. A scalar that does not fit its tag is malformed. -/
def scalarText (tag text : String) : Reading ε (Option String) :=
  if tag = strTag then pure (some text)
  else if !fitsTag tag text then malformed
  else if tag = nullTag then pure none
  else pure (some text)

/-- What makes two keys the same: their kind, and the text of a scalar or the name of an alias. -/
def keyOf : Node → Nat × String
  | .scalar _ _ text => (0, text)
  | .sequence _ _ _ => (1, "")
  | .mapping _ _ _ => (2, "")
  | .alias _ name _ => (3, name)

/-- The faults of keys that stand twice: each later key against each equal earlier one. -/
def repeatedKeys : List (Node × Node) → List TypeFault
  | [] => []
  | (key, _) :: rest =>
    (rest.filter fun (other, _) => keyOf other = keyOf key).map (fun (other, _) =>
      TypeFault.repeatedKey other.line (keyOf other).2 key.line) ++ repeatedKeys rest

/-- Notes the keys of a mapping that stand twice; tells whether there are none. -/
def checkKeys (entries : List (Node × Node)) : Reading ε Bool := do
  let faults := repeatedKeys entries
  modify (· ++ faults.toArray)
  pure faults.isEmpty

/-- Notes that a node is no scalar or no list, whichever is asked for. -/
def refuse (n : Node) (type : String) : Reading ε Unit :=
  match n with
  | .mapping _ _ entries => do if ← checkKeys entries then mismatch n type
  | n => mismatch n type

/-- Reads a string; null and what does not fit are nothing. -/
def string (d : Document) (n : Node) : Reading ε (Option String) :=
  match d.follow n with
  | .scalar _ tag text => scalarText tag text
  | other => do
    refuse other "string"
    pure none

/-- Reads a string into a field. -/
def stringField (d : Document) (set : String → α → α) (n : Node) (a : α) : Reading ε α := do
  match ← string d n with
  | some s => pure (set s a)
  | none => pure a

/-- Reads the items of a list; items that are nothing are dropped. -/
def items (read : Node → Reading ε (Option α)) : List Node → Reading ε (List α)
  | [] => pure []
  | n :: rest => do
    match ← read n with
    | some a => pure (a :: (← items read rest))
    | none => items read rest

/-- Reads a list; null is the empty list. -/
def list (d : Document) (type : String) (read : Node → Reading ε (Option α)) (n : Node) :
    Reading ε (List α) :=
  match d.follow n with
  | .sequence _ _ nodes => items read nodes
  | .scalar line tag text => do
    match ← scalarText tag text with
    | some _ => mismatch (.scalar line tag text) type
    | none => pure ()
    pure []
  | other => do
    refuse other type
    pure []

/-- Reads a list of strings. -/
def strings (d : Document) (n : Node) : Reading ε (List String) :=
  list d "[]string" (string d) n

end Reading

/-! ## Records -/

/-- The readers of the fields of a record. Where `strict` holds, other keys are faults. -/
structure RecordType (ε α : Type) where
  name : String
  strict : Bool
  fields : List (String × (Node → α → Reading ε α))

namespace RecordType

/-- The names that a mapping and those that it merges have given so far; none outside of merging. -/
abbrev Given := Option (List String)

/-- A key that merges another mapping. -/
def isMerge : Node → Bool
  | .scalar _ tag text => text = "<<" && tag = mergeTag
  | _ => false

/-- Reads the entries of a mapping, apart from merge keys, into a record. `seen` are the fields of
this mapping so far. -/
def readEntries (r : RecordType ε α) (d : Document) :
    List String → Given → List (Node × Node) → α → Reading ε (α × Given)
  | _, given, [], a => pure (a, given)
  | seen, given, (key, value) :: rest, a => do
    if isMerge key then readEntries r d seen given rest a
    else
      match ← Reading.string d key with
      | none => readEntries r d seen given rest a
      | some name =>
        if given.any (·.contains name) then readEntries r d seen given rest a
        else
          let given := given.map (name :: ·)
          match r.fields.lookup name with
          | some read =>
            if seen.contains name then
              Reading.note (.repeatedField key.line name r.name)
              readEntries r d seen given rest a
            else
              readEntries r d (name :: seen) given rest (← read value a)
          | none =>
            if r.strict then Reading.note (.unknownField key.line name r.name)
            readEntries r d seen given rest a

/-- The names of the keys of a mapping, apart from merge keys. -/
def keyNames (d : Document) (entries : List (Node × Node)) : List String :=
  entries.filterMap fun (key, _) =>
    if isMerge key then none
    else
      match d.follow key with
      | .scalar _ _ text => some text
      | _ => none

/-- The nodes that a merge key gives: the items of a sequence, or a single one. -/
def mergedNodes : Node → List Node
  | .sequence _ _ nodes => nodes
  | n => [n]

/-- Reads a mapping into a record, and after it the mappings that it merges: a name that is given
already is skipped there. To merge anything but a mapping is malformed. -/
def readMapping (r : RecordType ε α) (d : Document) :
    Nat → Given → List (Node × Node) → α → Reading ε (α × Given)
  | 0, _, _, _ => Reading.malformed
  | fuel + 1, given, entries, a => do
    if !(← Reading.checkKeys entries) then pure (a, given)
    else
      let (a, given) ← readEntries r d [] given entries a
      match (entries.filter fun e => isMerge e.1).getLast? with
      | none => pure (a, given)
      | some (_, source) =>
        let start := some (given.getD (keyNames d entries))
        let (a, after) ← (mergedNodes source).foldlM (fun (state : α × Given) m =>
          match d.follow m with
          | .mapping _ _ entries => readMapping r d fuel state.2 entries state.1
          | _ => Reading.malformed) (a, start)
        pure (a, if given.isSome then after else none)

/-- Reads a node into a record; null leaves the record as it is, and is nothing. -/
def read (r : RecordType ε α) (d : Document) (n : Node) (a : α) : Reading ε (Option α) :=
  match d.follow n with
  | .mapping _ _ entries => do pure (some (← r.readMapping d (d.size + 1) none entries a).1)
  | .scalar line tag text => do
    match ← Reading.scalarText tag text with
    | some _ => Reading.mismatch (.scalar line tag text) r.name
    | none => pure ()
    pure none
  | other => do
    Reading.mismatch other r.name
    pure none

/-- Reads a text as a record; `start` holds what the text leaves out. -/
def readText (r : Document → RecordType ε α) (text : String) (start : α) :
    Except (ReadError ε) α :=
  match Document.ofText text with
  | .none => .error .noDocument
  | .malformed => .error .malformed
  | .document d => (do pure ((← (r d).read d d.root start).getD start)).finish

end RecordType

end Smpl.Yaml

/-!
# Tokens

A document is read as a sequence of tokens. Indentation shows as tokens of its own: the start of a
block sequence or mapping where the indentation grows, and an end where it shrinks.
-/

namespace Smpl.Yaml

/-- What a token is. -/
inductive TokenKind where
  | streamEnd
  /-- A version directive, with whether the version is one that is read. -/
  | versionDirective (supported : Bool)
  /-- A directive that lets a handle stand for the beginning of tags. -/
  | tagDirective (handle start : String)
  | documentStart
  | documentEnd
  | blockSequenceStart
  | blockMappingStart
  | blockEnd
  | flowSequenceStart
  | flowSequenceEnd
  | flowMappingStart
  | flowMappingEnd
  /-- The hyphen before an item. -/
  | blockEntry
  /-- The comma between items. -/
  | flowEntry
  /-- The start of a key; in most cases nothing in the text shows it. -/
  | key
  /-- The colon before a value. -/
  | value
  | alias (name : String)
  | anchor (name : String)
  /-- A tag by its handle and the rest of its name. -/
  | tag (handle suffix : String)
  /-- A scalar, with whether it is plain. -/
  | scalar (text : String) (plain : Bool)
  deriving DecidableEq, Repr, Inhabited

/-- A token and the line where it starts, counted from one. -/
structure Token where
  kind : TokenKind
  line : Nat
  deriving DecidableEq, Repr, Inhabited

end Smpl.Yaml

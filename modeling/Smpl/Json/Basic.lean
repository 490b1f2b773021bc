import Smpl.Text.Quoted

/-!
# JSON values

A number keeps its text, because `1` and `1.0` are different literals. An object keeps every member
in its order; `field?` answers with the last member of a name.
-/

namespace Smpl

/-- A JSON value. -/
inductive Json where
  | null
  | bool (value : Bool)
  | number (text : String)
  | string (value : String)
  | array (items : List Json)
  | object (members : List (String × Json))
  deriving Inhabited

namespace Json

mutual

/-- Whether two values are the same. -/
def same : Json → Json → Bool
  | .null, .null => true
  | .bool b, .bool b' => b = b'
  | .number t, .number t' => t = t'
  | .string s, .string s' => s = s'
  | .array items, .array items' => sameItems items items'
  | .object members, .object members' => sameMembers members members'
  | _, _ => false

/-- Whether two arrays have the same items. -/
def sameItems : List Json → List Json → Bool
  | [], [] => true
  | item :: rest, item' :: rest' => item.same item' && sameItems rest rest'
  | _, _ => false

/-- Whether two objects have the same members. -/
def sameMembers : List (String × Json) → List (String × Json) → Bool
  | [], [] => true
  | (name, value) :: rest, (name', value') :: rest' =>
    name = name' && value.same value' && sameMembers rest rest'
  | _, _ => false

end

mutual

theorem same_iff (j j' : Json) : j.same j' = true ↔ j = j' := by
  cases j with
  | array items => cases j' <;> simp [same, sameItems_iff items]
  | object members => cases j' <;> simp [same, sameMembers_iff members]
  | _ => cases j' <;> simp [same]

theorem sameItems_iff (items items' : List Json) :
    sameItems items items' = true ↔ items = items' := by
  match items, items' with
  | [], [] | [], _ :: _ | _ :: _, [] => simp [sameItems]
  | item :: rest, item' :: rest' =>
    simp [sameItems, same_iff item item', sameItems_iff rest rest']

theorem sameMembers_iff (members members' : List (String × Json)) :
    sameMembers members members' = true ↔ members = members' := by
  match members, members' with
  | [], [] | [], _ :: _ | _ :: _, [] => simp [sameMembers]
  | (name, value) :: rest, (name', value') :: rest' =>
    simp [sameMembers, same_iff value value', sameMembers_iff rest rest']

end

instance : DecidableEq Json := fun j j' => decidable_of_iff _ (same_iff j j')

/-- The last entry of an association list under a name. -/
def lastOf? {α : Type} (name : String) : List (String × α) → Option α
  | [] => none
  | (key, value) :: rest =>
    match lastOf? name rest with
    | some later => some later
    | none => if key = name then some value else none

/-- The member of an object under a name; of several the last. -/
def field? (name : String) : Json → Option Json
  | .object members => lastOf? name members
  | _ => none

/-- How one character stands in a JSON string. -/
def escapeChar (c : Char) : List Char :=
  if c = '"' ∨ c = '\\' then ['\\', c]
  else if c.toNat < 0x20 then '\\' :: 'u' :: Text.hexDigits 4 c.toNat
  else [c]

/-- A string as JSON text. -/
def stringText (s : String) : String :=
  String.ofList ('"' :: s.toList.flatMap escapeChar ++ ['"'])

mutual

/-- A value as JSON text, without blanks. -/
def text : Json → String
  | .null => "null"
  | .bool b => if b then "true" else "false"
  | .number t => t
  | .string s => stringText s
  | .array items => "[" ++ ",".intercalate (itemTexts items) ++ "]"
  | .object members => "\x7b" ++ ",".intercalate (memberTexts members) ++ "\x7d"

/-- The texts of the items of an array. -/
def itemTexts : List Json → List String
  | [] => []
  | item :: rest => item.text :: itemTexts rest

/-- The texts of the members of an object. -/
def memberTexts : List (String × Json) → List String
  | [] => []
  | (name, value) :: rest => (stringText name ++ ":" ++ value.text) :: memberTexts rest

end

end Json

end Smpl

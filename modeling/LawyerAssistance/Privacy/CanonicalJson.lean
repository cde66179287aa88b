import LawyerAssistance.Std.Bytes
import LawyerAssistance.Std.Fallible
import LawyerAssistance.Std.Json
import LawyerAssistance.Std.Text
import Mathlib.Data.Char
import Mathlib.Data.List.Lex
import Mathlib.Data.List.Sort

/-!
# Canonical JSON

`canonical-json-v1`: values with sorted names and integers only, and the strict reader in front of
every typed record. Refusals of the reader are not told apart.
-/

namespace LawyerAssistance.Privacy

/-- Texts of the crate. -/
abbrev Text := List Char

theorem lawfulBEq_text : LawfulBEq Text := inferInstance

/-! ## Values -/

/-- `serde_json::Number`. -/
inductive Number where
  | integer (value : Int) (fits : Json.Fits64 value)
  | float

/-- `serde_json::Value`, and what is serialized into one. -/
inductive Value where
  | null
  | bool (value : Bool)
  | number (value : Number)
  | string (value : Text)
  | array (values : List Value)
  | object (members : List (Text × Value))

/-- `Map::insert`, of a map which is sorted by its keys. -/
def insertMember (key : Text) (value : Value) : List (Text × Value) → List (Text × Value)
  | [] => [(key, value)]
  | first :: rest =>
      if key < first.1 then (key, value) :: first :: rest
      else if key = first.1 then (key, value) :: rest
      else first :: insertMember key value rest

/-- A map with members which are inserted one after another. -/
def collectMembers (members : List (Text × Value)) : List (Text × Value) :=
  members.foldl (fun map member => insertMember member.1 member.2 map) []

mutual

/-- `serde_json::to_value`: objects become maps. -/
def toValue : Value → Value
  | .null => .null
  | .bool value => .bool value
  | .number value => .number value
  | .string value => .string value
  | .array values => .array (toValues values)
  | .object members => .object (collectMembers (toMembers members))

/-- The elements of an array. -/
def toValues : List Value → List Value
  | [] => []
  | value :: rest => toValue value :: toValues rest

/-- The members of an object. -/
def toMembers : List (Text × Value) → List (Text × Value)
  | [] => []
  | (key, value) :: rest => (key, toValue value) :: toMembers rest

end

/-! ## Writing -/

/-- `VNextSchemaError`, as what writes and validates returns it. -/
inductive VNextSchemaError where
  | floatingPointNotAllowed
  | controlCharacterNotAllowed
  | invalidSchema
  | invalidRiskEvaluation
  deriving DecidableEq

/-- `reject_control_chars`. -/
def rejectControlChars (value : Text) : Except VNextSchemaError Unit :=
  refuseIf (value.any Text.isControl = true) .controlCharacterNotAllowed

/-- The texts of the elements of an array, with commas. -/
def joinElements : List (Except VNextSchemaError Text) → Except VNextSchemaError Text
  | [] => pure []
  | [last] => last
  | first :: rest => do
      let text ← first
      let others ← joinElements rest
      pure (text ++ ',' :: others)

/-- The texts of the members of an object, with commas. -/
def joinMembers : List (Text × Except VNextSchemaError Text) → Except VNextSchemaError Text
  | [] => pure []
  | [(key, last)] => do
      rejectControlChars key
      let text ← last
      pure (Json.quote key ++ ':' :: text)
  | (key, first) :: rest => do
      rejectControlChars key
      let text ← first
      let others ← joinMembers rest
      pure (Json.quote key ++ ':' :: (text ++ ',' :: others))

mutual

/-- `write_canonical`. -/
def writeCanonical : Value → Except VNextSchemaError Text
  | .null => pure "null".toList
  | .bool value => pure (if value then "true".toList else "false".toList)
  | .number (.integer value _) => pure (Json.decimal value)
  | .number .float => .error .floatingPointNotAllowed
  | .string value => do
      rejectControlChars value
      pure (Json.quote value)
  | .array values => do
      let texts ← joinElements (writeElements values)
      pure ('[' :: (texts ++ [']']))
  | .object members => do
      let texts ← joinMembers ((writeMembers members).insertionSort fun first second =>
        first.1 ≤ second.1)
      pure ('{' :: (texts ++ ['}']))

/-- The elements of an array. -/
def writeElements : List Value → List (Except VNextSchemaError Text)
  | [] => []
  | value :: rest => writeCanonical value :: writeElements rest

/-- The members of an object, each with its key. -/
def writeMembers : List (Text × Value) → List (Text × Except VNextSchemaError Text)
  | [] => []
  | (key, value) :: rest => (key, writeCanonical value) :: writeMembers rest

end

/-- `canonical_json_v1`. -/
def canonicalJsonV1 (value : Value) : Except VNextSchemaError Octets := do
  let output ← writeCanonical (toValue value)
  pure (utf8 (String.ofList output))

/-! ## Reading -/

mutual

/-- `StrictValueVisitor`. -/
def visit : Json.Tree → Option Value
  | .null => some .null
  | .bool value => some (.bool value)
  | .integer value => if fits : Json.Fits64 value then some (.number (.integer value fits)) else none
  | .float => none
  | .string value => if value.any Text.isControl then none else some (.string value)
  | .array elements => (visitSeq elements).map .array
  | .object members => (visitMap members []).map fun members => .object (collectMembers members)

/-- `visit_seq`. -/
def visitSeq : List Json.Tree → Option (List Value)
  | [] => some []
  | element :: rest => do
      let value ← visit element
      let values ← visitSeq rest
      some (value :: values)

/-- `visit_map`, with the keys which were seen. -/
def visitMap : List (Text × Json.Tree) → List Text → Option (List (Text × Value))
  | [], _ => some []
  | (key, member) :: rest, keys =>
      if key.any Text.isControl then none
      else if keys.contains key then none
      else do
        let value ← visit member
        let members ← visitMap rest (key :: keys)
        some ((key, value) :: members)

end

/-- The nesting which the reader of JSON admits: its bound of 128 is refused. -/
def maxDepth : Nat := 127

/-- `strict_json_v1_from_slice`, of a value, with a bound on the nesting. -/
def strictValue (depth : Nat) (bytes : Octets) : Option Value := do
  let text ← String.fromUTF8? ⟨bytes.toArray⟩
  let tree ← Json.read depth text.toList
  visit tree

/-- `strict_json_v1_from_slice`, of a value. -/
def strictJsonV1FromSlice (bytes : Octets) : Option Value := strictValue maxDepth bytes

end LawyerAssistance.Privacy

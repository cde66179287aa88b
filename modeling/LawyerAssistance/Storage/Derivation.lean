import Mathlib.Data.List.Dedup
import Mathlib.Data.List.Sort
import LawyerAssistance.Storage.Envelope

/-!
# What the store derives from a body

The index row, the relations and the summary of an object are computed from its JSON
value. `indexForValue`, `relationsForValue` and `summaryForValue` are the only derivations:
the online writer and the migration both use them.
-/

namespace LawyerAssistance.Storage

/-! ## JSON values -/

/-- A JSON number: `as_u64` reads the natural ones only. -/
inductive JsonNumber where
  | natural (value : Nat)
  | other (text : String)
deriving DecidableEq, Repr

/-- `serde_json::Value`. -/
inductive Json where
  | null
  | bool (value : Bool)
  | number (value : JsonNumber)
  | string (value : String)
  | array (items : List Json)
  | object (fields : List (String × Json))

namespace Json

/-- `Value::get` with a field name. -/
def get? (value : Json) (field : String) : Option Json :=
  match value with
  | .object fields => fields.lookup field
  | _ => none

/-- `value[field]`: a missing field is null. -/
def field (value : Json) (name : String) : Json := (value.get? name).getD .null

/-- `Value::as_str`. -/
def asStr : Json → Option String
  | .string value => some value
  | _ => none

/-- `Value::as_u64`. -/
def asU64 : Json → Option Nat
  | .number (.natural value) => some value
  | _ => none

/-- `Value::as_array`. -/
def asArray : Json → Option (List Json)
  | .array items => some items
  | _ => none

/-- `Value::is_object`. -/
def isObject : Json → Bool
  | .object _ => true
  | _ => false

/-- An optional text as JSON. -/
def ofOption : Option String → Json
  | none => .null
  | some text => .string text

/-- A number as JSON. -/
def ofNat (value : Nat) : Json := .number (.natural value)

/-- An optional number as JSON. -/
def ofOptionNat : Option Nat → Json
  | none => .null
  | some value => ofNat value

end Json

/-- The escape of a character in a JSON text. -/
def escape : Char → String
  | '"' => "\\\""
  | '\\' => "\\\\"
  | '\x08' => "\\b"
  | '\t' => "\\t"
  | '\n' => "\\n"
  | '\x0c' => "\\f"
  | '\r' => "\\r"
  | character =>
      if character.toNat < 0x20 then
        "\\u00" ++ (if character.toNat < 0x10 then "0" else "1") ++
          String.singleton (Nat.digitChar (character.toNat % 16))
      else String.singleton character

/-- A text between quotes. -/
def quoted (text : String) : String := "\"" ++ String.join (text.toList.map escape) ++ "\""

mutual

/-- The text which `serde_json` writes for a value: no blanks, and the fields in order. -/
def Json.print : Json → String
  | .null => "null"
  | .bool value => if value then "true" else "false"
  | .number (.natural value) => toString value
  | .number (.other text) => text
  | .string value => quoted value
  | .array items => "[" ++ ",".intercalate (printItems items) ++ "]"
  | .object fields =>
      let members := (printFields fields).insertionSort fun first second => first.1 ≤ second.1
      "\x7b" ++ ",".intercalate (members.map fun member => quoted member.1 ++ ":" ++ member.2) ++
        "\x7d"

/-- The texts of the items of an array. -/
def printItems : List Json → List String
  | [] => []
  | item :: rest => item.print :: printItems rest

/-- The names of the fields of an object with the texts of their values. -/
def printFields : List (String × Json) → List (String × String)
  | [] => []
  | (name, value) :: rest => (name, value.print) :: printFields rest

end

/-- `serde_json::from_slice` and `serde_json::to_vec` for one type. -/
structure Codec (α : Type) where
  fromSlice : Octets → Option α
  toVec : α → Option Octets

/-! ## The cleartext index -/

/-- The scheduling and relationship fields of an object. -/
structure ObjectIndex where
  status : Option String
  subkind : Option String
  createdAt : Nat
  updatedAt : Nat
  groupId : Option String
  taskId : Option String
  conversationId : Option String
  parentId : Option String
  materialId : Option String
  resultId : Option String
  revision : Option Nat
deriving DecidableEq, Repr

/-- The times which `now` returns where a body has none. -/
structure Clock where
  created : Nat
  updated : Nat
deriving DecidableEq, Repr

/-- A nonempty text field. -/
def fieldString (value : Json) (field : String) : Option String :=
  ((value.get? field).bind Json.asStr).filter fun text => text ≠ ""

/-- A natural number field. -/
def fieldU64 (value : Json) (field : String) : Option Nat := (value.get? field).bind Json.asU64

/-- The index row of a JSON object. -/
def indexForValue (value : Json) (clock : Clock) : ObjectIndex :=
  let request := (value.get? "request").getD .null
  { status := fieldString value "status"
    subkind := fieldString value "kind"
    createdAt := (fieldU64 value "created_at").getD clock.created
    updatedAt := (fieldU64 value "updated_at").getD clock.updated
    groupId := fieldString value "group_id"
    taskId := fieldString value "task_id"
    conversationId := (fieldString value "conversation_id").or
      (fieldString request "conversation_id")
    parentId := (fieldString value "parent_id").or (fieldString request "parent_id")
    materialId := fieldString value "material_id"
    resultId := fieldString value "result_id"
    revision := (fieldU64 value "revision").or (fieldU64 value "dictionary_revision") }

/-- The index row of raw bytes. -/
def rawIndex (clock : Clock) : ObjectIndex :=
  ⟨none, none, clock.created, clock.updated, none, none, none, none, none, none, none⟩

/-! ## Relations -/

/-- A relation to another object: its kind, and the identifier of the other object. -/
abbrev Relation := String × String

/-- The relation which one element of an array field states. -/
def relationPair (relationKind : String) : Json → Option Relation
  | .string id => if id ≠ "" then some (relationKind, id) else none
  | .object fields =>
      (fieldString (.object fields) "id").map fun id =>
        let source := (fieldString (.object fields) "source").getD ""
        (if source = "" then relationKind else relationKind ++ "_" ++ source, id)
  | _ => none

/-- The relations which an array field states. -/
def relationPairs (value : Json) (relationKind field : String) : List Relation :=
  (((value.get? field).bind Json.asArray).getD []).filterMap (relationPair relationKind)

/-- The relation which a text field states. -/
def relationField (value : Json) (named : String × String) : Option Relation :=
  (fieldString value named.2).map fun id => (named.1, id)

/-- The order of `BTreeSet<(String, String)>`. -/
def Relation.le (first second : Relation) : Bool :=
  first.1 < second.1 || (first.1 == second.1 && first.2 ≤ second.2)

/-- Every relation once, in order: the iteration of a `BTreeSet`. -/
def relationSet (relations : List Relation) : List Relation :=
  relations.dedup.insertionSort fun first second => Relation.le first second

/-- The relations of a JSON object. A run of the assistant has those of its request as well. -/
def relationsForValue (kind : String) (value : Json) : List Relation :=
  let request := (value.get? "request").getD .null
  relationSet <|
    [("group", "group_id"), ("task", "task_id"), ("conversation", "conversation_id"),
      ("parent", "parent_id"), ("material", "material_id"),
      ("result", "result_id")].filterMap (relationField value) ++
    relationPairs value "material" "material_ids" ++
    relationPairs value "material" "materials" ++
    relationPairs value "attachment" "attachment_ids" ++
    if kind = "ai_run" then
      [("conversation", "conversation_id"), ("parent", "parent_id")].filterMap
        (relationField request) ++
      relationPairs request "material" "materials" ++
      relationPairs request "attachment" "attachment_ids"
    else []

/-! ## Summaries -/

/-- The summary of a JSON object. -/
def summaryForValue (kind id : String) (value : Json) (index : ObjectIndex) : Json :=
  match kind with
  | "material" => .object
      [("id", .string id), ("name", value.field "name"), ("group_id", .ofOption index.groupId),
        ("task_id", .ofOption index.taskId), ("status", .ofOption index.status),
        ("result_id", .ofOption index.resultId), ("reason_code", value.field "reason_code"),
        ("revision", .ofOptionNat index.revision), ("source_sha256", value.field "source_sha256"),
        ("source_byte_len", value.field "source_byte_len"),
        ("source_format", value.field "source_format"),
        ("has_analysis", .bool (value.field "analysis").isObject)]
  | "ai_run" => .object
      [("id", .string id), ("kind", .ofOption index.subkind), ("status", .ofOption index.status),
        ("stage", value.field "stage"), ("title", value.field "title"),
        ("error_code", value.field "error_code"), ("created_at", .ofNat index.createdAt),
        ("updated_at", .ofNat index.updatedAt), ("provider_id", value.field "provider_id"),
        ("model", value.field "model"), ("conversation_id", .ofOption index.conversationId),
        ("parent_id", .ofOption index.parentId),
        ("context_revision", (value.field "request").field "context_revision"),
        ("revision", .ofOptionNat index.revision),
        ("document_id",
          if (value.field "kind").asStr = some "writing" then
            .string ((((value.field "document_id").asStr).filter fun text => text ≠ "").getD id)
          else .null)]
  | "ai_conversation" | "conversation" => .object
      [("id", .string id), ("title", value.field "title"), ("updated_at", .ofNat index.updatedAt),
        ("context_revision", value.field "context_revision"),
        ("context_known", value.field "context_known"), ("materials", value.field "materials"),
        ("attachment_ids", value.field "attachment_ids"),
        ("context_ranges", value.field "context_ranges")]
  | "ai_attachment" => .object
      [("id", .string id), ("sha256", value.field "sha256"),
        ("source_byte_len", value.field "source_byte_len"), ("format", value.field "format"),
        ("created_at", .ofNat index.createdAt)]
  | "result" => .object
      [("id", .string id), ("material_id", .ofOption index.materialId),
        ("revision", .ofOptionNat index.revision), ("output_sha256", value.field "output_sha256"),
        ("text_byte_len", value.field "text_byte_len"), ("revoked", value.field "revoked")]
  | "group" => .object
      [("id", .string id), ("name", value.field "name"),
        ("dictionary_revision", value.field "dictionary_revision")]
  | "task" => .object
      [("id", .string id), ("group_id", .ofOption index.groupId),
        ("created_at", .ofNat index.createdAt), ("material_ids", value.field "material_ids")]
  | "ai_stage" => .object
      [("material_id", value.field "material_id"), ("revision", .ofOptionNat index.revision),
        ("source_sha256", value.field "source_sha256"), ("stage", value.field "stage"),
        ("updated_at", .ofNat index.updatedAt), ("error_code", value.field "error_code")]
  | _ => .object
      [("id", .string id), ("status", .ofOption index.status),
        ("created_at", .ofNat index.createdAt), ("updated_at", .ofNat index.updatedAt),
        ("revision", .ofOptionNat index.revision)]

/-! ## Rows -/

/-- The kinds whose bodies are raw bytes. -/
def isRawKind (kind : String) : Bool := kind == "source" || kind == "ai_attachment_source"

/-- The kind and the identifier of an object. -/
abbrev Key := String × String

/-- One object with everything which is stored beside it. -/
structure StoredRow where
  key : Key
  body : Octets
  index : ObjectIndex
  summary : Option Octets
  relations : List Relation

section Encoding

variable (serde : Codec Json) (dpapi : Dpapi)

/-- The salts of the two envelopes of a row. -/
structure RowSalts (dpapi : Dpapi) where
  body : Nat → dpapi.Salt
  summary : Nat → dpapi.Salt

/-- `serde_json::to_vec` for a value. -/
def toVec (value : Json) : Except String Octets := presentOr (serde.toVec value) "invalid_data"

/-- The row of a JSON value whose body is stored as `body`. -/
def valueRow (salts : RowSalts dpapi) (clock : Clock) (key : Key) (body : Octets) (value : Json) :
    Except String StoredRow := do
  let index := indexForValue value clock
  let text ← toVec serde (summaryForValue key.1 key.2 value index)
  let summary ← sealBody dpapi salts.summary (summaryKind key.1) key.2 text
  pure ⟨key, body, index, some summary, relationsForValue key.1 value⟩

/-- `Store::encoded`. The bytes are those which `serde_json` writes for the value of the caller. -/
def encoded (salts : RowSalts dpapi) (clock : Clock) (key : Key) (data : Octets) :
    Except String StoredRow := do
  let value ← presentOr (serde.fromSlice data) "invalid_data"
  let body ← sealBody dpapi salts.body key.1 key.2 data
  valueRow serde dpapi salts clock key body value

/-- `Store::encoded_raw`. -/
def encodedRaw (salts : RowSalts dpapi) (clock : Clock) (key : Key) (value : Octets) :
    Except String StoredRow := do
  let body ← sealBody dpapi salts.body key.1 key.2 value
  pure ⟨key, body, rawIndex clock, none, []⟩

end Encoding

end LawyerAssistance.Storage

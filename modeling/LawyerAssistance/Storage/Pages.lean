import Mathlib.Data.List.TakeDrop
import Mathlib.Data.Prod.Lex
import Mathlib.Data.String.Basic
import LawyerAssistance.Std.Keyset
import LawyerAssistance.Storage.Operations

/-!
# Pages of the index

`summary_page` lists the summaries of a kind, and `draft_conflicts_page` the conflict
copies of one writing document, newest first. A cursor encodes the sort key of the last
row of a page.
-/

namespace LawyerAssistance.Storage

open Keyset

/-! ## Cursors -/

/-- Base64 with the URL alphabet and without padding. -/
structure Base64 where
  encode : Octets → String
  decode : String → Option Octets

/-- What is encoded is decoded. -/
def Base64.Lawful (base64 : Base64) : Prop := ∀ bytes, base64.decode (base64.encode bytes) = some bytes

/-- `String::from_utf8`. -/
def fromUtf8 (bytes : Octets) : Option String := String.fromUTF8? ⟨bytes.toArray⟩

/-- `str::split_once`: what precedes and what follows the first separator. -/
def splitOnce (separator : Char) (text : String) : Option (String × String) :=
  match text.toList.span fun character => character ≠ separator with
  | (_, []) => none
  | (before, _ :: after) => some (String.ofList before, String.ofList after)

/-- The digits of a number, which may stand behind a plus sign. -/
def unsigned : List Char → List Char
  | '+' :: rest => rest
  | all => all

/-- `str::parse::<u64>`. -/
def parseU64 (text : String) : Option Nat :=
  let digits := unsigned text.toList
  if digits ≠ [] ∧ digits.all Char.isDigit then
    let value := Nat.ofDigitChars 10 digits 0
    if value < 2 ^ 64 then some value else none
  else none

section Cursor

variable (base64 : Base64)

/-- `encode_cursor`. -/
def encodeCursor (updatedAt : Nat) (id : String) : String :=
  base64.encode (utf8 (toString updatedAt ++ ":" ++ id))

/-- `decode_cursor`. -/
def decodeCursor (cursor : String) : Except String (Nat × String) := do
  let decoded ← presentOr (base64.decode cursor) "invalid_pagination"
  let decoded ← presentOr (fromUtf8 decoded) "invalid_pagination"
  let (updatedAt, id) ← presentOr (splitOnce ':' decoded) "invalid_pagination"
  refuseIf (id = "" ∨ 200 < (utf8 id).length) "invalid_pagination"
  let updatedAt ← presentOr (parseU64 updatedAt) "invalid_pagination"
  pure (updatedAt, id)

/-- `cursor.map(decode_cursor).transpose()`. -/
def decodeCursors : Option String → Except String (Option (Nat × String))
  | none => .ok none
  | some cursor => (decodeCursor base64 cursor).map some

end Cursor

/-- A `u64` as a SQLite integer. -/
def asI64 (value : Nat) : Int := if value < 2 ^ 63 then value else value - 2 ^ 64

/-- `i.updated_at < ? OR (i.updated_at = ? AND i.id < ?)`. -/
def afterCursor (cursor : Option (Nat × String)) (updatedAt : Nat) (id : String) : Bool :=
  match cursor with
  | none => true
  | some (boundary, last) =>
      (updatedAt : Int) < asI64 boundary || ((updatedAt : Int) == asI64 boundary && id < last)

/-! ## The pages -/

/-- One page of a list. -/
structure SummaryPage where
  items : List Json
  nextCursor : Option String
  total : Nat
  corruptCount : Nat

/-- An index row with its key. -/
abbrev IndexRow := Key × ObjectIndex

/-- The sort key of the lists. -/
def sortKey (row : IndexRow) : Nat ×ₗ String := toLex (row.2.updatedAt, row.1.2)

/-- The index rows which a condition selects, `ORDER BY updated_at DESC, id DESC`. -/
def newestFirst (database : Database) (condition : IndexRow → Bool) : List IndexRow :=
  ((database.objectIndex.entries.map fun row => (row.1, row.2)).filter condition).insertionSort
    fun first second => sortKey second ≤ sortKey first

/-- `index_filter_sql`. -/
structure IndexFilter where
  kind : String
  subkind : Option String
  groupId : Option String

/-- Whether a row satisfies the filter. -/
def IndexFilter.selects (filter : IndexFilter) (row : IndexRow) : Bool :=
  row.1.1 == filter.kind &&
    filter.subkind.all (fun subkind => row.2.subkind == some subkind) &&
    filter.groupId.all fun groupId => row.2.groupId == some groupId

/-- Limits are from 1 to 100. -/
def checkLimit (limit : Nat) : Except String Unit :=
  refuseIf (limit < 1 ∨ 100 < limit) "invalid_pagination"

/-- The cursor behind the rows which a page shows, when it read more. -/
def nextCursor (base64 : Base64) (read : List IndexRow) (limit : Nat) : Option String :=
  if limit < read.length then
    (read.take limit).getLast?.map fun row => encodeCursor base64 row.2.updatedAt row.1.2
  else none

section SummaryPage

variable (host : Host) (base64 : Base64)

/-- The rows which a page of summaries reads, each with the stored summary. -/
def readSummaries (database : Database) (filter : IndexFilter) (cursor : Option (Nat × String))
    (limit : Nat) : List (IndexRow × Octets) :=
  (((newestFirst database filter.selects).filterMap fun row =>
    (database.objectSummaries.lookup row.1).map fun body => (row, body)).filter fun row =>
      afterCursor cursor row.1.2.updatedAt row.1.1.2).take (limit + 1)

/-- Open the summaries of a page in order. The error names the first damaged row. -/
def openSummaries : List (IndexRow × Octets) → Except (Key × String) (List Json)
  | [] => .ok []
  | (row, body) :: rest =>
      match openAs host.serde host.dpapi (summaryKind row.1.1) row.1.2 body with
      | .error code => .error (row.1, code)
      | .ok value =>
          match openSummaries rest with
          | .error damaged => .error damaged
          | .ok values => .ok (value :: values)

/-- A row of the list without a summary. -/
def missingSummary (database : Database) (filter : IndexFilter) : Option Key :=
  ((newestFirst database filter.selects).find? fun row =>
    (database.objectSummaries.lookup row.1).isNone).map Prod.fst

/-- Quarantine an object, and refuse. -/
def quarantineAndRefuse {α : Type} (key : Key) (code : String) (now accepted : Nat)
    (database : Database) : Except String α × Database :=
  match quarantine key code now accepted database with
  | (.error error, tables) => (.error error, tables)
  | (.ok _, tables) => (.error "storage_object_corrupt", tables)

/-- `Store::summary_page`. -/
def summaryPage (filter : IndexFilter) (cursor : Option String) (limit now accepted : Nat)
    (database : Database) : Except String SummaryPage × Database :=
  match (do checkLimit limit; decodeCursors base64 cursor) with
  | .error error => (.error error, database)
  | .ok cursor =>
      match missingSummary database filter with
      | some key => quarantineAndRefuse key "summary_missing" now accepted database
      | none =>
          let read := readSummaries database filter cursor limit
          match openSummaries host (read.take limit) with
          | .error (key, code) => quarantineAndRefuse key code now accepted database
          | .ok items =>
              (.ok
                { items
                  nextCursor := nextCursor base64 (read.map Prod.fst) limit
                  total := (newestFirst database filter.selects).length
                  corruptCount := (database.corruptObjects.keys.filter fun key =>
                    key.1 = filter.kind).length },
                database)

end SummaryPage

/-! ## Conflict copies of a writing document -/

/-- `u8::is_ascii_alphanumeric`, or one of `-` and `_`. -/
def documentCharacter (character : Char) : Bool :=
  character.isAlphanum || character == '-' || character == '_'

/-- `valid_writing_draft_base`. -/
def validWritingDraftBase (baseId : String) : Bool :=
  baseId == "writing-current" ||
    match "writing-".toList.isPrefixOf? baseId.toList with
    | none => false
    | some documentId =>
        !documentId.isEmpty && (utf8 baseId).length ≤ 44 && documentId.all documentCharacter

/-- A digit of a lower case hexadecimal number. -/
def hexDigit (character : Char) : Bool :=
  character.isDigit || ('a' ≤ character && character ≤ 'f')

/-- `valid_draft_conflict_id`. -/
def validDraftConflictId (front id : String) : Bool :=
  (utf8 id).length == (utf8 front).length + 32 &&
    match front.toList.isPrefixOf? id.toList with
    | none => false
    | some suffix => suffix.all hexDigit

/-- The conflict copies of one document: their identifiers are between the front and its upper
bound, of the length of a candidate, and have hexadecimal digits at the end. -/
def conflictCandidate (baseId : String) (key : Key) : Bool :=
  key.1 == "ai_draft" && decide (baseId ++ "-c-" ≤ key.2) && decide (key.2 < baseId ++ "-c.") &&
    key.2.length == (utf8 (baseId ++ "-c-")).length + 32 &&
    (key.2.toList.drop (utf8 (baseId ++ "-c-")).length).all hexDigit

/-- One item of the page. -/
def conflictItem (row : IndexRow) : Json :=
  .object [("id", .string row.1.2), ("revision", .ofOptionNat row.2.revision),
    ("updated_at", .ofNat row.2.updatedAt)]

/-- A cursor of another document is refused. -/
def checkConflictCursor (baseId : String) : Option (Nat × String) → Except String Unit
  | none => .ok ()
  | some (updatedAt, id) =>
      refuseIf (validDraftConflictId (baseId ++ "-c-") id = false ∨ I64_MAX < updatedAt)
        "invalid_pagination"

/-- `Store::draft_conflicts_page`. -/
def draftConflictsPage (base64 : Base64) (baseId : String) (cursor : Option String) (limit : Nat)
    (database : Database) : Except String SummaryPage := do
  refuseIf (validWritingDraftBase baseId = false) "invalid_ai_request"
  checkLimit limit
  let cursor ← decodeCursors base64 cursor
  checkConflictCursor baseId cursor
  let candidates := newestFirst database fun row => conflictCandidate baseId row.1
  let read := (candidates.filter fun row =>
    afterCursor cursor row.2.updatedAt row.1.2).take (limit + 1)
  pure
    { items := (read.take limit).map conflictItem
      nextCursor := nextCursor base64 read limit
      total := candidates.length
      corruptCount := (database.corruptObjects.keys.filter (conflictCandidate baseId)).length }

end LawyerAssistance.Storage

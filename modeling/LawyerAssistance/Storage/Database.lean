import Mathlib.Data.List.AList
import LawyerAssistance.Storage.Derivation
import LawyerAssistance.Workspace.Types

/-!
# The tables of the store

The SQLite tables, the statements which the store sends and its transactions. A
transaction carries the number of statements which the database still accepts: the
statement after the last of them fails, wherever it stands, and nothing of a failed
transaction remains.
-/

namespace LawyerAssistance.Storage

/-- Why and when an object was quarantined. -/
structure CorruptObject where
  code : String
  detectedAt : Nat
deriving DecidableEq, Repr

/-- The tables. -/
structure Database where
  «schema» : String
  objects : AList fun _ : Key => Octets
  objectIndex : AList fun _ : Key => ObjectIndex
  objectSummaries : AList fun _ : Key => Octets
  objectRelations : List (Key × Relation)
  corruptObjects : AList fun _ : Key => CorruptObject

/-- The schema which the service works on. -/
def SCHEMA_V3 : String := "web-workspace-v3"

namespace Database

/-- A new workspace. -/
def created : Database := ⟨SCHEMA_V3, ∅, ∅, ∅, [], ∅⟩

/-- The relations of one object. -/
def relationsOf (database : Database) (key : Key) : List Relation :=
  (database.objectRelations.filter fun row => row.1 = key).map Prod.snd

/-! ## Statements -/

/-- `INSERT INTO objects ... ON CONFLICT DO UPDATE`. -/
def upsertObject (database : Database) (key : Key) (body : Octets) : Database :=
  { database with objects := database.objects.insert key body }

/-- `INSERT INTO object_index ... ON CONFLICT DO UPDATE`. -/
def upsertIndex (database : Database) (key : Key) (index : ObjectIndex) : Database :=
  { database with objectIndex := database.objectIndex.insert key index }

/-- `INSERT INTO object_summaries ... ON CONFLICT DO UPDATE`. -/
def upsertSummary (database : Database) (key : Key) (body : Octets) : Database :=
  { database with objectSummaries := database.objectSummaries.insert key body }

/-- `INSERT INTO corrupt_objects ... ON CONFLICT DO UPDATE`. -/
def upsertCorrupt (database : Database) (key : Key) (row : CorruptObject) : Database :=
  { database with corruptObjects := database.corruptObjects.insert key row }

/-- `DELETE FROM objects`. -/
def deleteObject (database : Database) (key : Key) : Database :=
  { database with objects := database.objects.erase key }

/-- `DELETE FROM object_index`. -/
def deleteIndex (database : Database) (key : Key) : Database :=
  { database with objectIndex := database.objectIndex.erase key }

/-- `DELETE FROM object_summaries`. -/
def deleteSummary (database : Database) (key : Key) : Database :=
  { database with objectSummaries := database.objectSummaries.erase key }

/-- `DELETE FROM object_relations`. -/
def deleteRelations (database : Database) (key : Key) : Database :=
  { database with objectRelations := database.objectRelations.filter fun row => row.1 ≠ key }

/-- `DELETE FROM corrupt_objects`. -/
def deleteCorrupt (database : Database) (key : Key) : Database :=
  { database with corruptObjects := database.corruptObjects.erase key }

/-- Whether an object is marked. -/
def isQuarantined (database : Database) (key : Key) : Bool :=
  (database.corruptObjects.lookup key).isSome

end Database

/-- The error of a statement which the database does not accept. -/
def storageUnavailable : String := "storage_unavailable"

/-- SQL statements in order, with the number of statements which are still accepted. -/
abbrev Sql := StateT (Nat × Database) (Except String)

namespace Sql

/-- One statement. -/
def statement {α : Type} (run : Database → Except String (α × Database)) : Sql α :=
  fun (accepted, database) =>
    match accepted with
    | 0 => .error storageUnavailable
    | accepted + 1 => (run database).map fun (result, next) => (result, accepted, next)

/-- A statement which changes the tables. -/
def execute (change : Database → Database) : Sql Unit :=
  statement fun database => .ok ((), change database)

/-- A statement which reads the tables. -/
def query {α : Type} (read : Database → α) : Sql α :=
  statement fun database => .ok (read database, database)

/-- A check which needs no statement. -/
def check {α : Type} (value : Except String α) : Sql α := fun state =>
  value.map fun result => (result, state)

/-- Begin, run and commit. An error rolls everything back. -/
def transaction {α : Type} (program : Sql α) (accepted : Nat) (database : Database) :
    Except String α × Database :=
  match (do
      execute id
      let result ← program
      execute id
      pure result : Sql α) (accepted, database) with
  | .error error => (.error error, database)
  | .ok (result, _, next) => (.ok result, next)

/-! ### What programs leave -/

section Ensures

variable {α β : Type}

/-- Whenever the program ends from the tables `database`, its result and the tables which
it leaves are related by `post`. -/
def Ensures (program : Sql α) (database : Database) (post : α → Database → Prop) : Prop :=
  ∀ accepted result rest next, program (accepted, database) = .ok (result, rest, next) →
    post result next

variable {program : Sql α} {database : Database} {post : α → Database → Prop}

theorem ensures_pure {result : α} (holds : post result database) :
    (pure result : Sql α).Ensures database post := by
  intro accepted other rest next ended
  cases ended
  exact holds

theorem ensures_bind {next : α → Sql β} {after : β → Database → Prop}
    (holds : program.Ensures database fun result middle => (next result).Ensures middle after) :
    (program >>= next).Ensures database after := by
  intro accepted result rest final ended
  cases middle : program (accepted, database) with
  | error error => simp [bind, StateT.bind, middle, Except.bind] at ended
  | ok reached =>
      obtain ⟨value, left, tables⟩ := reached
      simp only [bind, StateT.bind, middle, Except.bind] at ended
      exact holds accepted value left tables middle left result rest final ended

theorem ensures_statement {run : Database → Except String (α × Database)}
    (holds : ∀ result next, run database = .ok (result, next) → post result next) :
    (statement run).Ensures database post := by
  intro accepted result rest next ended
  cases accepted with
  | zero => cases ended
  | succ accepted =>
      simp only [statement] at ended
      cases ran : run database with
      | error error => simp [ran, Except.map] at ended
      | ok reached =>
          obtain ⟨value, tables⟩ := reached
          rw [ran] at ended
          cases ended
          exact holds _ _ ran

theorem ensures_execute {change : Database → Database} {after : Unit → Database → Prop}
    (holds : after () (change database)) : (execute change).Ensures database after :=
  ensures_statement fun _ _ ended => by
    cases ended
    exact holds

theorem ensures_query {read : Database → α} (holds : post (read database) database) :
    (query read).Ensures database post :=
  ensures_statement fun _ _ ended => by
    cases ended
    exact holds

theorem ensures_check {value : Except String α}
    (holds : ∀ result, value = .ok result → post result database) :
    (check value).Ensures database post := by
  intro accepted result rest next ended
  cases value with
  | error error => cases ended
  | ok found =>
      cases ended
      exact holds _ rfl

theorem Ensures.imp {stronger : α → Database → Prop} (holds : program.Ensures database stronger)
    (implies : ∀ result next, stronger result next → post result next) :
    program.Ensures database post :=
  fun accepted result rest next ended => implies result next (holds accepted result rest next ended)

/-- A transaction leaves what its program ensures, or nothing changes. -/
theorem transaction_cases (accepted : Nat) (holds : program.Ensures database post) :
    (∃ error, transaction program accepted database = (.error error, database)) ∨
      ∃ result next, transaction program accepted database = (.ok result, next) ∧
        post result next := by
  unfold transaction
  split
  · next error failed => exact .inl ⟨error, rfl⟩
  · next result rest next ended =>
      refine .inr ⟨result, next, rfl, ?_⟩
      have whole : (do
          execute id
          let result ← program
          execute id
          pure result : Sql α).Ensures database post := by
        refine ensures_bind (ensures_execute (ensures_bind (holds.imp fun result next kept => ?_)))
        exact ensures_bind (ensures_execute (ensures_pure kept))
      exact whole _ _ _ _ ended

end Ensures

end Sql

end LawyerAssistance.Storage

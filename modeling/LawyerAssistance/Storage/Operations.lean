import LawyerAssistance.Storage.Database

/-!
# The writing operations of the store

`write_row`, `put_many`, `delete`, `quarantine`, `next_queued_material` and
`claim_queued_material`, statement by statement, and what each of them leaves in the
tables when it is committed.
-/

namespace LawyerAssistance.Storage

open Workspace (Material)

/-- The largest number of a SQLite integer. -/
def I64_MAX : Nat := 2 ^ 63 - 1

/-- `i64::try_from`. -/
def toI64 (value : Nat) : Except String Unit :=
  refuseIf (I64_MAX < value) "storage_metadata_invalid"

/-- The index fields which are stored as integers fit. -/
def ObjectIndex.Fits (index : ObjectIndex) : Prop :=
  index.createdAt ≤ I64_MAX ∧ index.updatedAt ≤ I64_MAX ∧ index.revision.getD 0 ≤ I64_MAX

/-! ## Rows -/

/-- `INSERT INTO object_relations`: the four columns are the primary key. -/
def insertRelation (key : Key) (relation : Relation) : Sql Unit :=
  Sql.statement fun database =>
    if (key, relation) ∈ database.objectRelations then .error storageUnavailable
    else .ok ((), { database with
      objectRelations := database.objectRelations ++ [(key, relation)] })

/-- `write_row`. -/
def writeRow (row : StoredRow) : Sql Unit := do
  Sql.check (toI64 row.index.createdAt)
  Sql.check (toI64 row.index.updatedAt)
  Sql.check (toI64 (row.index.revision.getD 0))
  Sql.execute fun database => database.upsertObject row.key row.body
  Sql.execute fun database => database.upsertIndex row.key row.index
  Sql.execute fun database => database.deleteRelations row.key
  row.relations.forM (insertRelation row.key)
  Sql.execute fun database =>
    match row.summary with
    | some summary => database.upsertSummary row.key summary
    | none => database.deleteSummary row.key
  Sql.execute fun database => database.deleteCorrupt row.key

/-- `quarantine_tx`. -/
def quarantineTx (key : Key) (code : String) (now : Nat) : Sql Unit := do
  Sql.check (toI64 now)
  Sql.execute fun database => database.upsertCorrupt key ⟨code, now⟩
  Sql.execute fun database => database.deleteSummary key
  Sql.execute fun database => database.deleteIndex key
  Sql.execute fun database => database.deleteRelations key

/-- `Store::put_many`. -/
def putMany (rows : List StoredRow) (accepted : Nat) (database : Database) :
    Except String Unit × Database :=
  Sql.transaction (rows.forM writeRow) accepted database

/-- The statements of `Store::delete`. -/
def deleteTx (key : Key) : Sql Unit := do
  Sql.execute fun database => database.deleteObject key
  Sql.execute fun database => database.deleteSummary key
  Sql.execute fun database => database.deleteIndex key
  Sql.execute fun database => database.deleteRelations key
  Sql.execute fun database => database.deleteCorrupt key

/-- `Store::delete`. -/
def delete (key : Key) (accepted : Nat) (database : Database) : Except String Unit × Database :=
  Sql.transaction (deleteTx key) accepted database

/-- `Store::quarantine`. -/
def quarantine (key : Key) (code : String) (now accepted : Nat) (database : Database) :
    Except String Unit × Database :=
  Sql.transaction (quarantineTx key code now) accepted database

/-! ## The material queue -/

/-- The result of an operation whose transaction commits an error as well. -/
def committed {α : Type} (outcome : Except String (Except String α) × Database) :
    Except String α × Database :=
  (outcome.1.bind id, outcome.2)

/-- A material without an index row. -/
def unindexedMaterial (database : Database) : Option String :=
  (database.objects.keys.find? fun key =>
    key.1 = "material" ∧ (database.objectIndex.lookup key).isNone).map Prod.snd

/-- The order of the queue: `updated_at`, then `id`. -/
def queueOrder (first second : Sigma fun _ : Key => ObjectIndex) : Bool :=
  first.2.updatedAt < second.2.updatedAt ||
    (first.2.updatedAt == second.2.updatedAt && first.1.2 ≤ second.1.2)

/-- The first queued material, and its group column. -/
def firstQueued (database : Database) : Option (String × Option String) :=
  ((database.objectIndex.entries.filter fun row =>
    row.1.1 = "material" ∧ row.2.status = some "queued").insertionSort
      fun first second => queueOrder first second).head?.map
      fun row => (row.1.2, row.2.groupId)

/-- The group column is read as a text, and NULL is not one. -/
def readGroup : Option (String × Option String) → Except String (Option (String × String))
  | none => .ok none
  | some (id, some group) => .ok (some (id, group))
  | some (_, none) => .error storageUnavailable

/-- The statements of `Store::next_queued_material`. -/
def nextQueuedTx (now : Nat) : Sql (Except String (Option (String × String))) := do
  let missing ← Sql.query unindexedMaterial
  match missing with
  | some id =>
      quarantineTx ("material", id) "index_missing" now
      pure (.error "storage_object_corrupt")
  | none =>
      let corrupt ← Sql.query fun database =>
        database.corruptObjects.keys.any fun key => key.1 = "material"
      if corrupt then pure (.error "storage_object_corrupt")
      else
        let next ← Sql.query firstQueued
        let read ← Sql.check (readGroup next)
        pure (.ok read)

/-- `Store::next_queued_material`. -/
def nextQueuedMaterial (now accepted : Nat) (database : Database) :
    Except String (Option (String × String)) × Database :=
  committed (Sql.transaction (nextQueuedTx now) accepted database)

/-- What the services around the store do for it. -/
structure Host where
  dpapi : Dpapi
  serde : Codec Json
  materials : Codec Material

variable (host : Host)

/-- `open`, and then `serde_json::from_slice`. -/
def openAs {α : Type} (codec : Codec α) (dpapi : Dpapi) (kind id : String) (body : Octets) :
    Except String α := do
  let bytes ← openBody dpapi kind id body
  presentOr (codec.fromSlice bytes) "invalid_data"

/-- The body of a material which is indexed as queued. -/
def queuedBody (id : String) (database : Database) : Option Octets :=
  match database.objectIndex.lookup ("material", id) with
  | some index =>
      if index.status = some "queued" then database.objects.lookup ("material", id) else none
  | none => none

/-- The statements of `Store::claim_queued_material`. -/
def claimTx (id : String) (dictionaryRevision now : Nat) (clock : Clock)
    (salts : RowSalts host.dpapi) : Sql (Except String (Option Material)) := do
  let body ← Sql.query (queuedBody id)
  match body with
  | none => pure (.ok none)
  | some body =>
      match openAs host.materials host.dpapi "material" id body with
      | .ok material =>
          if material.status = .queued then
            let claimed :=
              { material with status := .running, dictionaryRevision := dictionaryRevision }
            let data ← Sql.check (presentOr (host.materials.toVec claimed) "invalid_data")
            let row ← Sql.check (encoded host.serde host.dpapi salts clock ("material", id) data)
            writeRow row
            pure (.ok (some claimed))
          else
            quarantineTx ("material", id) "index_body_mismatch" now
            pure (.error "storage_object_corrupt")
      | .error code =>
          quarantineTx ("material", id) code now
          pure (.error "storage_object_corrupt")

/-- `Store::claim_queued_material`. -/
def claimQueuedMaterial (id : String) (dictionaryRevision now : Nat) (clock : Clock)
    (salts : RowSalts host.dpapi) (accepted : Nat) (database : Database) :
    Except String (Option Material) × Database :=
  committed
    (Sql.transaction (claimTx host id dictionaryRevision now clock salts) accepted database)

/-! ## What they leave -/

namespace Database

/-- The tables after a row was written. -/
def written (database : Database) (row : StoredRow) : Database where
  «schema» := database.schema
  objects := database.objects.insert row.key row.body
  objectIndex := database.objectIndex.insert row.key row.index
  objectSummaries :=
    match row.summary with
    | some summary => database.objectSummaries.insert row.key summary
    | none => database.objectSummaries.erase row.key
  objectRelations := (database.objectRelations.filter fun other => other.1 ≠ row.key) ++
    row.relations.map fun relation => (row.key, relation)
  corruptObjects := database.corruptObjects.erase row.key

/-- The tables after an object was quarantined. -/
def quarantined (database : Database) (key : Key) (mark : CorruptObject) : Database where
  «schema» := database.schema
  objects := database.objects
  objectIndex := database.objectIndex.erase key
  objectSummaries := database.objectSummaries.erase key
  objectRelations := database.objectRelations.filter fun other => other.1 ≠ key
  corruptObjects := database.corruptObjects.insert key mark

/-- The tables after an object was deleted. -/
def deleted (database : Database) (key : Key) : Database where
  «schema» := database.schema
  objects := database.objects.erase key
  objectIndex := database.objectIndex.erase key
  objectSummaries := database.objectSummaries.erase key
  objectRelations := database.objectRelations.filter fun other => other.1 ≠ key
  corruptObjects := database.corruptObjects.erase key

end Database

theorem toI64_eq_ok {value : Nat} {result : Unit} :
    toI64 value = .ok result ↔ value ≤ I64_MAX := by
  rw [toI64, refuseIf_eq_ok, Nat.not_lt]

/-- The relations of a row are appended. -/
theorem insertRelations_ensures (key : Key) (relations : List Relation) (database : Database) :
    (relations.forM (insertRelation key)).Ensures database fun _ next =>
      next = { database with objectRelations :=
        database.objectRelations ++ relations.map fun relation => (key, relation) } := by
  induction relations generalizing database with
  | nil => exact Sql.ensures_pure (by simp)
  | cons relation rest inductionHypothesis =>
      refine Sql.ensures_bind (Sql.ensures_statement fun result next ran => ?_)
      split_ifs at ran
      cases ran
      refine (inductionHypothesis _).imp fun _ next reached => ?_
      simpa using reached

/-- A written row, with index fields which fit. -/
theorem writeRow_ensures (row : StoredRow) (database : Database) :
    (writeRow row).Ensures database fun _ next =>
      row.index.Fits ∧ next = database.written row := by
  refine Sql.ensures_bind (Sql.ensures_check fun _ created => ?_)
  refine Sql.ensures_bind (Sql.ensures_check fun _ updated => ?_)
  refine Sql.ensures_bind (Sql.ensures_check fun _ revision => ?_)
  refine Sql.ensures_bind (Sql.ensures_execute ?_)
  refine Sql.ensures_bind (Sql.ensures_execute ?_)
  refine Sql.ensures_bind (Sql.ensures_execute ?_)
  refine Sql.ensures_bind ((insertRelations_ensures _ _ _).imp fun _ inserted reached => ?_)
  subst reached
  refine Sql.ensures_bind (Sql.ensures_execute ?_)
  refine Sql.ensures_execute
    ⟨⟨toI64_eq_ok.mp created, toI64_eq_ok.mp updated, toI64_eq_ok.mp revision⟩, ?_⟩
  cases hasSummary : row.summary <;>
    simp [Database.written, Database.upsertObject, Database.upsertIndex, Database.deleteRelations,
      Database.upsertSummary, Database.deleteSummary, Database.deleteCorrupt, hasSummary]

/-- A quarantined object. -/
theorem quarantineTx_ensures (key : Key) (code : String) (now : Nat) (database : Database) :
    (quarantineTx key code now).Ensures database fun _ next =>
      next = database.quarantined key ⟨code, now⟩ := by
  refine Sql.ensures_bind (Sql.ensures_check fun _ fits => ?_)
  refine Sql.ensures_bind (Sql.ensures_execute ?_)
  refine Sql.ensures_bind (Sql.ensures_execute ?_)
  refine Sql.ensures_bind (Sql.ensures_execute ?_)
  exact Sql.ensures_execute rfl

/-- All rows of a batch are written, in order. -/
theorem writeRows_ensures (rows : List StoredRow) (database : Database) :
    (rows.forM writeRow).Ensures database fun _ next =>
      next = rows.foldl Database.written database := by
  induction rows generalizing database with
  | nil => exact Sql.ensures_pure rfl
  | cons row rest inductionHypothesis =>
      refine Sql.ensures_bind ((writeRow_ensures row database).imp fun _ next reached => ?_)
      rw [reached.2]
      exact inductionHypothesis _

/-- `put_many` applies all its rows, or leaves the tables as they are. -/
theorem putMany_cases (rows : List StoredRow) (accepted : Nat) (database : Database) :
    (∃ error, putMany rows accepted database = (.error error, database)) ∨
      putMany rows accepted database = (.ok (), rows.foldl Database.written database) := by
  obtain ⟨error, failed⟩ | ⟨_, next, done, rfl⟩ :=
    Sql.transaction_cases accepted (writeRows_ensures rows database)
  · exact .inl ⟨error, failed⟩
  · exact .inr done

/-- What an operation leaves, when its transaction is committed and when it is not. -/
theorem transaction_leaves {α : Type} {program : Sql α} {database : Database}
    {post : Database → Prop} (accepted : Nat)
    (ensured : program.Ensures database fun _ next => post next) :
    (Sql.transaction program accepted database).2 = database ∨
      post (Sql.transaction program accepted database).2 := by
  obtain ⟨error, failed⟩ | ⟨_, next, done, kept⟩ := Sql.transaction_cases accepted ensured
  · exact .inl (by rw [failed])
  · exact .inr (by rwa [done])

/-- `delete` removes the object and its entries, or leaves the tables as they are. -/
theorem delete_cases (key : Key) (accepted : Nat) (database : Database) :
    (delete key accepted database).2 = database ∨
      (delete key accepted database).2 = database.deleted key := by
  have ensured : (deleteTx key).Ensures database fun _ next => next = database.deleted key := by
    refine Sql.ensures_bind (Sql.ensures_execute ?_)
    refine Sql.ensures_bind (Sql.ensures_execute ?_)
    refine Sql.ensures_bind (Sql.ensures_execute ?_)
    refine Sql.ensures_bind (Sql.ensures_execute ?_)
    exact Sql.ensures_execute rfl
  exact transaction_leaves accepted ensured

/-- `quarantine` marks the object and removes its entries, or leaves the tables as they are. -/
theorem quarantine_cases (key : Key) (code : String) (now accepted : Nat) (database : Database) :
    (quarantine key code now accepted database).2 = database ∨
      (quarantine key code now accepted database).2 = database.quarantined key ⟨code, now⟩ :=
  transaction_leaves accepted (quarantineTx_ensures key code now database)

/-- `next_queued_material` changes nothing, or quarantines a material. -/
theorem nextQueuedMaterial_cases (now accepted : Nat) (database : Database) :
    (nextQueuedMaterial now accepted database).2 = database ∨
      ∃ id, (nextQueuedMaterial now accepted database).2 =
        database.quarantined ("material", id) ⟨"index_missing", now⟩ := by
  have ensured : (nextQueuedTx now).Ensures database fun _ next => next = database ∨
      ∃ id, next = database.quarantined ("material", id) ⟨"index_missing", now⟩ := by
    refine Sql.ensures_bind (Sql.ensures_query ?_)
    split
    · next id _ =>
        refine Sql.ensures_bind ((quarantineTx_ensures _ _ now database).imp fun _ next marked => ?_)
        exact Sql.ensures_pure (.inr ⟨id, marked⟩)
    · refine Sql.ensures_bind (Sql.ensures_query ?_)
      split_ifs
      · exact Sql.ensures_pure (.inl rfl)
      · refine Sql.ensures_bind (Sql.ensures_query ?_)
        exact Sql.ensures_bind (Sql.ensures_check fun _ _ => Sql.ensures_pure (.inl rfl))
  exact (transaction_leaves accepted ensured).elim .inl id

/-- `claim_queued_material` changes nothing, writes the encoded row of the claimed material, or
quarantines the material. -/
theorem claimQueuedMaterial_cases (id : String) (dictionaryRevision now : Nat) (clock : Clock)
    (salts : RowSalts host.dpapi) (accepted : Nat) (database : Database) :
    let after := (claimQueuedMaterial host id dictionaryRevision now clock salts accepted database).2
    after = database ∨
      (∃ data row, encoded host.serde host.dpapi salts clock ("material", id) data = .ok row ∧
        after = database.written row) ∨
      ∃ code, after = database.quarantined ("material", id) ⟨code, now⟩ := by
  have ensured : (claimTx host id dictionaryRevision now clock salts).Ensures database
      fun _ next => next = database ∨
        (∃ data row, encoded host.serde host.dpapi salts clock ("material", id) data = .ok row ∧
          next = database.written row) ∨
        ∃ code, next = database.quarantined ("material", id) ⟨code, now⟩ := by
    have marks : ∀ code outcome, (do
        quarantineTx ("material", id) code now
        pure outcome : Sql (Except String (Option Material))).Ensures database
          fun _ next => next = database ∨
            (∃ data row, encoded host.serde host.dpapi salts clock ("material", id) data = .ok row ∧
              next = database.written row) ∨
            ∃ code, next = database.quarantined ("material", id) ⟨code, now⟩ := by
      intro code outcome
      refine Sql.ensures_bind ((quarantineTx_ensures _ _ now database).imp fun _ next marked => ?_)
      exact Sql.ensures_pure (.inr (.inr ⟨code, marked⟩))
    refine Sql.ensures_bind (Sql.ensures_query ?_)
    split
    · exact Sql.ensures_pure (.inl rfl)
    · split
      · split_ifs
        · refine Sql.ensures_bind (Sql.ensures_check fun data written => ?_)
          refine Sql.ensures_bind (Sql.ensures_check fun row encodes => ?_)
          refine Sql.ensures_bind ((writeRow_ensures row database).imp fun _ next wrote => ?_)
          exact Sql.ensures_pure (.inr (.inl ⟨data, row, encodes, wrote.2⟩))
        · exact marks _ _
      · exact marks _ _
  exact (transaction_leaves accepted ensured).elim .inl fun left => left

end LawyerAssistance.Storage

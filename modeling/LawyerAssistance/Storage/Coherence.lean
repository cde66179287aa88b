import LawyerAssistance.Std.Machine
import LawyerAssistance.Storage.Operations
import LawyerAssistance.Storage.Splicing

/-!
# Coherence of the index

Whatever operations run, and wherever they fail, the index row, the summary and the
relations of every object are those which its encoder derives from its body, unless the
object is quarantined: then there are none.
-/

namespace LawyerAssistance.Storage

/-! ## Everything which is stored under one key -/

/-- What the tables hold under one key. -/
structure Entry where
  body : Option Octets
  index : Option ObjectIndex
  summary : Option Octets
  relations : List Relation
  mark : Option CorruptObject

/-- No index row, no summary and no relations. -/
def Entry.Bare (entry : Entry) : Prop :=
  entry.index = none ∧ entry.summary = none ∧ entry.relations = []

namespace Database

/-- What is stored under a key. -/
def entry (database : Database) (key : Key) : Entry where
  body := database.objects.lookup key
  index := database.objectIndex.lookup key
  summary := database.objectSummaries.lookup key
  relations := database.relationsOf key
  mark := database.corruptObjects.lookup key

theorem relationsOf_filter_self (relations : List (Key × Relation)) (key : Key) :
    ((relations.filter fun row => row.1 ≠ key).filter fun row => row.1 = key) = [] := by
  simp [List.filter_filter]

theorem relationsOf_filter_other (relations : List (Key × Relation)) {key other : Key}
    (different : other ≠ key) :
    ((relations.filter fun row => row.1 ≠ key).filter fun row => row.1 = other) =
      relations.filter fun row => row.1 = other := by
  rw [List.filter_filter]
  refine List.filter_congr fun row _ => ?_
  by_cases same : row.1 = other <;> simp [same, different]

/-- A written row is what the tables hold under its key. -/
@[simp] theorem entry_written_self (database : Database) (row : StoredRow) :
    (database.written row).entry row.key =
      ⟨some row.body, some row.index, row.summary, row.relations, none⟩ := by
  have own : ((row.relations.map fun relation => (row.key, relation)).filter
      fun other => other.1 = row.key) = row.relations.map fun relation => (row.key, relation) := by
    simp [List.filter_map, Function.comp_def]
  have relations : (database.written row).relationsOf row.key = row.relations := by
    rw [relationsOf, written, List.filter_append, relationsOf_filter_self, own]
    simp [Function.comp_def]
  simp only [entry, relations]
  cases hasSummary : row.summary <;> simp [written, hasSummary]

/-- Writing a row keeps what is stored under the other keys. -/
@[simp] theorem entry_written_other (database : Database) {row : StoredRow} {key : Key}
    (different : key ≠ row.key) : (database.written row).entry key = database.entry key := by
  have none : ((row.relations.map fun relation => (row.key, relation)).filter
      fun other => other.1 = key) = [] := by
    simp [List.filter_map, Function.comp_def, different.symm]
  have relations : (database.written row).relationsOf key = database.relationsOf key := by
    rw [relationsOf, written, List.filter_append, relationsOf_filter_other _ different, none,
      List.append_nil, relationsOf]
  simp only [entry, relations]
  cases hasSummary : row.summary <;>
    simp [written, hasSummary, AList.lookup_insert_ne different, AList.lookup_erase_ne different]

@[simp] theorem entry_quarantined_self (database : Database) (key : Key) (mark : CorruptObject) :
    (database.quarantined key mark).entry key =
      ⟨database.objects.lookup key, none, none, [], some mark⟩ := by
  simp [entry, quarantined, relationsOf, List.filter_filter]

@[simp] theorem entry_quarantined_other (database : Database) {key other : Key}
    (mark : CorruptObject) (different : other ≠ key) :
    (database.quarantined key mark).entry other = database.entry other := by
  simp only [entry, quarantined, relationsOf, relationsOf_filter_other _ different,
    AList.lookup_insert_ne different, AList.lookup_erase_ne different]

@[simp] theorem entry_deleted_self (database : Database) (key : Key) :
    (database.deleted key).entry key = ⟨none, none, none, [], none⟩ := by
  simp [entry, deleted, relationsOf, List.filter_filter]

@[simp] theorem entry_deleted_other (database : Database) {key other : Key}
    (different : other ≠ key) : (database.deleted key).entry other = database.entry other := by
  simp only [entry, deleted, relationsOf, relationsOf_filter_other _ different,
    AList.lookup_erase_ne different]

end Database

/-! ## Derived entries -/

section Derived

variable (serde : Codec Json) (dpapi : Dpapi)

/-- The entries which `Store::encoded` derives from decrypted bytes, at the times of `clock`. -/
def DerivedFromValue (clock : Clock) (key : Key) (data : Octets) (index : Option ObjectIndex)
    (summary : Option Octets) (relations : List Relation) : Prop :=
  ∃ value blob text, serde.fromSlice data = some value ∧
    index = some (indexForValue value clock) ∧
    summary = some blob ∧ openBody dpapi (summaryKind key.1) key.2 blob = .ok text ∧
    serde.toVec (summaryForValue key.1 key.2 value (indexForValue value clock)) = some text ∧
    relations = relationsForValue key.1 value

/-- The entries which the encoder of a kind derives from a body: `Store::encoded_raw` for raw
kinds, and `Store::encoded` for the others. -/
def Derived (key : Key) (body : Octets) (index : Option ObjectIndex) (summary : Option Octets)
    (relations : List Relation) : Prop :=
  ∃ data clock, openBody dpapi key.1 key.2 body = .ok data ∧
    if isRawKind key.1 then index = some (rawIndex clock) ∧ summary = none ∧ relations = []
    else DerivedFromValue serde dpapi clock key data index summary relations

/-- What is stored under a key fits together. -/
structure Entry.Coherent (key : Key) (entry : Entry) : Prop where
  quarantined : entry.mark.isSome → entry.Bare
  absent : entry.body = none → entry.Bare
  derived : ∀ body, entry.body = some body → entry.mark = none →
    Derived serde dpapi key body entry.index entry.summary entry.relations

/-- What is stored under every key fits together. -/
def Coherent (database : Database) : Prop :=
  ∀ key, (database.entry key).Coherent serde dpapi key

variable {serde dpapi}

theorem coherent_created : Coherent serde dpapi Database.created := by
  intro key
  refine ⟨fun _ => ⟨rfl, rfl, rfl⟩, fun _ => ⟨rfl, rfl, rfl⟩, fun body stored => ?_⟩
  cases stored

/-- Writing a row with derived entries keeps the tables coherent. -/
theorem Coherent.written {database : Database} {row : StoredRow}
    (coherent : Coherent serde dpapi database)
    (derived : Derived serde dpapi row.key row.body (some row.index) row.summary row.relations) :
    Coherent serde dpapi (database.written row) := by
  intro key
  by_cases same : key = row.key
  · subst same
    rw [Database.entry_written_self]
    refine ⟨fun marked => absurd marked Bool.false_ne_true, (fun missing => nomatch missing), ?_⟩
    intro body stored _
    cases stored
    exact derived
  · rw [Database.entry_written_other database same]
    exact coherent key

/-- Quarantining an object keeps the tables coherent. -/
theorem Coherent.quarantined {database : Database} (key : Key) (mark : CorruptObject)
    (coherent : Coherent serde dpapi database) :
    Coherent serde dpapi (database.quarantined key mark) := by
  intro other
  by_cases same : other = key
  · subst same
    rw [Database.entry_quarantined_self]
    exact ⟨fun _ => ⟨rfl, rfl, rfl⟩, fun _ => ⟨rfl, rfl, rfl⟩, fun _ _ unmarked => by cases unmarked⟩
  · rw [Database.entry_quarantined_other database mark same]
    exact coherent other

/-- Deleting an object keeps the tables coherent. -/
theorem Coherent.deleted {database : Database} (key : Key)
    (coherent : Coherent serde dpapi database) : Coherent serde dpapi (database.deleted key) := by
  intro other
  by_cases same : other = key
  · subst same
    rw [Database.entry_deleted_self]
    exact ⟨fun _ => ⟨rfl, rfl, rfl⟩, fun _ => ⟨rfl, rfl, rfl⟩, fun _ stored => by cases stored⟩
  · rw [Database.entry_deleted_other database same]
    exact coherent other

/-- The row of a value has the entries which are derived from it. -/
theorem valueRow_derived (authentic : dpapi.Authentic) {salts : RowSalts dpapi} {clock : Clock}
    {key : Key} {body data : Octets} {value : Json} {row : StoredRow}
    (read : serde.fromSlice data = some value)
    (done : valueRow serde dpapi salts clock key body value = .ok row) :
    row.key = key ∧ row.body = body ∧
      DerivedFromValue serde dpapi clock key data (some row.index) row.summary row.relations := by
  obtain ⟨text, printed, done⟩ := bind_eq_ok.mp done
  obtain ⟨summary, closed, done⟩ := bind_eq_ok.mp done
  cases done
  exact ⟨rfl, rfl, value, summary, text, read, rfl, rfl, openBody_sealBody authentic closed,
    presentOr_eq_ok.mp printed, rfl⟩

/-- An encoded row has the entries which are derived from its body. -/
theorem encoded_derived (authentic : dpapi.Authentic) {salts : RowSalts dpapi} {clock : Clock}
    {key : Key} {data : Octets} {row : StoredRow} (plain : isRawKind key.1 = false)
    (done : encoded serde dpapi salts clock key data = .ok row) :
    row.key = key ∧
      Derived serde dpapi row.key row.body (some row.index) row.summary row.relations := by
  obtain ⟨value, read, done⟩ := bind_eq_ok.mp done
  obtain ⟨body, closed, done⟩ := bind_eq_ok.mp done
  obtain ⟨rfl, rfl, derived⟩ := valueRow_derived authentic (presentOr_eq_ok.mp read) done
  refine ⟨rfl, data, clock, openBody_sealBody authentic closed, ?_⟩
  rwa [plain, if_neg Bool.false_ne_true]

/-- An encoded raw row has the entries of its kind. -/
theorem encodedRaw_derived (authentic : dpapi.Authentic) {salts : RowSalts dpapi} {clock : Clock}
    {key : Key} {value : Octets} {row : StoredRow} (raw : isRawKind key.1 = true)
    (done : encodedRaw dpapi salts clock key value = .ok row) :
    row.key = key ∧
      Derived serde dpapi row.key row.body (some row.index) row.summary row.relations := by
  obtain ⟨body, closed, done⟩ := bind_eq_ok.mp done
  cases done
  refine ⟨rfl, value, clock, openBody_sealBody authentic closed, ?_⟩
  rw [raw, if_pos rfl]
  exact ⟨rfl, rfl, rfl⟩

end Derived

/-! ## Runs of the store -/

/-- A row which a caller of `put_many` encodes. -/
inductive Encoding (dpapi : Dpapi) where
  | value (salts : RowSalts dpapi) (clock : Clock) (key : Key) (data : Octets)
  | raw (salts : RowSalts dpapi) (clock : Clock) (key : Key) (bytes : Octets)

/-- The encoder of a kind is fixed: raw kinds are written by `Store::encoded_raw` only. -/
def Encoding.suits {dpapi : Dpapi} : Encoding dpapi → Bool
  | .value _ _ key _ => !isRawKind key.1
  | .raw _ _ key _ => isRawKind key.1

/-- The row of an encoding. -/
def Encoding.row (serde : Codec Json) {dpapi : Dpapi} : Encoding dpapi → Except String StoredRow
  | .value salts clock key data => encoded serde dpapi salts clock key data
  | .raw salts clock key bytes => encodedRaw dpapi salts clock key bytes

/-- The operations, each with the number of statements which the database accepts. A draft is
written and deleted like every object, and every reader which finds an object damaged calls
`quarantine`. -/
inductive StoreEvent (dpapi : Dpapi) where
  | putMany (accepted : Nat) (encodings : List (Encoding dpapi))
  | delete (accepted : Nat) (key : Key)
  | quarantine (accepted : Nat) (key : Key) (code : String) (now : Nat)
  | nextQueuedMaterial (accepted : Nat) (now : Nat)
  | claimQueuedMaterial (accepted : Nat) (id : String) (dictionaryRevision now : Nat)
      (clock : Clock) (salts : RowSalts dpapi)

/-- Encode the rows of a batch, and write them. -/
def encodeAndPut (host : Host) (encodings : List (Encoding host.dpapi)) (accepted : Nat)
    (database : Database) : Except String Unit × Database :=
  match encodings.mapM (Encoding.row host.serde) with
  | .error error => (.error error, database)
  | .ok rows => putMany rows accepted database

/-- One operation. A batch which names the wrong encoder for a kind is no event of the service. -/
def storeStep (host : Host) (database : Database) : StoreEvent host.dpapi → Option Database
  | .putMany accepted encodings =>
      if encodings.all Encoding.suits then some (encodeAndPut host encodings accepted database).2
      else none
  | .delete accepted key => some (delete key accepted database).2
  | .quarantine accepted key code now => some (quarantine key code now accepted database).2
  | .nextQueuedMaterial accepted now => some (nextQueuedMaterial now accepted database).2
  | .claimQueuedMaterial accepted id dictionaryRevision now clock salts =>
      some (claimQueuedMaterial host id dictionaryRevision now clock salts accepted database).2

/-- The store as a machine. -/
def storeMachine (host : Host) : Machine Database (StoreEvent host.dpapi) := ⟨storeStep host⟩

section Runs

variable {host : Host}

/-- What holds of every row which is encoded holds of an encoded batch. -/
theorem mapM_row_forall {property : StoredRow → Prop} {encodings : List (Encoding host.dpapi)}
    {rows : List StoredRow} (done : encodings.mapM (Encoding.row host.serde) = .ok rows)
    (each : ∀ encoding ∈ encodings, ∀ row, encoding.row host.serde = .ok row → property row) :
    ∀ row ∈ rows, property row := by
  induction encodings generalizing rows with
  | nil =>
      cases done
      simp
  | cons encoding rest inductionHypothesis =>
      rw [List.mapM_cons] at done
      obtain ⟨row, encodes, done⟩ := bind_eq_ok.mp done
      obtain ⟨others, encodesRest, done⟩ := bind_eq_ok.mp done
      cases done
      rw [List.forall_mem_cons] at each
      simp only [List.mem_cons, forall_eq_or_imp]
      exact ⟨each.1 row encodes, inductionHypothesis encodesRest each.2⟩

/-- Every row of an encoded batch has derived entries. -/
theorem mapM_row_derived (authentic : host.dpapi.Authentic)
    {encodings : List (Encoding host.dpapi)} {rows : List StoredRow}
    (suits : encodings.all Encoding.suits = true)
    (done : encodings.mapM (Encoding.row host.serde) = .ok rows) :
    ∀ row ∈ rows,
      Derived host.serde host.dpapi row.key row.body (some row.index) row.summary row.relations := by
  refine mapM_row_forall done fun encoding member row encodes => ?_
  have suit := List.all_eq_true.mp suits encoding member
  cases encoding with
  | value salts clock key data =>
      exact (encoded_derived authentic (by simpa [Encoding.suits] using suit) encodes).2
  | raw salts clock key bytes =>
      exact (encodedRaw_derived authentic (by simpa [Encoding.suits] using suit) encodes).2

/-- Rows with derived entries keep the tables coherent. -/
theorem Coherent.foldl_written {serde : Codec Json} {dpapi : Dpapi} {database : Database}
    {rows : List StoredRow} (coherent : Coherent serde dpapi database)
    (derived : ∀ row ∈ rows,
      Derived serde dpapi row.key row.body (some row.index) row.summary row.relations) :
    Coherent serde dpapi (rows.foldl Database.written database) := by
  induction rows generalizing database with
  | nil => exact coherent
  | cons row rest inductionHypothesis =>
      rw [List.forall_mem_cons] at derived
      exact inductionHypothesis (coherent.written derived.1) derived.2

/-- One operation keeps the tables coherent. -/
theorem storeStep_coherent (authentic : host.dpapi.Authentic) {database next : Database}
    {event : StoreEvent host.dpapi} (coherent : Coherent host.serde host.dpapi database)
    (taken : storeStep host database event = some next) :
    Coherent host.serde host.dpapi next := by
  cases event with
  | putMany accepted encodings =>
      simp only [storeStep] at taken
      split_ifs at taken with suits
      cases taken
      unfold encodeAndPut
      split
      · exact coherent
      · next rows encodes =>
          obtain ⟨error, failed⟩ | done := putMany_cases rows accepted database
          · rwa [failed]
          · rw [done]
            exact coherent.foldl_written (mapM_row_derived authentic suits encodes)
  | delete accepted key =>
      cases taken
      obtain unchanged | done := delete_cases key accepted database
      · rwa [unchanged]
      · rw [done]
        exact coherent.deleted key
  | quarantine accepted key code now =>
      cases taken
      obtain unchanged | done := quarantine_cases key code now accepted database
      · rwa [unchanged]
      · rw [done]
        exact coherent.quarantined key _
  | nextQueuedMaterial accepted now =>
      cases taken
      obtain unchanged | ⟨id, done⟩ := nextQueuedMaterial_cases now accepted database
      · rwa [unchanged]
      · rw [done]
        exact coherent.quarantined _ _
  | claimQueuedMaterial accepted id dictionaryRevision now clock salts =>
      cases taken
      obtain unchanged | ⟨data, row, encodes, done⟩ | ⟨code, done⟩ :=
        claimQueuedMaterial_cases host id dictionaryRevision now clock salts accepted database
      · rwa [unchanged]
      · rw [done]
        exact coherent.written (encoded_derived authentic rfl encodes).2
      · rw [done]
        exact coherent.quarantined _ _

theorem run_coherent (authentic : host.dpapi.Authentic) {database final : Database}
    {events : List (StoreEvent host.dpapi)} (coherent : Coherent host.serde host.dpapi database)
    (runs : (storeMachine host).run database events = some final) :
    Coherent host.serde host.dpapi final :=
  Machine.run_invariant (Coherent host.serde host.dpapi)
    (fun holds taken => storeStep_coherent authentic holds taken) coherent runs

/-- `put_many` writes every row of its batch, or changes no table. -/
theorem encodeAndPut_cases (encodings : List (Encoding host.dpapi)) (accepted : Nat)
    (database : Database) :
    (∃ error, encodeAndPut host encodings accepted database = (.error error, database)) ∨
      ∃ rows, encodings.mapM (Encoding.row host.serde) = .ok rows ∧
        encodeAndPut host encodings accepted database =
          (.ok (), rows.foldl Database.written database) := by
  unfold encodeAndPut
  split
  · next error _ => exact .inl ⟨error, rfl⟩
  · next rows encodes =>
      obtain failed | done := putMany_cases rows accepted database
      · exact .inl failed
      · exact .inr ⟨rows, encodes, done⟩

end Runs

end LawyerAssistance.Storage

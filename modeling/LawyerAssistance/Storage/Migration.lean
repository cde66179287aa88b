import LawyerAssistance.Storage.Coherence

/-!
# The migration of a version 2 workspace

A version 2 workspace has objects only. `migrateV2ToV3` derives the entries of every
object in one transaction, with the derivations of the online writer.
-/

namespace LawyerAssistance.Storage

/-- What the migration draws and reads for the record of each key: salts, the times of absent
fields, and the time of a quarantine. -/
structure MigrationInput (dpapi : Dpapi) where
  salts : Key → RowSalts dpapi
  clock : Key → Clock
  now : Key → Nat

section Migrate

variable (serde : Codec Json) (dpapi : Dpapi) (input : MigrationInput dpapi)

/-- The row of a stored body, or nothing when the body does not open or is no JSON. -/
def migratedRow (key : Key) (body : Octets) : Except String (Option StoredRow) :=
  match openBody dpapi key.1 key.2 body with
  | .error _ => .ok none
  | .ok bytes =>
      if isRawKind key.1 then .ok (some ⟨key, body, rawIndex (input.clock key), none, []⟩)
      else
        match serde.fromSlice bytes with
        | none => .ok none
        | some value =>
            (valueRow serde dpapi (input.salts key) (input.clock key) key body value).map some

/-- The statements for one record. -/
def migrateRecord (record : Key × Octets) : Sql Unit := do
  let row ← Sql.check (migratedRow serde dpapi input record.1 record.2)
  match row with
  | some row => writeRow row
  | none => quarantineTx record.1 "migration_object_invalid" (input.now record.1)

/-- The order of keys: kind, then identifier. -/
def recordOrder (first second : Key × Octets) : Bool :=
  first.1.1 < second.1.1 || (first.1.1 == second.1.1 && first.1.2 ≤ second.1.2)

/-- `SELECT kind,id,body FROM objects ORDER BY kind,id`. -/
def records (database : Database) : List (Key × Octets) :=
  (database.objects.entries.map fun row => (row.1, row.2)).insertionSort
    fun first second => recordOrder first second

/-- The statements of `migrate_v2_to_v3`. -/
def migrateTx : Sql Unit := do
  Sql.execute id
  let found ← Sql.query records
  found.forM (migrateRecord serde dpapi input)
  Sql.execute fun database => { database with «schema» := SCHEMA_V3 }

/-- `migrate_v2_to_v3`. -/
def migrateV2ToV3 (accepted : Nat) (database : Database) : Except String Unit × Database :=
  Sql.transaction (migrateTx serde dpapi input) accepted database

end Migrate

section Records

/-- A record is listed for every object. -/
theorem mem_records {database : Database} {key : Key} {body : Octets} :
    (key, body) ∈ records database ↔ database.objects.lookup key = some body := by
  rw [records, List.mem_insertionSort, ← Option.mem_def, AList.mem_lookup_iff, List.mem_map]
  constructor
  · rintro ⟨⟨otherKey, otherBody⟩, member, same⟩
    cases same
    exact member
  · intro member
    exact ⟨⟨key, body⟩, member, rfl⟩

theorem nodup_records (database : Database) : ((records database).map Prod.fst).Nodup := by
  have sorted : (records database).Perm (database.objects.entries.map fun row => (row.1, row.2)) :=
    List.perm_insertionSort _ _
  refine (sorted.map Prod.fst).nodup_iff.mpr ?_
  rw [List.map_map]
  exact database.objects.nodupKeys

end Records

section Migrated

variable {serde : Codec Json} {dpapi : Dpapi} {input : MigrationInput dpapi}

/-- The entry which the migration leaves for an object. -/
def MigratedEntry (serde : Codec Json) (dpapi : Dpapi) (input : MigrationInput dpapi) (key : Key)
    (body : Octets) (entry : Entry) : Prop :=
  (∃ row, migratedRow serde dpapi input key body = .ok (some row) ∧
    entry = ⟨some body, some row.index, row.summary, row.relations, none⟩) ∨
  migratedRow serde dpapi input key body = .ok none ∧
    entry = ⟨some body, none, none, [], some ⟨"migration_object_invalid", input.now key⟩⟩

/-- A migrated row keeps the key and the body of its record. -/
theorem migratedRow_key {key : Key} {body : Octets} {row : StoredRow}
    (done : migratedRow serde dpapi input key body = .ok (some row)) :
    row.key = key ∧ row.body = body := by
  unfold migratedRow at done
  split at done
  · cases done
  · split_ifs at done with raw
    · cases done
      exact ⟨rfl, rfl⟩
    · split at done
      · cases done
      · next value read =>
          cases made : valueRow serde dpapi (input.salts key) (input.clock key) key body value with
          | error error => simp [made, Except.map] at done
          | ok found =>
              rw [made] at done
              cases done
              obtain ⟨text, _, made⟩ := bind_eq_ok.mp made
              obtain ⟨summary, _, made⟩ := bind_eq_ok.mp made
              cases made
              exact ⟨rfl, rfl⟩

/-- One record is migrated, and the other keys are left alone. -/
theorem migrateRecord_ensures {key : Key} {body : Octets} {database : Database}
    (stored : (database.entry key).body = some body) :
    (migrateRecord serde dpapi input (key, body)).Ensures database fun _ next =>
      MigratedEntry serde dpapi input key body (next.entry key) ∧
        ∀ other, other ≠ key → next.entry other = database.entry other := by
  refine Sql.ensures_bind (Sql.ensures_check fun row done => ?_)
  cases row with
  | none =>
      refine (quarantineTx_ensures _ _ _ _).imp fun _ next reached => ?_
      subst reached
      refine ⟨.inr ⟨done, ?_⟩, fun other different =>
        Database.entry_quarantined_other database _ different⟩
      rw [Database.entry_quarantined_self]
      congr 1
  | some row =>
      refine (writeRow_ensures _ _).imp fun _ next reached => ?_
      obtain ⟨rfl, rfl⟩ := migratedRow_key done
      rw [reached.2]
      exact ⟨.inl ⟨row, done, Database.entry_written_self database row⟩,
        fun other different => Database.entry_written_other database different⟩

/-- All records are migrated, and the other keys are left alone. -/
theorem migrateRecords_ensures {found : List (Key × Octets)} {database : Database}
    (distinct : (found.map Prod.fst).Nodup)
    (stored : ∀ key body, (key, body) ∈ found → (database.entry key).body = some body) :
    (found.forM (migrateRecord serde dpapi input)).Ensures database fun _ next =>
      (∀ key body, (key, body) ∈ found →
        MigratedEntry serde dpapi input key body (next.entry key)) ∧
      ∀ key, key ∉ found.map Prod.fst → next.entry key = database.entry key := by
  induction found generalizing database with
  | nil => exact Sql.ensures_pure ⟨by simp, by simp⟩
  | cons record rest inductionHypothesis =>
      obtain ⟨key, body⟩ := record
      rw [List.map_cons, List.nodup_cons] at distinct
      refine Sql.ensures_bind
        ((migrateRecord_ensures (stored key body List.mem_cons_self)).imp fun _ middle here => ?_)
      obtain ⟨migrated, others⟩ := here
      have storedRest : ∀ other content, (other, content) ∈ rest →
          (middle.entry other).body = some content := by
        intro other content member
        have different : other ≠ key := by
          rintro rfl
          exact distinct.1 (List.mem_map.mpr ⟨_, member, rfl⟩)
        rw [others other different]
        exact stored other content (List.mem_cons_of_mem _ member)
      refine (inductionHypothesis distinct.2 storedRest).imp fun _ next reached => ?_
      obtain ⟨each, untouched⟩ := reached
      constructor
      · intro other content member
        obtain here | later := List.mem_cons.mp member
        · cases here
          rw [untouched key distinct.1]
          exact migrated
        · exact each other content later
      · intro other absent
        simp only [List.map_cons, List.mem_cons, not_or] at absent
        rw [untouched other absent.2, others other absent.1]

/-- What the migration leaves when it is committed. -/
structure Migrates (serde : Codec Json) (dpapi : Dpapi) (input : MigrationInput dpapi)
    (before after : Database) : Prop where
  migrated : ∀ key body, before.objects.lookup key = some body →
    MigratedEntry serde dpapi input key body (after.entry key)
  untouched : ∀ key, before.objects.lookup key = none → after.entry key = before.entry key
  upgraded : after.schema = SCHEMA_V3

/-- The migration is committed as a whole, or changes nothing. -/
theorem migrateV2ToV3_cases (accepted : Nat) (database : Database) :
    (∃ error, migrateV2ToV3 serde dpapi input accepted database = (.error error, database)) ∨
      ∃ next, migrateV2ToV3 serde dpapi input accepted database = (.ok (), next) ∧
        Migrates serde dpapi input database next := by
  have ensured : (migrateTx serde dpapi input).Ensures database fun _ next =>
      Migrates serde dpapi input database next := by
    refine Sql.ensures_bind (Sql.ensures_execute ?_)
    refine Sql.ensures_bind (Sql.ensures_query ?_)
    refine Sql.ensures_bind ((migrateRecords_ensures (nodup_records _) fun key body member =>
      mem_records.mp member).imp fun _ next reached => ?_)
    refine Sql.ensures_execute ⟨fun key body stored => ?_, fun key absent => ?_, rfl⟩
    · exact reached.1 key body (mem_records.mpr stored)
    · refine reached.2 key fun member => ?_
      obtain ⟨⟨other, body⟩, listed, rfl⟩ := List.mem_map.mp member
      have stored := mem_records.mp listed
      exact absurd (stored.symm.trans absent) (Option.some_ne_none body)
  obtain ⟨error, failed⟩ | ⟨_, next, done, kept⟩ := Sql.transaction_cases accepted ensured
  · exact .inl ⟨error, failed⟩
  · exact .inr ⟨next, done, kept⟩

/-- A body decrypts to `data`, and decodes: raw kinds need no decoding. -/
def Decodes (serde : Codec Json) (dpapi : Dpapi) (key : Key) (body data : Octets) : Prop :=
  openBody dpapi key.1 key.2 body = .ok data ∧
    (isRawKind key.1 = false → (serde.fromSlice data).isSome)

/-- The row which the online writer of a kind encodes from the bytes of a body. -/
def onlineRow (serde : Codec Json) (dpapi : Dpapi) (salts : RowSalts dpapi) (clock : Clock)
    (key : Key) (data : Octets) : Except String StoredRow :=
  if isRawKind key.1 then encodedRaw dpapi salts clock key data
  else encoded serde dpapi salts clock key data

/-- An object which decodes is migrated with a row. -/
theorem migratedRow_of_decodes {key : Key} {body data : Octets}
    (decodes : Decodes serde dpapi key body data) :
    migratedRow serde dpapi input key body ≠ .ok none := by
  obtain ⟨opened, reads⟩ := decodes
  unfold migratedRow
  rw [opened]
  cases raw : isRawKind key.1 with
  | true => simp
  | false =>
      obtain ⟨value, read⟩ := Option.isSome_iff_exists.mp (reads raw)
      simp only [read, if_neg Bool.false_ne_true]
      cases valueRow serde dpapi (input.salts key) (input.clock key) key body value <;>
        simp [Except.map]

/-- An object which does not decode is not migrated with a row. -/
theorem migratedRow_of_not_decodes {key : Key} {body : Octets}
    (damaged : ¬ ∃ data, Decodes serde dpapi key body data) :
    migratedRow serde dpapi input key body = .ok none := by
  unfold migratedRow
  split
  · rfl
  · next data opened =>
      split_ifs with raw
      · exact absurd ⟨data, opened, fun plain => by simp [raw] at plain⟩ damaged
      · split
        · rfl
        · next value read =>
            exact absurd ⟨data, opened, fun _ => by rw [read]; rfl⟩ damaged

/-- A migrated row has derived entries: those of the row which the online writer encodes. -/
theorem migratedRow_derived (authentic : dpapi.Authentic) {key : Key} {body data : Octets}
    {row : StoredRow} (opened : openBody dpapi key.1 key.2 body = .ok data)
    (done : migratedRow serde dpapi input key body = .ok (some row)) :
    Derived serde dpapi key body (some row.index) row.summary row.relations ∧
      ∀ online, onlineRow serde dpapi (input.salts key) (input.clock key) key data = .ok online →
        row.index = online.index ∧ row.summary = online.summary ∧
          row.relations = online.relations := by
  unfold migratedRow at done
  rw [opened] at done
  cases raw : isRawKind key.1 with
  | true =>
      simp only [raw, if_true, Except.ok.injEq, Option.some.injEq] at done
      subst done
      refine ⟨⟨data, input.clock key, opened, by rw [raw, if_pos rfl]; exact ⟨rfl, rfl, rfl⟩⟩, ?_⟩
      intro online encodes
      rw [onlineRow, raw, if_pos rfl] at encodes
      obtain ⟨_, _, encodes⟩ := bind_eq_ok.mp encodes
      cases encodes
      exact ⟨rfl, rfl, rfl⟩
  | false =>
      simp only [raw, if_neg Bool.false_ne_true] at done
      split at done
      · cases done
      · next value read =>
          cases made : valueRow serde dpapi (input.salts key) (input.clock key) key body value with
          | error error => simp [made, Except.map] at done
          | ok found =>
              rw [made] at done
              cases done
              refine ⟨⟨data, input.clock key, opened, ?_⟩, ?_⟩
              · rw [raw, if_neg Bool.false_ne_true]
                exact (valueRow_derived authentic read made).2.2
              · intro online encodes
                rw [onlineRow, raw, if_neg Bool.false_ne_true] at encodes
                obtain ⟨value', read', encodes⟩ := bind_eq_ok.mp encodes
                obtain ⟨body', _, encodes⟩ := bind_eq_ok.mp encodes
                cases read.symm.trans (presentOr_eq_ok.mp read')
                obtain ⟨text, printed, made⟩ := bind_eq_ok.mp made
                obtain ⟨summary, closed, made⟩ := bind_eq_ok.mp made
                obtain ⟨text', printed', encodes⟩ := bind_eq_ok.mp encodes
                obtain ⟨summary', closed', encodes⟩ := bind_eq_ok.mp encodes
                cases Except.ok.inj (printed.symm.trans printed')
                cases Except.ok.inj (closed.symm.trans closed')
                cases made
                cases encodes
                exact ⟨rfl, rfl, rfl⟩

/-- The migration agrees with the online writers: every object which decodes gets the entries
which the encoder of its kind derives, every other object is quarantined with its body kept,
and a migration which fails leaves the version 2 workspace as it is. -/
theorem migration_agrees_with_encoders (authentic : dpapi.Authentic) (v2 : Database)
    (accepted : Nat) :
    (∃ error, migrateV2ToV3 serde dpapi input accepted v2 = (.error error, v2)) ∨
      ∃ v3, migrateV2ToV3 serde dpapi input accepted v2 = (.ok (), v3) ∧
        v3.schema = SCHEMA_V3 ∧
        (∀ key, v2.objects.lookup key = none → v3.entry key = v2.entry key) ∧
        ∀ key body, v2.objects.lookup key = some body →
          (∀ data, Decodes serde dpapi key body data →
            (v3.entry key).body = some body ∧ (v3.entry key).mark = none ∧
            Derived serde dpapi key body (v3.entry key).index (v3.entry key).summary
              (v3.entry key).relations ∧
            ∀ online,
              onlineRow serde dpapi (input.salts key) (input.clock key) key data = .ok online →
              (v3.entry key).index = some online.index ∧
                (v3.entry key).summary = online.summary ∧
                (v3.entry key).relations = online.relations) ∧
          ((¬ ∃ data, Decodes serde dpapi key body data) →
            v3.entry key =
              ⟨some body, none, none, [], some ⟨"migration_object_invalid", input.now key⟩⟩) := by
  obtain failed | ⟨v3, done, kept⟩ :=
    @migrateV2ToV3_cases serde dpapi input accepted v2
  · exact .inl failed
  refine .inr ⟨v3, done, kept.upgraded, kept.untouched, fun key body stored => ⟨?_, ?_⟩⟩
  · intro data decodes
    obtain ⟨row, migrated, entry⟩ | ⟨migrated, _⟩ := kept.migrated key body stored
    · obtain ⟨derived, online⟩ := migratedRow_derived authentic decodes.1 migrated
      rw [entry]
      refine ⟨rfl, rfl, derived, fun row' encodes => ?_⟩
      obtain ⟨index, summary, relations⟩ := online row' encodes
      exact ⟨congrArg some index, summary, relations⟩
    · exact absurd migrated (migratedRow_of_decodes decodes)
  · intro damaged
    obtain ⟨row, migrated, _⟩ | ⟨_, entry⟩ := kept.migrated key body stored
    · rw [migratedRow_of_not_decodes damaged] at migrated
      cases migrated
    · exact entry

end Migrated

/-! ## A store on the marking platform -/

/-- A codec which reads `null` and nothing else. -/
def nullCodec : Codec Json where
  fromSlice bytes := if bytes = utf8 "null" then some .null else none
  toVec value := some (utf8 value.print)

/-- The services of the example stores. No material is stored in them. -/
def markingHost : Host := ⟨marker, nullCodec, ⟨fun _ => none, fun _ => none⟩⟩

/-- The only salts of the marking platform. -/
def noSalts : RowSalts marker := ⟨fun _ => (), fun _ => ()⟩

/-- What the migrations of the examples draw and read. -/
def sampleInput : MigrationInput marker := ⟨fun _ => noSalts, fun _ => ⟨5, 6⟩, fun _ => 7⟩

/-- A version 2 workspace with one object, whose body seals `data`. -/
def sampleV2 (key : Key) (data : Octets) : Database :=
  { Database.created with
    «schema» := "web-workspace-v2"
    objects := AList.insert key
      (((sealBody marker (fun _ => ()) key.1 key.2 data).toOption).getD []) ∅ }

/-- A task is migrated with the index row of the online writer, and a damaged one is
quarantined. -/
theorem migration_agrees_with_encoders_tasks :
    (∃ v3, migrateV2ToV3 nullCodec marker sampleInput 20 (sampleV2 ("task", "t_1") (utf8 "null")) =
        (.ok (), v3) ∧ (v3.entry ("task", "t_1")).mark = none ∧
        (v3.entry ("task", "t_1")).index = some (indexForValue .null ⟨5, 6⟩)) ∧
      ∃ v3, migrateV2ToV3 nullCodec marker sampleInput 20 (sampleV2 ("task", "t_1") [80]) =
        (.ok (), v3) ∧ (v3.entry ("task", "t_1")).index = none := by
  constructor
  · have completes : (migrateV2ToV3 nullCodec marker sampleInput 20
        (sampleV2 ("task", "t_1") (utf8 "null"))).1 = .ok () := by decide
    obtain ⟨error, failed⟩ | ⟨v3, done, _, _, each⟩ := @migration_agrees_with_encoders nullCodec
      marker sampleInput marker_authentic (sampleV2 ("task", "t_1") (utf8 "null")) 20
    · rw [failed] at completes
      cases completes
    · obtain ⟨_, unmarked, _, online⟩ := (each ("task", "t_1") _ (AList.lookup_insert _)).1
        (utf8 "null") ⟨by decide, fun _ => by decide⟩
      have index : (onlineRow nullCodec marker noSalts ⟨5, 6⟩ ("task", "t_1")
          (utf8 "null")).toOption.map StoredRow.index = some (indexForValue .null ⟨5, 6⟩) := by
        decide
      cases encodes : onlineRow nullCodec marker noSalts ⟨5, 6⟩ ("task", "t_1") (utf8 "null") with
      | error error => simp [encodes, Except.toOption] at index
      | ok row =>
          rw [encodes] at index
          exact ⟨v3, done, unmarked, (online row encodes).1.trans index⟩
  · have completes : (migrateV2ToV3 nullCodec marker sampleInput 20
        (sampleV2 ("task", "t_1") [80])).1 = .ok () := by decide
    obtain ⟨error, failed⟩ | ⟨v3, done, _, _, each⟩ := @migration_agrees_with_encoders nullCodec
      marker sampleInput marker_authentic (sampleV2 ("task", "t_1") [80]) 20
    · rw [failed] at completes
      cases completes
    · have damaged := (each ("task", "t_1") _ (AList.lookup_insert _)).2 (by
        rintro ⟨data, opened, reads⟩
        have bytes : openBody marker "task" "t_1" (((sealBody marker (fun _ => ()) "task" "t_1"
            [80]).toOption).getD []) = .ok [80] := by decide
        cases opened.symm.trans bytes
        exact absurd (reads (by decide)) (by decide))
      exact ⟨v3, done, by rw [damaged]⟩

/-- An uploaded file which holds a JSON text decrypts and decodes, and `Store::encoded` would write
a summary for it; the migration writes none, as `Store::encoded_raw` does. -/
theorem migrated_source_has_no_summary :
    ∃ v3 row, openBody marker "source" "src_1" (((sealBody marker (fun _ => ()) "source" "src_1"
        (utf8 "null")).toOption).getD []) = .ok (utf8 "null") ∧
      encoded nullCodec marker noSalts ⟨5, 6⟩ ("source", "src_1") (utf8 "null") = .ok row ∧
      migrateV2ToV3 nullCodec marker sampleInput 20 (sampleV2 ("source", "src_1") (utf8 "null")) =
        (.ok (), v3) ∧
      (v3.entry ("source", "src_1")).mark = none ∧
      (v3.entry ("source", "src_1")).summary ≠ row.summary := by
  have opened : openBody marker "source" "src_1" (((sealBody marker (fun _ => ()) "source" "src_1"
      (utf8 "null")).toOption).getD []) = .ok (utf8 "null") := by decide
  have summary : (encoded nullCodec marker noSalts ⟨5, 6⟩ ("source", "src_1")
      (utf8 "null")).toOption.map (fun row => row.summary.isSome) = some true := by decide
  have completes : (migrateV2ToV3 nullCodec marker sampleInput 20
      (sampleV2 ("source", "src_1") (utf8 "null"))).1 = .ok () := by decide
  have entry : (((migrateV2ToV3 nullCodec marker sampleInput 20
      (sampleV2 ("source", "src_1") (utf8 "null"))).2.entry ("source", "src_1")).mark.isNone ∧
    ((migrateV2ToV3 nullCodec marker sampleInput 20
      (sampleV2 ("source", "src_1") (utf8 "null"))).2.entry ("source", "src_1")).summary.isNone) := by
    decide
  rcases ran : migrateV2ToV3 nullCodec marker sampleInput 20
      (sampleV2 ("source", "src_1") (utf8 "null")) with ⟨outcome, v3⟩
  rw [ran] at completes entry
  cases completes
  obtain ⟨unmarked, missing⟩ := entry
  rw [Option.isNone_iff_eq_none] at unmarked missing
  cases encodes : encoded nullCodec marker noSalts ⟨5, 6⟩ ("source", "src_1") (utf8 "null") with
  | error error => simp [encodes, Except.toOption] at summary
  | ok row =>
      simp only [encodes, Except.toOption, Option.map_some, Option.some.injEq] at summary
      refine ⟨v3, row, opened, rfl, rfl, unmarked, ?_⟩
      rw [missing]
      intro same
      rw [← same] at summary
      cases summary

/-! ## Every open store -/

/-- The tables of a store when it is opened: a new workspace, or a migrated one. A version 3
workspace is opened as it was left. -/
inductive Opens (host : Host) : Database → Prop where
  | created : Opens host Database.created
  | migrated {input : MigrationInput host.dpapi} {accepted : Nat} {v2 v3 : Database}
      (fresh : ∀ key, (v2.entry key).Bare ∧ (v2.entry key).mark = none)
      (done : migrateV2ToV3 host.serde host.dpapi input accepted v2 = (.ok (), v3)) :
      Opens host v3

/-- A store is opened coherent. -/
theorem Opens.coherent {host : Host} (authentic : host.dpapi.Authentic) {start : Database}
    (opened : Opens host start) : Coherent host.serde host.dpapi start := by
  cases opened with
  | created => exact coherent_created
  | @migrated input accepted v2 _ fresh done =>
      obtain ⟨error, failed⟩ | ⟨v3, same, _, untouched, each⟩ :=
        @migration_agrees_with_encoders host.serde host.dpapi input authentic v2 accepted
      · rw [failed] at done
        cases done
      · cases same.symm.trans done
        intro key
        cases stored : v2.objects.lookup key with
        | none =>
            rw [untouched key stored]
            exact ⟨fun _ => (fresh key).1, fun _ => (fresh key).1,
              fun body present => absurd (stored.symm.trans present) (Option.some_ne_none body).symm⟩
        | some body =>
            have parts := each key body stored
            by_cases decodes : ∃ data, Decodes host.serde host.dpapi key body data
            · obtain ⟨data, decodes⟩ := decodes
              obtain ⟨kept, unmarked, derived, _⟩ := parts.1 data decodes
              refine ⟨fun marked => ?_, fun missing => ?_, fun content present _ => ?_⟩
              · rw [unmarked] at marked
                cases marked
              · rw [kept] at missing
                cases missing
              · cases kept.symm.trans present
                exact derived
            · rw [parts.2 decodes]
              refine ⟨fun _ => ⟨rfl, rfl, rfl⟩, fun _ => ⟨rfl, rfl, rfl⟩, fun _ _ unmarked => ?_⟩
              cases unmarked

/-- In every store, after any operations which may fail anywhere: the index row, the summary and
the relations of an object are those which the encoder of its kind derives from its body, an
object which is quarantined or deleted has none, and `put_many` writes all its rows, each with
derived entries, or changes no table. -/
theorem store_entries_are_derived {host : Host} (authentic : host.dpapi.Authentic)
    {start final : Database} {events : List (StoreEvent host.dpapi)} (opened : Opens host start)
    (runs : (storeMachine host).run start events = some final) :
    Coherent host.serde host.dpapi final ∧
      ∀ encodings accepted, encodings.all Encoding.suits = true →
        (∃ error, encodeAndPut host encodings accepted final = (.error error, final)) ∨
          ∃ rows, encodings.mapM (Encoding.row host.serde) = .ok rows ∧
            encodeAndPut host encodings accepted final =
              (.ok (), rows.foldl Database.written final) ∧
            ∀ row ∈ rows, Derived host.serde host.dpapi row.key row.body (some row.index)
              row.summary row.relations := by
  refine ⟨run_coherent authentic (opened.coherent authentic) runs, fun encodings accepted suits => ?_⟩
  obtain failed | ⟨rows, encodes, done⟩ := encodeAndPut_cases encodings accepted final
  · exact .inl failed
  · exact .inr ⟨rows, encodes, done, mapM_row_derived authentic suits encodes⟩

/-- A task is written and quarantined, and a second one is written after a failed attempt. -/
def sampleEvents : List (StoreEvent marker) :=
  [.putMany 20 [.value noSalts ⟨1, 1⟩ ("task", "t_1") (utf8 "null")],
    .quarantine 20 ("task", "t_1") "encrypted_object_invalid" 2,
    .putMany 3 [.value noSalts ⟨3, 3⟩ ("task", "t_2") (utf8 "null")],
    .putMany 20 [.value noSalts ⟨4, 4⟩ ("task", "t_2") (utf8 "null")]]

theorem store_entries_are_derived_tasks :
    ∃ final, (storeMachine markingHost).run Database.created sampleEvents = some final ∧
      Coherent nullCodec marker final ∧ (final.entry ("task", "t_1")).mark.isSome ∧
      (final.entry ("task", "t_2")).index = some (indexForValue .null ⟨4, 4⟩) := by
  have facts : ((storeMachine markingHost).run Database.created sampleEvents).map (fun final =>
      ((final.entry ("task", "t_1")).mark.isSome, (final.entry ("task", "t_2")).index)) =
        some (true, some (indexForValue .null ⟨4, 4⟩)) := by decide
  obtain ⟨final, ran, parts⟩ := Option.map_eq_some_iff.mp facts
  obtain ⟨marked, index⟩ := Prod.mk.inj parts
  exact ⟨final, ran, (@store_entries_are_derived markingHost marker_authentic _ _ _ .created ran).1,
    marked, index⟩

/-- An uploaded file which is no JSON text has no entries of `Store::encoded` at all. -/
theorem stored_source_has_no_encoded_entries :
    ∃ final, (storeMachine markingHost).run Database.created
        [.putMany 20 [.raw noSalts ⟨1, 1⟩ ("source", "src_1") [80]]] = some final ∧
      (final.entry ("source", "src_1")).body.isSome ∧
      (final.entry ("source", "src_1")).mark = none ∧
      ¬ ∃ data clock, DerivedFromValue nullCodec marker clock ("source", "src_1") data
        (final.entry ("source", "src_1")).index (final.entry ("source", "src_1")).summary
        (final.entry ("source", "src_1")).relations := by
  have facts : ((storeMachine markingHost).run Database.created
      [.putMany 20 [.raw noSalts ⟨1, 1⟩ ("source", "src_1") [80]]]).map (fun final =>
        ((final.entry ("source", "src_1")).body.isSome,
          (final.entry ("source", "src_1")).mark.isNone,
          (final.entry ("source", "src_1")).summary.isNone)) = some (true, true, true) := by
    decide
  obtain ⟨final, ran, parts⟩ := Option.map_eq_some_iff.mp facts
  obtain ⟨stored, unmarked, missing⟩ : _ ∧ _ ∧ _ := by simpa using parts
  refine ⟨final, ran, stored, unmarked, ?_⟩
  rintro ⟨data, clock, value, blob, text, _, _, summary, _⟩
  rw [missing] at summary
  cases summary

end LawyerAssistance.Storage

import LawyerAssistance.Backups.Completions
import LawyerAssistance.Backups.Withdrawals

/-!
# Exported backups

An export seals a database and stores what it sealed. What is known of a backup when its export
ends with a value, whatever fails in between: its parts passed the checks of the export, what was
sealed is the image of the database, and its files are there.
-/

namespace LawyerAssistance.Backups

open Privacy Lifecycle

/-! ## Results of temporary files -/

section Temporary

variable {root : BackupRoot} {path : Text}

theorem ensures_finishSensitiveTemporary {α : Type} {result : Except LifecycleError α} :
    (finishSensitiveTemporary path result).Ensures BackupRoot.apply root
      fun value _ => result = .ok value :=
  (Script.ensures_true _).bind fun _ _ _ => Script.ensures_lift fun _ same => same

/-- SQLite leaves a database as it is. -/
theorem ensures_sqliteActivity {changes : List SidecarChange} {image : Octets}
    (found : root.staging.lookup path = some image) :
    (sqliteActivity path changes).Ensures BackupRoot.apply root
      fun _ final => final.staging.lookup path = some image := by
  have beside (sidecar : Sidecar) : path ≠ path ++ sidecar.suffix := by
    intro same
    have empty := List.append_right_eq_self.mp same.symm
    cases sidecar <;> exact absurd empty (by decide)
  induction changes generalizing root with
  | nil => exact Script.ensures_pure found
  | cons change rest inductionHypothesis =>
      rw [sqliteActivity]
      dsimp only
      have created : ((root.apply (.create (path ++ change.sidecar.suffix))).staging).lookup path =
          some image := (AList.lookup_insert_ne (beside _)).trans found
      have removed : ((root.apply (.remove (path ++ change.sidecar.suffix))).staging).lookup path =
          some image := (AList.lookup_erase_ne (beside _)).trans found
      have rests (final : BackupRoot) (kept : final.staging.lookup path = some image) :=
        @inductionHypothesis final kept
      split_ifs
      · exact (Script.ensures_tryPerform created found).bind fun _ final kept => rests final kept
      · exact (Script.ensures_tryPerform removed found).bind fun _ final kept => rests final kept

end Temporary

/-! ## Sealing -/

section Sealing

variable (host : BackupHost) (choices : BackupChoices) {root : BackupRoot}

/-- The copy of a database is its image. -/
theorem ensures_snapshotBytes {database : PrivacyDatabase} {backupId : Text} {maximum : Nat} :
    (host.snapshotBytes choices database backupId maximum).Ensures BackupRoot.apply root
      fun bytes _ => host.snapshotImage database = .ok bytes ∧ bytes.length ≤ maximum := by
  refine Script.ensures_lift_bind fun path _ => ?_
  have copies : (host.snapshotDatabase choices database path).Ensures BackupRoot.apply root
      fun _ final => ∃ image, host.snapshotImage database = .ok image ∧
        final.staging.lookup path = some image := by
    refine Script.ensures_current_bind (Script.ensures_refuse_bind fun _ => ?_)
    refine (Script.ensures_true _).bind fun _ _ _ => (Script.ensures_true _).bind fun _ _ _ => ?_
    refine Script.ensures_lift_bind fun image taken => ?_
    have writes (before : BackupRoot) : (Script.perform (.write path image) .database :
        BackupScript Unit).Ensures BackupRoot.apply before
          fun _ final => final.staging.lookup path = some image :=
      Script.ensures_perform (AList.lookup_insert _)
    refine (writes _).bind fun _ written found => ?_
    exact (ensures_sqliteActivity found).imp fun _ _ kept => ⟨image, taken, kept⟩
  refine copies.settle_bind (fun _ final copied => ?_) fun error final => ?_
  · obtain ⟨image, taken, found⟩ := copied
    refine Script.ensures_current_bind (ensures_finishSensitiveTemporary.imp fun bytes _ read => ?_)
    rw [found] at read
    have read : readSafeFile (some _) maximum = .ok bytes := read
    obtain ⟨same, _, short⟩ := readSafeFile_eq_ok.mp read
    cases same
    exact ⟨taken, short⟩
  · exact Script.ensures_current_bind (ensures_finishSensitiveTemporary.imp fun _ _ => nofun)

/-- A copy which is verified passes the checks of a database. -/
theorem ensures_verifySqliteSnapshotBytes {bytes : Octets} {workspace : WorkspaceInstanceId}
    {keyEpoch : UInt64} {schemaVersion : Int64} {backupId : Text} :
    (host.verifySqliteSnapshotBytes choices bytes workspace keyEpoch schemaVersion
      backupId).Ensures BackupRoot.apply root fun _ _ =>
        (100 ≤ bytes.length ∧ sqliteHeader <+: bytes) ∧
        ∃ database, host.checkImage bytes workspace keyEpoch schemaVersion = .ok database := by
  refine Script.ensures_lift_bind fun maximum _ => Script.ensures_refuse_bind fun passed => ?_
  rw [not_or, not_or, Nat.not_lt, not_not] at passed
  refine (Script.ensures_true _).bind fun _ _ _ => (Script.ensures_true _).bind fun _ _ _ => ?_
  refine ensures_finishSensitiveTemporary.bind fun database _ checked => ?_
  exact Script.ensures_pure ⟨⟨passed.1, passed.2.2⟩, database, checked⟩

/-- An expiry is behind the creation. -/
theorem expiry_eq_ok {request : BackupExportRequest} {policy : RetentionPolicy}
    {expiresAtUnix : UInt64} (computed : expiry request policy = .ok expiresAtUnix) :
    request.createdAtUnix < expiresAtUnix := by
  obtain ⟨_, computed⟩ := refuseIf_bind_eq_ok.mp computed
  obtain ⟨bounded, computed⟩ := refuseIf_bind_eq_ok.mp computed
  cases computed
  rw [not_or, UInt64.not_le] at bounded
  exact bounded.1

/-- An export up to its envelope. -/
def BackupHost.sealExport (database : PrivacyDatabase) (workspace : WorkspaceInstanceId)
    (request : BackupExportRequest) (expectation : BackupSchemaExpectation) :
    BackupScript (Octets × VerifiedBackup) := do
  let _ ← Script.lift expectation.expectedVersion
  Script.lift (checkOpaqueId request.backupId "bkp_".toList)
  Script.refuse (request.createdAtUnix = 0) .invalidInput
  Script.lift (ensureWorkspace database.registry workspace)
  let actual ← Script.lift (host.readSchemaVersion database)
  let schemaVersion ← Script.lift (expectation.validateActual actual)
  let maximumDatabase ← Script.lift
    (presentOr (maxBackupDatabaseBytesForSchema schemaVersion) .invalidInput)
  let maximumEnvelope ← Script.lift
    (presentOr (maxBackupEnvelopeBytesForSchema schemaVersion) .invalidInput)
  Script.lift database.retentionPolicy.validate
  let expiresAtUnix ← Script.lift (expiry request database.retentionPolicy)
  let bytes ← host.snapshotBytes choices database request.backupId maximumDatabase
  host.verifySqliteSnapshotBytes choices bytes workspace database.keyEpoch schemaVersion
    request.backupId
  let envelope ← Script.lift (host.sealEnvelope choices request.backupId workspace schemaVersion
    database.keyEpoch request.createdAtUnix expiresAtUnix bytes)
  let envelopeBytes ← Script.lift (BackupHost.writeRecord BackupEnvelope.codec envelope)
  Script.refuse (maximumEnvelope < envelopeBytes.length) .invalidInput
  pure (envelopeBytes, {
    backupId := request.backupId, workspaceInstanceId := workspace
    privacyStoreSchemaVersion := schemaVersion, createdAtUnix := request.createdAtUnix
    expiresAtUnix, keyEpoch := database.keyEpoch, databaseSha256 := envelope.databaseSha256
    envelopeSha256 := (host.sha256Hex envelopeBytes).1 })

/-- An export from its envelope on. -/
def BackupHost.storeExport (database : PrivacyDatabase) (envelopeBytes : Octets)
    (verified : VerifiedBackup) : BackupScript (VerifiedBackup × PrivacyDatabase) := do
  writeAtomicNewFile (backupName verified.backupId) envelopeBytes verified.backupId
    choices.envelopeRandom
  match ← Script.settle (host.writeInitialBackupState choices verified) with
  | .ok () => pure ()
  | .error error => do
      Script.tryPerform (.uninstall (backupName verified.backupId))
      Script.throw error
  match ← Script.lift (BackupHost.insertRow choices database verified) with
  | some inserted => pure (verified, inserted)
  | none => do
      Script.tryPerform (.uninstall (backupName verified.backupId))
      Script.tryPerform (.uninstall (backupStateName verified.backupId))
      Script.throw .conflict

/-- An export seals and stores. -/
theorem exportDatabase_eq {database : PrivacyDatabase} {workspace : WorkspaceInstanceId}
    {request : BackupExportRequest} {expectation : BackupSchemaExpectation} :
    host.exportDatabaseWithSchemaExpectation choices database workspace request expectation = (do
      let (envelopeBytes, verified) ← host.sealExport choices database workspace request expectation
      host.storeExport choices database envelopeBytes verified) := by
  rw [BackupHost.sealExport]
  simp only [Script.bind_assoc]
  rfl

/-- What an export seals. -/
theorem ensures_sealExport {database : PrivacyDatabase} {workspace : WorkspaceInstanceId}
    {request : BackupExportRequest} {expectation : BackupSchemaExpectation} :
    (host.sealExport choices database workspace request expectation).Ensures BackupRoot.apply root
      fun sealed _ => sealed.2.backupId = request.backupId ∧
        sealed.2.workspaceInstanceId = workspace ∧
        expectation.expectedVersion = .ok sealed.2.privacyStoreSchemaVersion ∧
        ∃ bytes, host.snapshotImage database = .ok bytes ∧
          SealedBackup host sealed.2 bytes sealed.1 := by
  refine Script.ensures_lift_bind fun expected known => Script.ensures_lift_bind fun _ identified =>
    Script.ensures_refuse_bind fun started => Script.ensures_lift_bind fun _ _ =>
    Script.ensures_lift_bind fun actual _ => Script.ensures_lift_bind fun schemaVersion validated =>
    Script.ensures_lift_bind fun maximumDatabase database =>
    Script.ensures_lift_bind fun maximumEnvelope envelopes => Script.ensures_lift_bind fun _ _ =>
    Script.ensures_lift_bind fun expiresAtUnix expires => ?_
  refine (ensures_snapshotBytes host choices).bind fun bytes _ taken => ?_
  refine (ensures_verifySqliteSnapshotBytes host choices).bind fun _ _ verified => ?_
  refine Script.ensures_lift_bind fun record done => Script.ensures_lift_bind fun envelope written =>
    Script.ensures_refuse_bind fun short => Script.ensures_pure ?_
  have version : expectation.expectedVersion = .ok schemaVersion := by
    rw [known]
    obtain ⟨_, same, validated⟩ := bind_eq_ok.mp validated
    cases known.symm.trans same
    cases expectation with
    | current =>
        dsimp only at validated
        split_ifs at validated with equal
        cases validated
        rw [equal]
    | preMigration _ =>
        dsimp only at validated
        split_ifs at validated with _ equal
        cases validated
        rw [equal]
  refine ⟨rfl, rfl, version, bytes, taken.1, {
    valid := checkOpaqueId_eq_ok.mp identified
    sealedParts := ⟨choices, record, done, written⟩
    database := ⟨maximumDatabase, presentOr_eq_ok.mp database, taken.2⟩
    envelopes := ⟨maximumEnvelope, presentOr_eq_ok.mp envelopes, Nat.not_lt.mp short⟩
    databaseHash := ?_
    envelopeHash := rfl
    started := started
    lasts := expiry_eq_ok expires
    image := verified.1
    checked := verified.2 }⟩
  obtain ⟨_, _, _, _, _, _, _, rfl⟩ := @sealEnvelope_eq_ok host choices
    ⟨request.backupId, workspace, schemaVersion, _, _, _, bytes⟩ record done
  rfl

end Sealing

/-! ## Storing -/

section Storing

variable (host : BackupHost) (choices : BackupChoices) {root : BackupRoot}

/-- A file which is written is stored. -/
theorem ensures_writeAtomicNewFile {target backupId : Text} {bytes : Octets} {random : NameRandom} :
    (writeAtomicNewFile target bytes backupId random).Ensures BackupRoot.apply root
      fun _ final => final.Stores target bytes := by
  refine Script.ensures_current_bind (Script.ensures_refuse_bind fun _ => ?_)
  have writes : (writeNewSafeFile (writeName backupId random) bytes).Ensures BackupRoot.apply root
      fun _ final => final.staging.lookup (writeName backupId random) = some bytes := by
    refine Script.ensures_current_bind (Script.ensures_refuse_bind fun _ => ?_)
    exact (Script.ensures_true _).bind fun _ _ _ => Script.ensures_perform (AList.lookup_insert _)
  refine writes.bind fun _ written found => ?_
  have installs : (Script.perform (.install (writeName backupId random) target) () :
      Script BackupRoot BackupEffect Unit Unit).Ensures BackupRoot.apply written
        fun _ final => final.Stores target bytes := by
    refine Script.ensures_perform ?_
    rw [BackupRoot.Stores, BackupRoot.apply, found]
    exact AList.lookup_insert _
  refine installs.settle_bind (fun _ final stores => Script.ensures_perform stores)
    fun _ final => ?_
  exact ensures_finishSensitiveTemporary.imp fun _ _ => by rintro ⟨⟩

/-- The state of a backup is protected and stored. -/
theorem ensures_writeInitialBackupState {verified : VerifiedBackup} :
    (host.writeInitialBackupState choices verified).Ensures BackupRoot.apply root
      fun _ final => ∃ blob, host.protectState choices verified.initialState = .ok blob ∧
        blob.length ≤ maxProtectedBackupStateBytes ∧
        final.Stores (backupStateName verified.backupId) blob := by
  refine Script.ensures_lift_bind fun blob computed => Script.ensures_refuse_bind fun short =>
    Script.ensures_lift_bind fun _ _ => ensures_writeAtomicNewFile.imp fun _ _ stores => ?_
  exact ⟨blob, computed, Nat.not_lt.mp short, stores⟩

/-- A row is inserted when its numbers are small. -/
theorem insertRow_eq_ok {database : PrivacyDatabase} {verified : VerifiedBackup}
    {inserted : Option PrivacyDatabase}
    (computed : BackupHost.insertRow choices database verified = .ok inserted) :
    verified.createdAtUnix.toNat < 2 ^ 63 ∧ verified.expiresAtUnix.toNat < 2 ^ 63 ∧
      verified.keyEpoch.toNat < 2 ^ 63 := by
  obtain ⟨_, created, computed⟩ := bind_eq_ok.mp computed
  obtain ⟨_, expires, computed⟩ := bind_eq_ok.mp computed
  obtain ⟨_, keyed, _⟩ := bind_eq_ok.mp computed
  exact ⟨(sqlI64_eq_ok.mp created).1, (sqlI64_eq_ok.mp expires).1, (sqlI64_eq_ok.mp keyed).1⟩

/-- What an export stores. -/
theorem ensures_storeExport {database : PrivacyDatabase} {verified : VerifiedBackup}
    {envelope : Octets} (valid : validOpaqueId "bkp_".toList verified.backupId = true) :
    (host.storeExport choices database envelope verified).Ensures BackupRoot.apply root
      fun result final => result.1 = verified ∧
        ∃ blob, host.protectState choices verified.initialState = .ok blob ∧
          blob.length ≤ maxProtectedBackupStateBytes ∧
          final.Holds verified.backupId envelope blob ∧
          BackupHost.insertRow choices database verified = .ok (some result.2) := by
  refine ensures_writeAtomicNewFile.bind fun _ installed stores => ?_
  have orderly : Orderly (fun target => target = backupStateName verified.backupId)
      (host.writeInitialBackupState choices verified) := by
    rw [BackupHost.writeInitialBackupState]
    exact orderly_writeNewBackupState host choices rfl
  have keeps : (host.writeInitialBackupState choices verified).Ensures BackupRoot.apply installed
      fun _ final => final.Stores (backupName verified.backupId) envelope :=
    (orderly.keepsFile (backupName_ne_backupStateName _ _)).maintains.ensures stores
  refine ((ensures_writeInitialBackupState host choices).and keeps).settle_bind
    (fun _ final stored => ?_) fun error final => ?_
  · obtain ⟨⟨blob, computed, short, state⟩, envelope⟩ := stored
    refine Script.ensures_lift_bind fun inserted row => ?_
    cases inserted with
    | some inserted => exact Script.ensures_pure ⟨rfl, blob, computed, short, ⟨envelope, state⟩, row⟩
    | none =>
        exact (Script.ensures_true _).bind fun _ _ _ => (Script.ensures_true _).bind fun _ _ _ =>
          Script.ensures_throw
  · exact (Script.ensures_true _).bind fun _ _ _ => Script.ensures_throw

/-- What an export leaves. -/
theorem ensures_exportDatabase (ideal : host.platform.Ideal) {database : PrivacyDatabase}
    {workspace : WorkspaceInstanceId} {request : BackupExportRequest}
    {expectation : BackupSchemaExpectation} :
    (host.exportDatabaseWithSchemaExpectation choices database workspace request
      expectation).Ensures BackupRoot.apply root
      fun result final => result.1.backupId = request.backupId ∧
        result.1.workspaceInstanceId = workspace ∧
        expectation.expectedVersion = .ok result.1.privacyStoreSchemaVersion ∧
        ∃ bytes envelope blob, host.snapshotImage database = .ok bytes ∧
          Exported host result.1 bytes envelope blob ∧
          final.Holds result.1.backupId envelope blob ∧
          BackupHost.insertRow choices database result.1 = .ok (some result.2) := by
  rw [exportDatabase_eq]
  refine (ensures_sealExport host choices).bind fun made _ facts => ?_
  obtain ⟨identified, placed, version, bytes, taken, sealedBackup⟩ := facts
  refine (ensures_storeExport host choices sealedBackup.valid).imp fun result final facts => ?_
  obtain ⟨same, blob, computed, short, holds, row⟩ := facts
  obtain ⟨valid, _⟩ := protectState_eq_ok computed
  rw [same]
  refine ⟨identified, placed, version, bytes, made.1, blob, taken, {
    toSealedBackup := sealedBackup
    small := insertRow_eq_ok choices row
    keyed := (validate_eq_ok valid).2.2.2.2.2.1
    unprotected := unprotectState_protectState ideal computed
    stored := ⟨(length_protectState ideal computed).1, short⟩ }, holds, row⟩

end Storing

/-! ## Exports in which nothing fails -/

section Complete

variable {host : BackupHost} {choices : BackupChoices} {root : BackupRoot}

/-- The image of a database is copied. -/
theorem completes_snapshotBytes {database : PrivacyDatabase} {backupId : Text} {maximum : Nat}
    {bytes : Octets} (valid : validOpaqueId "bkp_".toList backupId = true)
    (taken : host.snapshotImage database = .ok bytes) (nonempty : bytes ≠ [])
    (short : bytes.length ≤ maximum) (empty : ∀ name, name ∉ root.staging) :
    (host.snapshotBytes choices database backupId maximum).Completes BackupRoot.apply root bytes
      fun final => final.backups = root.backups ∧ ∀ name, name ∉ final.staging := by
  have identified : checkOpaqueId backupId "bkp_".toList = .ok () := checkOpaqueId_eq_ok.mpr valid
  have named : temporaryPath backupId choices.snapshotRandom "sqlite".toList =
      .ok (temporaryName backupId choices.snapshotRandom "sqlite".toList) := by
    rw [temporaryPath, identified, ok_bind]
    rfl
  refine Script.completes_lift_bind named ?_
  generalize temporaryName backupId choices.snapshotRandom "sqlite".toList = path
  have creates : (Script.perform (.create path) .io : BackupScript Unit).Completes BackupRoot.apply
      root () fun final => final = root.apply (.create path) := Script.completes_perform rfl
  have writes (before : BackupRoot) : (Script.perform (.write path bytes) .database :
      BackupScript Unit).Completes BackupRoot.apply before () fun final =>
        final = before.apply (.write path bytes) := Script.completes_perform rfl
  have copies : (host.snapshotDatabase choices database path).Completes BackupRoot.apply root ()
      fun final => final.backups = root.backups ∧ final.staging.lookup path = some bytes ∧
        ∀ other ∈ final.staging, other = path ∨ ∃ sidecar : Sidecar, other = path ++ sidecar.suffix := by
    refine Script.completes_current_bind (Script.completes_refuse_bind (empty path) ?_)
    refine creates.bind fun _ created => ?_
    refine (completes_sqliteActivity _).bind fun _ opened => Script.completes_lift_bind taken ?_
    refine (writes _).bind fun _ written => ?_
    rw [written]
    refine ((completes_sqliteActivity _).and_ensures
      (ensures_sqliteActivity (AList.lookup_insert _))).imp fun final closed => ?_
    obtain ⟨⟨kept, files⟩, found⟩ := closed
    rw [created] at opened
    refine ⟨kept.trans opened.1, found, fun other among => ?_⟩
    obtain among | beside := files other among
    · obtain same | among := (AList.mem_insert _).mp among
      · exact .inl same
      · obtain among | beside := opened.2 other among
        · exact .inl (((AList.mem_insert _).mp among).resolve_right (empty other))
        · exact .inr beside
    · exact .inr beside
  refine copies.settle.bind fun copied facts => Script.completes_current_bind ?_
  obtain ⟨kept, found, files⟩ := facts
  have read : (do
      Except.ok ()
      readSafeFile (copied.staging.lookup path) maximum) = .ok bytes := by
    rw [ok_bind, found]
    exact readSafeFile_eq_ok.mpr ⟨rfl, nonempty, short⟩
  refine (completes_finishSensitiveTemporary read).imp fun final removed => ?_
  refine ⟨removed.1.trans kept, fun name among => ?_⟩
  obtain ⟨among, file, beside⟩ := removed.2 name among
  obtain same | ⟨sidecar, same⟩ := files name among
  · exact file same
  · exact beside sidecar same

/-- The version of a schema is the one which is found. -/
theorem validateActual_of_expectedVersion {expectation : BackupSchemaExpectation} {version : Int64}
    (known : expectation.expectedVersion = .ok version) :
    expectation.validateActual version = .ok version := by
  rw [BackupSchemaExpectation.validateActual, known, ok_bind]
  cases expectation with
  | current => exact if_pos rfl
  | preMigration expected =>
      rw [BackupSchemaExpectation.expectedVersion] at known
      split_ifs at known with before
      cases known
      exact (if_neg (not_not.mpr before)).trans (if_pos rfl)

section Passing

variable {database inserted : PrivacyDatabase} {verified : VerifiedBackup}
  {request : BackupExportRequest} {expectation : BackupSchemaExpectation}
  {bytes envelope blob : Octets} {record : BackupEnvelope}

/-- A database which passes the checks of an export is sealed. -/
theorem completes_sealExport (parts : SealedBackup host verified bytes envelope)
    (seals : host.sealParts choices ⟨verified.backupId, verified.workspaceInstanceId,
      verified.privacyStoreSchemaVersion, verified.keyEpoch, verified.createdAtUnix,
      verified.expiresAtUnix, bytes⟩ = .ok record)
    (written : BackupHost.writeRecord BackupEnvelope.codec record = .ok envelope)
    (requested : request.backupId = verified.backupId ∧
      request.createdAtUnix = verified.createdAtUnix ∧ database.keyEpoch = verified.keyEpoch)
    (known : expectation.expectedVersion = .ok verified.privacyStoreSchemaVersion)
    (workspace : ensureWorkspace database.registry verified.workspaceInstanceId = .ok ())
    (version : host.readSchemaVersion database = .ok verified.privacyStoreSchemaVersion)
    (policy : database.retentionPolicy.validate = .ok ())
    (expires : expiry request database.retentionPolicy = .ok verified.expiresAtUnix)
    (taken : host.snapshotImage database = .ok bytes) :
    (host.sealExport choices database verified.workspaceInstanceId request
      expectation).Completes BackupRoot.apply ⟨∅, ∅⟩ (envelope, verified) fun final =>
        final.backups = ∅ ∧ ∀ name, name ∉ final.staging := by
  obtain ⟨identified, created, keyed⟩ := requested
  obtain ⟨maximumDatabase, databases, short⟩ := parts.database
  obtain ⟨maximumEnvelope, envelopes, fits⟩ := parts.envelopes
  obtain ⟨restored, checked⟩ := parts.checked
  have hashed : record.databaseSha256 = verified.databaseSha256 := by
    obtain ⟨_, _, _, _, _, _, _, rfl⟩ := sealEnvelope_eq_ok seals
    exact parts.databaseHash.symm
  have checkedId : checkOpaqueId verified.backupId "bkp_".toList = .ok () :=
    checkOpaqueId_eq_ok.mpr parts.valid
  have long : bytes ≠ [] := List.length_pos_iff.mp (by have := parts.image.1; omega)
  have empty (name : Text) : name ∉ (∅ : Directory) := AList.notMem_empty name
  rw [BackupHost.sealExport, identified, created, keyed]
  refine Script.completes_lift_bind known ?_
  refine Script.completes_lift_bind checkedId ?_
  refine Script.completes_refuse_bind parts.started (Script.completes_lift_bind workspace ?_)
  refine Script.completes_lift_bind version ?_
  refine Script.completes_lift_bind (validateActual_of_expectedVersion known) ?_
  refine Script.completes_lift_bind (presentOr_eq_ok.mpr databases) ?_
  refine Script.completes_lift_bind (presentOr_eq_ok.mpr envelopes) ?_
  refine Script.completes_lift_bind policy (Script.completes_lift_bind expires ?_)
  refine (completes_snapshotBytes parts.valid taken long short empty).bind fun copied facts => ?_
  obtain ⟨kept, none⟩ := facts
  have verifies : (host.verifySqliteSnapshotBytes choices bytes verified.workspaceInstanceId
      verified.keyEpoch verified.privacyStoreSchemaVersion verified.backupId).Completes
      BackupRoot.apply copied () (Untouched copied) := by
    refine Script.completes_lift_bind (presentOr_eq_ok.mpr databases) ?_
    refine Script.completes_refuse_bind ?_ ?_
    · rw [not_or, not_or, Nat.not_lt, Nat.not_lt, not_not]
      exact ⟨parts.image.1, short, parts.image.2⟩
    · exact completes_copy (none _) checked fun final same => Script.completes_pure same
  refine verifies.bind fun final untouched => ?_
  refine Script.completes_lift_bind seals (Script.completes_lift_bind written ?_)
  refine Script.completes_refuse_bind (Nat.not_lt.mpr fits) ?_
  rw [hashed, ← parts.envelopeHash]
  exact Script.completes_pure ⟨untouched.1.trans kept, fun name among =>
    none name (untouched.2 name among)⟩

/-- A backup which is sealed is stored in an empty root. -/
theorem completes_storeExport (valid : validOpaqueId "bkp_".toList verified.backupId = true)
    (protects : host.protectState choices verified.initialState = .ok blob)
    (fitting : blob.length ≤ maxProtectedBackupStateBytes)
    (row : BackupHost.insertRow choices database verified = .ok (some inserted))
    (none : root.backups = ∅) (unused : ∀ name, name ∉ root.staging) :
    (host.storeExport choices database envelope verified).Completes BackupRoot.apply root
      (verified, inserted) fun final =>
        final.Holds verified.backupId envelope blob ∧ ∀ name, name ∉ final.staging := by
  have absent (name : Text) : name ∉ root.backups := by
    rw [none]
    exact AList.notMem_empty name
  refine (completes_writeAtomicNewFile (absent _) (unused _)).bind fun first wrote => ?_
  obtain ⟨installed, files⟩ := wrote
  have apart := backupName_ne_backupStateName verified.backupId verified.backupId
  have other : backupStateName verified.backupId ∉ first.backups := by
    rw [installed, AList.mem_insert, not_or]
    exact ⟨apart.symm, absent _⟩
  have checkedId : checkOpaqueId verified.backupId "bkp_".toList = .ok () :=
    checkOpaqueId_eq_ok.mpr valid
  have states : (host.writeInitialBackupState choices verified).Completes BackupRoot.apply first ()
      fun final => final.Holds verified.backupId envelope blob ∧
        ∀ name, name ∉ final.staging := by
    refine Script.completes_lift_bind protects ?_
    refine Script.completes_refuse_bind (Nat.not_lt.mpr fitting) ?_
    refine Script.completes_lift_bind checkedId ?_
    refine (completes_writeAtomicNewFile other fun among => unused _ (files _ among)).imp
      fun final wrote => ?_
    obtain ⟨last, fewer⟩ := wrote
    refine ⟨⟨?_, ?_⟩, fun name among => unused name (files name (fewer name among))⟩
    · rw [BackupRoot.Stores, last, AList.lookup_insert_ne apart, installed]
      exact AList.lookup_insert _
    · rw [BackupRoot.Stores, last]
      exact AList.lookup_insert _
  refine states.settle.bind fun final facts => ?_
  exact Script.completes_lift_bind row (Script.completes_pure facts)

end Passing

end Complete

end LawyerAssistance.Backups

import LawyerAssistance.Backups.Staging

/-!
# The encrypted backup store

The operations of `EncryptedPrivacyBackupStore` (`lifecycle.rs`, `lifecycle_backup_state.rs`) as
scripts on the files of a backup root. SHA-256, the platform and SQLite are parameters, random
bytes and the failures of SQLite are choices of the environment, and an operation which writes a
row of the registry returns the registry.
-/

namespace LawyerAssistance.Backups

open Privacy Lifecycle

/-- What the operations call: SHA-256, the platform, and SQLite with the checks of a database. -/
structure BackupHost where
  sha256Hex : Octets → Sha256Hex
  platform : CryptoPlatform
  /-- `read_privacy_store_schema_version`. -/
  readSchemaVersion : PrivacyDatabase → Except LifecycleError Int64
  /-- The image which `snapshot_database` leaves. -/
  snapshotImage : PrivacyDatabase → Except LifecycleError Octets
  /-- The database which an image is. -/
  openImage : Octets → Except LifecycleError PrivacyDatabase
  /-- `validate_sqlite_connection`. -/
  validateConnection : PrivacyDatabase → WorkspaceInstanceId → UInt64 → Int64 →
    Except LifecycleError Unit

/-- What the environment chooses for one operation. -/
structure BackupChoices where
  snapshotRandom : NameRandom
  verifyRandom : NameRandom
  restoreRandom : NameRandom
  envelopeRandom : NameRandom
  stateRandom : NameRandom
  revocationRandom : NameRandom
  snapshotActivity : List SidecarChange
  closingActivity : List SidecarChange
  verifyActivity : List SidecarChange
  restoreActivity : List SidecarChange
  dataKey : SecretKey32
  nonce : GcmNonce
  wrapRandom : Octets
  protectRandom : Octets
  copyFails : Bool
  registryFails : Bool

/-- The bytes with which a database begins. -/
def sqliteHeader : Octets := utf8 (String.ofList ("SQLite format 3".toList ++ ['\x00']))

/-- `ensure_workspace`. -/
def ensureWorkspace (registry : BackupRegistry) (expected : WorkspaceInstanceId) :
    Except LifecycleError Unit :=
  refuseIf (registry.lifecycleSchemaVersion ≠ privacyLifecycleSchemaVersion ∨
    registry.workspaceInstanceId ≠ expected.1) .environmentMismatch

/-- `detached_registry_connection`. -/
def detachedRegistry (state : ProtectedBackupState) : Except LifecycleError BackupRegistry := do
  let keyEpoch ← sqlI64 state.keyEpoch
  let createdAtUnix ← sqlI64 state.createdAtUnix
  let expiresAtUnix ← sqlI64 state.expiresAtUnix
  let revokedAtUnix ← state.revokedAtUnix.mapM sqlI64
  pure {
    lifecycleSchemaVersion := privacyLifecycleSchemaVersion
    workspaceInstanceId := state.workspaceInstanceId.1
    rows := [{
      backupId := state.backupId, envelopeSha256 := state.envelopeSha256, createdAtUnix
      expiresAtUnix, keyEpoch, state := state.state, revokedAtUnix }] }

/-- `expires_at_unix` of a request. -/
def expiry (request : BackupExportRequest) (policy : RetentionPolicy) :
    Except LifecycleError UInt64 := do
  refuseIf (2 ^ 64 ≤ request.createdAtUnix.toNat + policy.backupRetentionSeconds.toNat)
    .invalidInput
  let expiresAtUnix :=
    request.expiresAtUnix.getD (request.createdAtUnix + policy.backupRetentionSeconds)
  refuseIf (expiresAtUnix ≤ request.createdAtUnix ∨
    maxRetentionSeconds < expiresAtUnix - request.createdAtUnix) .invalidInput
  pure expiresAtUnix

/-- `validate_backup_envelope`. -/
def validateBackupEnvelope (envelope : BackupEnvelope) (backupId : Text)
    (context : BackupVerificationExpectation) (row : BackupRegistryRow) :
    Except LifecycleError Unit := do
  let maximum ← presentOr (maxBackupDatabaseBytesForSchema envelope.privacyStoreSchemaVersion)
    .backupInvalid
  refuseIf (envelope.schemaVersion ≠ encryptedBackupSchemaVersion ∨
    envelope.cryptoSuite ≠ backupCryptoSuite ∨ envelope.backupId ≠ backupId ∨
    envelope.workspaceInstanceId ≠ context.expectedWorkspaceInstanceId ∨
    envelope.privacyStoreSchemaVersion ≠ context.expectedPrivacyStoreSchemaVersion ∨
    envelope.lifecycleSchemaVersion ≠ privacyLifecycleSchemaVersion ∨
    envelope.keyEpoch ≠ context.expectedKeyEpoch ∨ envelope.keyEpoch ≠ row.keyEpoch ∨
    envelope.createdAtUnix ≠ row.createdAtUnix ∨ envelope.expiresAtUnix ≠ row.expiresAtUnix ∨
    envelope.createdAtUnix = 0 ∨ envelope.expiresAtUnix ≤ envelope.createdAtUnix ∨
    envelope.databaseBytes = 0 ∨ maximum < envelope.databaseBytes.toNat) .environmentMismatch
  [envelope.databaseSha256, envelope.wrappedDataKeySha256, envelope.ciphertextSha256].forM
    fun hash => mapError (fun _ => .backupInvalid) (validHash hash)

namespace BackupHost

variable (host : BackupHost)

/-- `strict_json_v1_from_slice`, of a record. -/
def readRecord {α : Type} (codec : Codec α) (bytes : Octets) : Except LifecycleError α :=
  presentOr ((strictJsonV1FromSlice bytes).bind codec.read) .backupInvalid

/-- `canonical_json_v1`, of a record. -/
def writeRecord {α : Type} (codec : Codec α) (value : α) : Except LifecycleError Octets :=
  mapError (fun _ => .backupInvalid) (canonicalJsonV1 (codec.write value))

/-! ## Envelopes -/

/-- `backup_aad`. -/
def backupAad (backupId : Text) (workspace : WorkspaceInstanceId) (schemaVersion : Int64)
    (keyEpoch createdAtUnix expiresAtUnix databaseBytes : UInt64)
    (databaseSha256 wrappedDataKeySha256 : Text) : Except LifecycleError Octets :=
  writeRecord BackupAad.codec {
    aadVersion := backupAadVersion, schemaVersion := encryptedBackupSchemaVersion
    cryptoSuite := backupCryptoSuite, backupId, workspaceInstanceId := workspace
    privacyStoreSchemaVersion := schemaVersion
    lifecycleSchemaVersion := privacyLifecycleSchemaVersion, keyEpoch, createdAtUnix
    expiresAtUnix, databaseBytes, databaseSha256, wrappedDataKeySha256 }

/-- The envelope of a database, sealed with a new key. -/
def sealEnvelope (choices : BackupChoices) (backupId : Text) (workspace : WorkspaceInstanceId)
    (schemaVersion : Int64) (keyEpoch createdAtUnix expiresAtUnix : UInt64) (bytes : Octets) :
    Except LifecycleError BackupEnvelope := do
  let wrapped ← mapError mapCryptoError (host.platform.wrapCaseKey choices.wrapRandom choices.dataKey)
  let databaseSha256 := (host.sha256Hex bytes).1
  let wrappedDataKeySha256 := (host.sha256Hex wrapped).1
  refuseIf (2 ^ 64 ≤ bytes.length) .invalidInput
  let databaseBytes := UInt64.ofNat bytes.length
  let aad ← backupAad backupId workspace schemaVersion keyEpoch createdAtUnix expiresAtUnix
    databaseBytes databaseSha256 wrappedDataKeySha256
  let object ← mapError mapCryptoError
    (host.platform.sealWith choices.dataKey choices.nonce bytes aad)
  pure {
    schemaVersion := encryptedBackupSchemaVersion, cryptoSuite := backupCryptoSuite, backupId
    workspaceInstanceId := workspace, privacyStoreSchemaVersion := schemaVersion
    lifecycleSchemaVersion := privacyLifecycleSchemaVersion, keyEpoch, createdAtUnix
    expiresAtUnix, databaseBytes, databaseSha256
    wrappedDataKeyBase64 := encodeBase64 wrapped, wrappedDataKeySha256
    nonceBase64 := encodeBase64 object.nonce.1
    ciphertextBase64 := encodeBase64 object.ciphertext
    ciphertextSha256 := (host.sha256Hex object.ciphertext).1
    tagBase64 := encodeBase64 object.tag.1 }

/-- The database of an envelope which is checked against a row of a registry. -/
def openEnvelope (backupId : Text) (context : BackupVerificationExpectation)
    (row : BackupRegistryRow) (envelopeBytes : Octets) :
    Except LifecycleError (Octets × VerifiedBackup) := do
  let envelopeSha256 := (host.sha256Hex envelopeBytes).1
  refuseIf (envelopeSha256 ≠ row.envelopeSha256) .backupTampered
  let envelope ← readRecord BackupEnvelope.codec envelopeBytes
  let maximumEnvelope ← presentOr
    (maxBackupEnvelopeBytesForSchema envelope.privacyStoreSchemaVersion) .backupInvalid
  let maximumDatabase ← presentOr
    (maxBackupDatabaseBytesForSchema envelope.privacyStoreSchemaVersion) .backupInvalid
  refuseIf (maximumEnvelope < envelopeBytes.length) .backupInvalid
  validateBackupEnvelope envelope backupId context row
  let wrapped ← decodeBoundedBase64 envelope.wrappedDataKeyBase64 (64 * 1024)
  refuseIf ((host.sha256Hex wrapped).1 ≠ envelope.wrappedDataKeySha256) .backupTampered
  let key ← mapError mapCryptoError (host.platform.unwrapCaseKey wrapped)
  let nonce ← decodeBoundedBase64 envelope.nonceBase64 64
  let ciphertext ← decodeBoundedBase64 envelope.ciphertextBase64 maximumDatabase
  let tag ← decodeBoundedBase64 envelope.tagBase64 64
  refuseIf ((host.sha256Hex ciphertext).1 ≠ envelope.ciphertextSha256) .backupTampered
  let object ← mapError (fun _ => .backupInvalid) (AeadSealed.fromParts nonce ciphertext tag)
  let aad ← backupAad backupId context.expectedWorkspaceInstanceId
    envelope.privacyStoreSchemaVersion envelope.keyEpoch envelope.createdAtUnix
    envelope.expiresAtUnix envelope.databaseBytes envelope.databaseSha256
    envelope.wrappedDataKeySha256
  let bytes ← mapError mapCryptoError (host.platform.openWith key object aad)
  refuseIf (bytes.length ≠ envelope.databaseBytes.toNat ∨
    (host.sha256Hex bytes).1 ≠ envelope.databaseSha256) .backupTampered
  pure (bytes, {
    backupId, workspaceInstanceId := envelope.workspaceInstanceId
    privacyStoreSchemaVersion := envelope.privacyStoreSchemaVersion
    createdAtUnix := envelope.createdAtUnix, expiresAtUnix := envelope.expiresAtUnix
    keyEpoch := envelope.keyEpoch, databaseSha256 := envelope.databaseSha256, envelopeSha256 })

/-! ## Databases -/

/-- `snapshot_database`. -/
def snapshotDatabase (choices : BackupChoices) (source : PrivacyDatabase) (path : Text) :
    BackupScript Unit := do
  let root ← Script.current
  Script.refuse (path ∈ root.staging) .unsafeFilesystem
  Script.perform (.create path) .io
  sqliteActivity path choices.snapshotActivity
  let image ← Script.lift (host.snapshotImage source)
  Script.perform (.write path image) .database
  sqliteActivity path choices.closingActivity

/-- An image is opened and checked. -/
def checkImage (bytes : Octets) (workspace : WorkspaceInstanceId) (keyEpoch : UInt64)
    (schemaVersion : Int64) : Except LifecycleError PrivacyDatabase := do
  let database ← host.openImage bytes
  host.validateConnection database workspace keyEpoch schemaVersion
  pure database

/-- `verify_sqlite_snapshot_bytes`. -/
def verifySqliteSnapshotBytes (choices : BackupChoices) (bytes : Octets)
    (workspace : WorkspaceInstanceId) (keyEpoch : UInt64) (schemaVersion : Int64)
    (backupId : Text) : BackupScript Unit := do
  let maximum ← Script.lift (presentOr (maxBackupDatabaseBytesForSchema schemaVersion)
    .backupInvalid)
  Script.refuse (bytes.length < 100 ∨ maximum < bytes.length ∨ ¬ sqliteHeader <+: bytes)
    .backupInvalid
  let path := verifyName backupId choices.verifyRandom
  writeNewSafeFile path bytes
  sqliteActivity path choices.verifyActivity
  let _ ← finishSensitiveTemporary path
    (host.checkImage bytes workspace keyEpoch schemaVersion)
  pure ()

/-! ## States -/

/-- A state as it is stored. -/
def protectState (choices : BackupChoices) (state : ProtectedBackupState) :
    Except LifecycleError Octets := do
  state.validate
  let plaintext ← writeRecord ProtectedBackupState.codec state
  mapError (fun _ => .protectedBlob)
    (host.platform.protectLocal choices.protectRandom plaintext)

/-- A state which is stored. -/
def unprotectState (blob : Octets) : Except LifecycleError ProtectedBackupState := do
  let plaintext ← mapError (fun _ => .protectedBlob) (host.platform.unprotectLocal blob)
  let state ← readRecord ProtectedBackupState.codec plaintext
  state.validate
  pure state

/-- `write_new_backup_state`. -/
def writeNewBackupState (choices : BackupChoices) (state : ProtectedBackupState) :
    BackupScript Unit := do
  let blob ← Script.lift (host.protectState choices state)
  Script.refuse (maxProtectedBackupStateBytes < blob.length) .backupInvalid
  Script.lift (checkOpaqueId state.backupId "bkp_".toList)
  writeAtomicNewFile (backupStateName state.backupId) blob state.backupId choices.stateRandom

/-- `write_initial_backup_state`. -/
def writeInitialBackupState (choices : BackupChoices) (verified : VerifiedBackup) :
    BackupScript Unit :=
  host.writeNewBackupState choices {
    schemaVersion := protectedBackupStateVersion, backupId := verified.backupId
    workspaceInstanceId := verified.workspaceInstanceId
    envelopeSha256 := verified.envelopeSha256, createdAtUnix := verified.createdAtUnix
    expiresAtUnix := verified.expiresAtUnix, keyEpoch := verified.keyEpoch
    state := activeState, revokedAtUnix := none }

/-- `load_backup_state`. -/
def loadBackupState (backupId : Text) : BackupScript ProtectedBackupState := do
  Script.lift (checkOpaqueId backupId "bkp_".toList)
  let root ← Script.current
  let blob ← Script.lift (readSafeFile (root.backups.lookup (backupStateName backupId))
    maxProtectedBackupStateBytes)
  let state ← Script.lift (host.unprotectState blob)
  Script.refuse (state.backupId ≠ backupId) .backupInvalid
  pure state

/-! ## Export -/

/-- The row which an export inserts. -/
def insertRow (choices : BackupChoices) (database : PrivacyDatabase) (verified : VerifiedBackup) :
    Except LifecycleError (Option PrivacyDatabase) := do
  let createdAtUnix ← sqlI64 verified.createdAtUnix
  let expiresAtUnix ← sqlI64 verified.expiresAtUnix
  let keyEpoch ← sqlI64 verified.keyEpoch
  if choices.registryFails = true ∨ (database.registry.row verified.backupId).isSome = true then
    pure none
  else
    pure (some { database with
      registry := { database.registry with
        rows := database.registry.rows ++ [{
          backupId := verified.backupId, envelopeSha256 := verified.envelopeSha256, createdAtUnix
          expiresAtUnix, keyEpoch, state := activeState, revokedAtUnix := none }] } })

/-- The bytes of a coherent copy of a database, which is removed again. -/
def snapshotBytes (choices : BackupChoices) (database : PrivacyDatabase) (backupId : Text)
    (maximum : Nat) : BackupScript Octets := do
  let path ← Script.lift (temporaryPath backupId choices.snapshotRandom "sqlite".toList)
  let copied ← Script.settle (host.snapshotDatabase choices database path)
  let root ← Script.current
  finishSensitiveTemporary path (do
    copied
    readSafeFile (root.staging.lookup path) maximum)

/-- `export_database_with_schema_expectation`. -/
def exportDatabaseWithSchemaExpectation (choices : BackupChoices) (database : PrivacyDatabase)
    (workspace : WorkspaceInstanceId) (request : BackupExportRequest)
    (expectation : BackupSchemaExpectation) : BackupScript (VerifiedBackup × PrivacyDatabase) := do
  let _ ← Script.lift expectation.expectedVersion
  Script.lift (checkOpaqueId request.backupId "bkp_".toList)
  Script.refuse (request.createdAtUnix = 0) .invalidInput
  Script.lift (ensureWorkspace database.registry workspace)
  let actual ← Script.lift (host.readSchemaVersion database)
  let schemaVersion ← Script.lift (expectation.validateActual actual)
  let maximumDatabase ← Script.lift
    (presentOr (maxBackupDatabaseBytesForSchema schemaVersion) .invalidInput)
  let maximumEnvelope ← Script.lift
    (presentOr (maxBackupEnvelopeBytesForSchema schemaVersion) .invalidInput)
  Script.lift database.retentionPolicy.validate
  let expiresAtUnix ← Script.lift (expiry request database.retentionPolicy)
  let bytes ← host.snapshotBytes choices database request.backupId maximumDatabase
  host.verifySqliteSnapshotBytes choices bytes workspace database.keyEpoch schemaVersion
    request.backupId
  let envelope ← Script.lift (host.sealEnvelope choices request.backupId workspace schemaVersion
    database.keyEpoch request.createdAtUnix expiresAtUnix bytes)
  let envelopeBytes ← Script.lift (writeRecord BackupEnvelope.codec envelope)
  Script.refuse (maximumEnvelope < envelopeBytes.length) .invalidInput
  writeAtomicNewFile (backupName request.backupId) envelopeBytes request.backupId
    choices.envelopeRandom
  let verified : VerifiedBackup := {
    backupId := request.backupId, workspaceInstanceId := workspace
    privacyStoreSchemaVersion := schemaVersion, createdAtUnix := request.createdAtUnix
    expiresAtUnix, keyEpoch := database.keyEpoch, databaseSha256 := envelope.databaseSha256
    envelopeSha256 := (host.sha256Hex envelopeBytes).1 }
  match ← Script.settle (host.writeInitialBackupState choices verified) with
  | .ok () => pure ()
  | .error error => do
      Script.tryPerform (.uninstall (backupName request.backupId))
      Script.throw error
  match ← Script.lift (insertRow choices database verified) with
  | some inserted => pure (verified, inserted)
  | none => do
      Script.tryPerform (.uninstall (backupName request.backupId))
      Script.tryPerform (.uninstall (backupStateName request.backupId))
      Script.throw .conflict

/-! ## Verification -/

/-- `decrypt_and_verify`. -/
def decryptAndVerify (choices : BackupChoices) (registry : BackupRegistry) (backupId : Text)
    (context : BackupVerificationExpectation) : BackupScript (Octets × VerifiedBackup) := do
  Script.lift (checkOpaqueId backupId "bkp_".toList)
  Script.refuse (context.nowUnix = 0 ∨ context.expectedKeyEpoch = 0) .invalidInput
  Script.lift (ensureWorkspace registry context.expectedWorkspaceInstanceId)
  let row ← Script.lift (presentOr (registry.row backupId) .backupNotAvailable)
  Script.refuse (row.state = revokedState) .backupRevoked
  Script.refuse (row.state ≠ activeState) .backupInvalid
  Script.refuse (row.expiresAtUnix ≤ context.nowUnix) .backupExpired
  Script.refuse (row.keyEpoch ≠ context.expectedKeyEpoch) .environmentMismatch
  let root ← Script.current
  let envelopeBytes ← Script.lift
    (readSafeFile (root.backups.lookup (backupName backupId)) maxBackupEnvelopeBytes)
  let (bytes, verified) ← Script.lift (host.openEnvelope backupId context row envelopeBytes)
  host.verifySqliteSnapshotBytes choices bytes context.expectedWorkspaceInstanceId
    context.expectedKeyEpoch context.expectedPrivacyStoreSchemaVersion backupId
  pure (bytes, verified)

/-- `verify_backup` and `verify_pre_migration_backup`, once the expectation is known. -/
def verifyBackup (choices : BackupChoices) (registry : BackupRegistry) (backupId : Text)
    (context : BackupVerificationExpectation) : BackupScript VerifiedBackup := do
  let (_, verified) ← host.decryptAndVerify choices registry backupId context
  pure verified

/-- `restore_into_empty_database_with_expectation`, with the database which it leaves. -/
def restoreIntoEmptyDatabase (choices : BackupChoices) (registry : BackupRegistry)
    (destination : Option PrivacyDatabase) (backupId : Text)
    (context : BackupVerificationExpectation) : BackupScript (VerifiedBackup × PrivacyDatabase) := do
  Script.refuse (destination.isSome = true) .conflict
  let (bytes, verified) ← host.decryptAndVerify choices registry backupId context
  let path ← Script.lift (temporaryPath backupId choices.restoreRandom "restore.sqlite".toList)
  writeNewSafeFile path bytes
  sqliteActivity path choices.restoreActivity
  let restored ← finishSensitiveTemporary path (do
    let source ← host.checkImage bytes context.expectedWorkspaceInstanceId
      context.expectedKeyEpoch context.expectedPrivacyStoreSchemaVersion
    refuseIf (choices.copyFails = true) .database
    host.validateConnection source context.expectedWorkspaceInstanceId context.expectedKeyEpoch
      context.expectedPrivacyStoreSchemaVersion
    pure source)
  pure (verified, restored)

/-- `verify_detached_backup` and `verify_detached_pre_migration_backup`. -/
def verifyDetachedBackup (choices : BackupChoices) (backupId : Text)
    (context : BackupVerificationExpectation) : BackupScript VerifiedBackup := do
  let state ← host.loadBackupState backupId
  let registry ← Script.lift (detachedRegistry state)
  host.verifyBackup choices registry backupId context

/-- `restore_detached_into_empty_database` and the restore of a coordinated rollback, once the
expectation is known. -/
def restoreDetachedIntoEmptyDatabase (choices : BackupChoices)
    (destination : Option PrivacyDatabase) (backupId : Text)
    (context : BackupVerificationExpectation) : BackupScript (VerifiedBackup × PrivacyDatabase) := do
  let state ← host.loadBackupState backupId
  let registry ← Script.lift (detachedRegistry state)
  host.restoreIntoEmptyDatabase choices registry destination backupId context

/-! ## Revocation -/

/-- `revoke_backup_state`. -/
def revokeBackupState (choices : BackupChoices) (backupId : Text) (revokedAtUnix : UInt64) :
    BackupScript Unit := do
  let state ← host.loadBackupState backupId
  Script.refuse (revokedAtUnix = 0) .invalidInput
  if state.state = revokedState then pure ()
  else do
    Script.refuse (state.state ≠ activeState) .conflict
    let blob ← Script.lift (host.protectState choices { state with
      state := revokedState, revokedAtUnix := some revokedAtUnix })
    let temporary ← Script.lift
      (temporaryPath backupId choices.revocationRandom "state.tmp".toList)
    writeNewSafeFile temporary blob
    match ← Script.settle (Script.perform (.install temporary (backupStateName backupId)) ()) with
    | .ok () => Script.perform (.check (backupStateName backupId)) .unsafeFilesystem
    | .error () => do
        let _ ← Script.settle (δ := LifecycleError) (removeSafeTemporary temporary)
        Script.throw .io

/-- The registry in which an active backup is revoked. -/
def revokeRow (choices : BackupChoices) (registry : BackupRegistry) (backupId : Text)
    (revokedAtUnix : UInt64) : Except LifecycleError BackupRegistry := do
  let revokedAtUnix ← sqlI64 revokedAtUnix
  refuseIf (choices.registryFails = true) .database
  match registry.row backupId with
  | some row =>
      if row.state = activeState then
        pure { registry with
          rows := registry.rows.map fun row =>
            if row.backupId = backupId then
              { row with state := revokedState, revokedAtUnix := some revokedAtUnix }
            else row }
      else if row.state = revokedState then pure registry
      else .error .conflict
  | none => .error .conflict

/-- `revoke_backup`. -/
def revokeBackup (choices : BackupChoices) (registry : BackupRegistry) (backupId : Text)
    (revokedAtUnix : UInt64) : BackupScript BackupRegistry := do
  Script.lift (checkOpaqueId backupId "bkp_".toList)
  Script.refuse (revokedAtUnix = 0) .invalidInput
  host.revokeBackupState choices backupId revokedAtUnix
  Script.lift (revokeRow choices registry backupId revokedAtUnix)

/-! ## Bundles -/

/-- `export_portable_bundle_from_verified`. -/
def exportPortableBundleFromVerified (backupId : Text) (verified : VerifiedBackup) :
    BackupScript Octets := do
  Script.lift (checkOpaqueId backupId "bkp_".toList)
  let maximumEnvelope ← Script.lift
    (presentOr (maxBackupEnvelopeBytesForSchema verified.privacyStoreSchemaVersion) .backupInvalid)
  let maximumPortable ← Script.lift
    (presentOr (maxPortableBackupBytesForSchema verified.privacyStoreSchemaVersion) .backupInvalid)
  let root ← Script.current
  let envelope ← Script.lift
    (readSafeFile (root.backups.lookup (backupName backupId)) maximumEnvelope)
  let blob ← Script.lift (readSafeFile (root.backups.lookup (backupStateName backupId))
    maxProtectedBackupStateBytes)
  Script.refuse ((host.sha256Hex envelope).1 ≠ verified.envelopeSha256) .backupTampered
  let bytes ← Script.lift (writeRecord PortableBackupBundle.codec {
    schemaVersion := portableBackupSchemaVersion, backupId
    envelopeSha256 := verified.envelopeSha256
    protectedStateSha256 := (host.sha256Hex blob).1, envelopeBase64 := encodeBase64 envelope
    protectedStateBase64 := encodeBase64 blob })
  Script.refuse (bytes = [] ∨ maximumPortable < bytes.length) .backupInvalid
  pure bytes

/-- `export_portable_bundle` and `export_pre_migration_portable_bundle`. -/
def exportPortableBundle (choices : BackupChoices) (backupId : Text)
    (context : BackupVerificationExpectation) : BackupScript Octets := do
  let verified ← host.verifyDetachedBackup choices backupId context
  host.exportPortableBundleFromVerified backupId verified

/-- `DecodedPortableBackupBundleV1`. -/
structure DecodedPortableBackupBundle where
  backupId : Text
  envelope : Octets
  protectedState : Octets

/-- `decode_portable_bundle`. -/
def decodePortableBundle (bundleBytes : Octets) (context : BackupVerificationContext) :
    Except LifecycleError DecodedPortableBackupBundle := do
  refuseIf (bundleBytes = [] ∨ maxPortableBackupBytes < bundleBytes.length) .backupInvalid
  let bundle ← readRecord PortableBackupBundle.codec bundleBytes
  checkOpaqueId bundle.backupId "bkp_".toList
  validHash bundle.envelopeSha256
  validHash bundle.protectedStateSha256
  refuseIf (bundle.schemaVersion ≠ portableBackupSchemaVersion) .backupInvalid
  let envelope ← decodeBoundedBase64 bundle.envelopeBase64 maxBackupEnvelopeBytes
  let blob ← decodeBoundedBase64 bundle.protectedStateBase64 maxProtectedBackupStateBytes
  let metadata ← readRecord BackupEnvelope.codec envelope
  match maxBackupEnvelopeBytesForSchema metadata.privacyStoreSchemaVersion,
      maxPortableBackupBytesForSchema metadata.privacyStoreSchemaVersion with
  | some maximumEnvelope, some maximumPortable =>
      refuseIf (maximumEnvelope < envelope.length ∨ maximumPortable < bundleBytes.length)
        .backupInvalid
  | _, _ => pure ()
  refuseIf (envelope = [] ∨ blob = [] ∨ (host.sha256Hex envelope).1 ≠ bundle.envelopeSha256 ∨
    (host.sha256Hex blob).1 ≠ bundle.protectedStateSha256) .backupTampered
  let state ← host.unprotectState blob
  refuseIf (state.backupId ≠ bundle.backupId ∨
    state.workspaceInstanceId ≠ context.expectedWorkspaceInstanceId ∨
    state.keyEpoch ≠ context.expectedKeyEpoch ∨ state.envelopeSha256 ≠ bundle.envelopeSha256 ∨
    state.state ≠ activeState ∨ state.revokedAtUnix.isSome = true ∨
    context.nowUnix < state.createdAtUnix ∨ state.expiresAtUnix ≤ context.nowUnix)
    .environmentMismatch
  pure { backupId := bundle.backupId, envelope, protectedState := blob }

/-- The two files of a bundle are installed, or the first one is removed again. -/
def installBundle (choices : BackupChoices) (decoded : DecodedPortableBackupBundle) :
    BackupScript Unit := do
  writeAtomicNewFile (backupName decoded.backupId) decoded.envelope decoded.backupId
    choices.envelopeRandom
  match ← Script.settle (writeAtomicNewFile (backupStateName decoded.backupId)
      decoded.protectedState decoded.backupId choices.stateRandom) with
  | .ok () => pure ()
  | .error error => do
      Script.tryPerform (.uninstall (backupName decoded.backupId))
      Script.throw error

/-- What was installed is verified, and is removed again when it is refused. -/
def verifyInstalled (choices : BackupChoices) (installedNew : Bool) (backupId : Text)
    (context : BackupVerificationExpectation) : BackupScript VerifiedBackup := do
  match ← Script.settle (host.verifyDetachedBackup choices backupId context) with
  | .ok verified => pure verified
  | .error error => do
      if installedNew then do
        Script.tryPerform (.uninstall (backupName backupId))
        Script.tryPerform (.uninstall (backupStateName backupId))
      Script.throw error

/-- `import_portable_bundle`. -/
def importPortableBundle (choices : BackupChoices) (bundleBytes : Octets)
    (context : BackupVerificationContext) : BackupScript VerifiedBackup := do
  let decoded ← Script.lift (host.decodePortableBundle bundleBytes context)
  installBundle choices decoded
  host.verifyInstalled choices true decoded.backupId
    (currentBackupVerificationExpectation context)

/-- What a verification of a rollback expects. -/
def rollbackExpectation (schemaVersion : Int64) (context : BackupVerificationContext) :
    Except LifecycleError BackupVerificationExpectation :=
  if schemaVersion = privacyStoreSchemaVersion then
    pure (currentBackupVerificationExpectation context)
  else if minPreMigrationSchemaVersion ≤ schemaVersion ∧
      schemaVersion ≤ maxPreMigrationSchemaVersion then
    preMigrationBackupVerificationExpectation {
      expectedWorkspaceInstanceId := context.expectedWorkspaceInstanceId
      expectedKeyEpoch := context.expectedKeyEpoch
      expectedPrivacyStoreSchemaVersion := schemaVersion, nowUnix := context.nowUnix }
  else .error .unsupportedSchema

/-- `import_portable_bundle_for_coordinated_pre_migration_restore`. -/
def importPortableBundleForRollback (choices : BackupChoices) (bundleBytes : Octets)
    (context : BackupVerificationContext) : BackupScript VerifiedBackup := do
  let decoded ← Script.lift (host.decodePortableBundle bundleBytes context)
  let envelope ← Script.lift (readRecord BackupEnvelope.codec decoded.envelope)
  let expectation ← Script.lift
    (rollbackExpectation envelope.privacyStoreSchemaVersion context)
  let root ← Script.current
  match root.backups.lookup (backupName decoded.backupId),
      root.backups.lookup (backupStateName decoded.backupId) with
  | none, none => do
      installBundle choices decoded
      host.verifyInstalled choices true decoded.backupId expectation
  | some _, some _ => do
      let envelope ← Script.lift (readSafeFile
        (root.backups.lookup (backupName decoded.backupId)) maxBackupEnvelopeBytes)
      let blob ← Script.lift (readSafeFile
        (root.backups.lookup (backupStateName decoded.backupId)) maxProtectedBackupStateBytes)
      Script.refuse (envelope ≠ decoded.envelope ∨ blob ≠ decoded.protectedState) .conflict
      host.verifyInstalled choices false decoded.backupId expectation
  | _, _ => Script.throw .conflict

end BackupHost

end LawyerAssistance.Backups

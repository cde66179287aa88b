import LawyerAssistance.Lifecycle.Types
import LawyerAssistance.Std.PaddedBase64
import Mathlib.Data.List.AList

/-!
# Types of the encrypted backups

`lifecycle.rs` and `lifecycle_backup_state.rs`: the records which a backup consists of with their
codecs, the limits for each schema of the database, and what a verification expects.
-/

namespace LawyerAssistance.Backups

open Privacy Lifecycle

/-! ## Limits -/

/-- `PRIVACY_STORE_SCHEMA_VERSION`. -/
def privacyStoreSchemaVersion : Int64 := 6

/-- `MIN_PRE_MIGRATION_PRIVACY_STORE_SCHEMA_VERSION`. -/
def minPreMigrationSchemaVersion : Int64 := 1

/-- `MAX_PRE_MIGRATION_PRIVACY_STORE_SCHEMA_VERSION`. -/
def maxPreMigrationSchemaVersion : Int64 := 5

/-- A mebibyte. -/
def mebibyte : Nat := 1024 * 1024

/-- `MAX_BACKUP_ENVELOPE_BYTES`. -/
def maxBackupEnvelopeBytes : Nat := 352 * mebibyte

/-- `MAX_PORTABLE_BACKUP_BYTES`. -/
def maxPortableBackupBytes : Nat := 416 * mebibyte

/-- `MAX_PROTECTED_BACKUP_STATE_BYTES`. -/
def maxProtectedBackupStateBytes : Nat := 64 * 1024

/-- A limit of the schemas before the migration and one of the current schema. -/
def limitForSchema (preMigration current : Nat) (schemaVersion : Int64) : Option Nat :=
  if minPreMigrationSchemaVersion ≤ schemaVersion ∧ schemaVersion ≤ maxPreMigrationSchemaVersion then
    some preMigration
  else if schemaVersion = privacyStoreSchemaVersion then some current
  else none

/-- `max_backup_database_bytes_for_schema`. -/
def maxBackupDatabaseBytesForSchema : Int64 → Option Nat :=
  limitForSchema (96 * mebibyte) (256 * mebibyte)

/-- `max_backup_envelope_bytes_for_schema`. -/
def maxBackupEnvelopeBytesForSchema : Int64 → Option Nat :=
  limitForSchema (160 * mebibyte) maxBackupEnvelopeBytes

/-- `max_portable_backup_bytes_for_schema`. -/
def maxPortableBackupBytesForSchema : Int64 → Option Nat :=
  limitForSchema (224 * mebibyte) maxPortableBackupBytes

/-! ## Records -/

/-- `ENCRYPTED_BACKUP_SCHEMA_VERSION`. -/
def encryptedBackupSchemaVersion : Text := "privacy-encrypted-backup-v1".toList

/-- `PORTABLE_BACKUP_SCHEMA_VERSION`. -/
def portableBackupSchemaVersion : Text := "privacy-portable-backup-v1".toList

/-- `PROTECTED_BACKUP_STATE_VERSION`. -/
def protectedBackupStateVersion : Text := "protected-backup-state-v1".toList

/-- `BACKUP_CRYPTO_SUITE`. -/
def backupCryptoSuite : Text := "windows-cng-aes-256-gcm-dpapi-current-user-v1".toList

/-- `BACKUP_AAD_VERSION`. -/
def backupAadVersion : Text := "backup-aad-v1".toList

/-- `BackupEnvelopeV1`. -/
structure BackupEnvelope where
  schemaVersion : Text
  cryptoSuite : Text
  backupId : Text
  workspaceInstanceId : WorkspaceInstanceId
  privacyStoreSchemaVersion : Int64
  lifecycleSchemaVersion : Int64
  keyEpoch : UInt64
  createdAtUnix : UInt64
  expiresAtUnix : UInt64
  databaseBytes : UInt64
  databaseSha256 : Text
  wrappedDataKeyBase64 : Text
  wrappedDataKeySha256 : Text
  nonceBase64 : Text
  ciphertextBase64 : Text
  ciphertextSha256 : Text
  tagBase64 : Text
  deriving DecidableEq

/-- `WorkspaceInstanceId`, serialized. -/
def workspaceCodec : Codec WorkspaceInstanceId := OpaqueId.codec "ws_".toList

/-- The codec of envelopes. -/
def BackupEnvelope.codec : Codec BackupEnvelope :=
  Fields.record
    ((Fields.one "schemaVersion" .text).also <|
      (Fields.one "cryptoSuite" .text).also <|
      (Fields.one "backupId" .text).also <|
      (Fields.one "workspaceInstanceId" workspaceCodec).also <|
      (Fields.one "privacyStoreSchemaVersion" .i64).also <|
      (Fields.one "lifecycleSchemaVersion" .i64).also <|
      (Fields.one "keyEpoch" .u64).also <|
      (Fields.one "createdAtUnix" .u64).also <|
      (Fields.one "expiresAtUnix" .u64).also <|
      (Fields.one "databaseBytes" .u64).also <|
      (Fields.one "databaseSha256" .text).also <|
      (Fields.one "wrappedDataKeyBase64" .text).also <|
      (Fields.one "wrappedDataKeySha256" .text).also <|
      (Fields.one "nonceBase64" .text).also <|
      (Fields.one "ciphertextBase64" .text).also <|
      (Fields.one "ciphertextSha256" .text).also
      (Fields.one "tagBase64" .text))
    (by decide)
    (fun (schemaVersion, cryptoSuite, backupId, workspaceInstanceId,
        privacyStoreSchemaVersion, lifecycleSchemaVersion, keyEpoch, createdAtUnix,
        expiresAtUnix, databaseBytes, databaseSha256, wrappedDataKeyBase64,
        wrappedDataKeySha256, nonceBase64, ciphertextBase64, ciphertextSha256, tagBase64) =>
      { schemaVersion, cryptoSuite, backupId, workspaceInstanceId, privacyStoreSchemaVersion,
        lifecycleSchemaVersion, keyEpoch, createdAtUnix, expiresAtUnix, databaseBytes,
        databaseSha256, wrappedDataKeyBase64, wrappedDataKeySha256, nonceBase64,
        ciphertextBase64, ciphertextSha256, tagBase64 })
    (fun value => (value.schemaVersion, value.cryptoSuite, value.backupId,
      value.workspaceInstanceId, value.privacyStoreSchemaVersion,
      value.lifecycleSchemaVersion, value.keyEpoch, value.createdAtUnix, value.expiresAtUnix,
      value.databaseBytes, value.databaseSha256, value.wrappedDataKeyBase64,
      value.wrappedDataKeySha256, value.nonceBase64, value.ciphertextBase64,
      value.ciphertextSha256, value.tagBase64))
    (fun _ => rfl)

/-- `BackupAadV1`. -/
structure BackupAad where
  aadVersion : Text
  schemaVersion : Text
  cryptoSuite : Text
  backupId : Text
  workspaceInstanceId : WorkspaceInstanceId
  privacyStoreSchemaVersion : Int64
  lifecycleSchemaVersion : Int64
  keyEpoch : UInt64
  createdAtUnix : UInt64
  expiresAtUnix : UInt64
  databaseBytes : UInt64
  databaseSha256 : Text
  wrappedDataKeySha256 : Text

/-- The codec of additional data. -/
def BackupAad.codec : Codec BackupAad :=
  Fields.record
    ((Fields.one "aadVersion" .text).also <|
      (Fields.one "schemaVersion" .text).also <|
      (Fields.one "cryptoSuite" .text).also <|
      (Fields.one "backupId" .text).also <|
      (Fields.one "workspaceInstanceId" workspaceCodec).also <|
      (Fields.one "privacyStoreSchemaVersion" .i64).also <|
      (Fields.one "lifecycleSchemaVersion" .i64).also <|
      (Fields.one "keyEpoch" .u64).also <|
      (Fields.one "createdAtUnix" .u64).also <|
      (Fields.one "expiresAtUnix" .u64).also <|
      (Fields.one "databaseBytes" .u64).also <|
      (Fields.one "databaseSha256" .text).also
      (Fields.one "wrappedDataKeySha256" .text))
    (by decide)
    (fun (aadVersion, schemaVersion, cryptoSuite, backupId, workspaceInstanceId,
        privacyStoreSchemaVersion, lifecycleSchemaVersion, keyEpoch, createdAtUnix,
        expiresAtUnix, databaseBytes, databaseSha256, wrappedDataKeySha256) =>
      { aadVersion, schemaVersion, cryptoSuite, backupId, workspaceInstanceId,
        privacyStoreSchemaVersion, lifecycleSchemaVersion, keyEpoch, createdAtUnix,
        expiresAtUnix, databaseBytes, databaseSha256, wrappedDataKeySha256 })
    (fun value => (value.aadVersion, value.schemaVersion, value.cryptoSuite, value.backupId,
      value.workspaceInstanceId, value.privacyStoreSchemaVersion,
      value.lifecycleSchemaVersion, value.keyEpoch, value.createdAtUnix, value.expiresAtUnix,
      value.databaseBytes, value.databaseSha256, value.wrappedDataKeySha256))
    (fun _ => rfl)

/-- `ProtectedBackupStateV1`. -/
structure ProtectedBackupState where
  schemaVersion : Text
  backupId : Text
  workspaceInstanceId : WorkspaceInstanceId
  envelopeSha256 : Text
  createdAtUnix : UInt64
  expiresAtUnix : UInt64
  keyEpoch : UInt64
  state : Text
  revokedAtUnix : Option UInt64
  deriving DecidableEq

/-- The codec of protected states. -/
def ProtectedBackupState.codec : Codec ProtectedBackupState :=
  Fields.record
    ((Fields.one "schemaVersion" .text).also <|
      (Fields.one "backupId" .text).also <|
      (Fields.one "workspaceInstanceId" workspaceCodec).also <|
      (Fields.one "envelopeSha256" .text).also <|
      (Fields.one "createdAtUnix" .u64).also <|
      (Fields.one "expiresAtUnix" .u64).also <|
      (Fields.one "keyEpoch" .u64).also <|
      (Fields.one "state" .text).also
      (Fields.one "revokedAtUnix" (Codec.u64.option Codec.u64_solid)))
    (by decide)
    (fun (schemaVersion, backupId, workspaceInstanceId, envelopeSha256, createdAtUnix,
        expiresAtUnix, keyEpoch, state, revokedAtUnix) =>
      { schemaVersion, backupId, workspaceInstanceId, envelopeSha256, createdAtUnix,
        expiresAtUnix, keyEpoch, state, revokedAtUnix })
    (fun value => (value.schemaVersion, value.backupId, value.workspaceInstanceId,
      value.envelopeSha256, value.createdAtUnix, value.expiresAtUnix, value.keyEpoch,
      value.state, value.revokedAtUnix))
    (fun _ => rfl)

/-- `PortableBackupBundleV1`. -/
structure PortableBackupBundle where
  schemaVersion : Text
  backupId : Text
  envelopeSha256 : Text
  protectedStateSha256 : Text
  envelopeBase64 : Text
  protectedStateBase64 : Text
  deriving DecidableEq

/-- The codec of bundles. -/
def PortableBackupBundle.codec : Codec PortableBackupBundle :=
  Fields.record
    ((Fields.one "schemaVersion" .text).also <|
      (Fields.one "backupId" .text).also <|
      (Fields.one "envelopeSha256" .text).also <|
      (Fields.one "protectedStateSha256" .text).also <|
      (Fields.one "envelopeBase64" .text).also
      (Fields.one "protectedStateBase64" .text))
    (by decide)
    (fun (schemaVersion, backupId, envelopeSha256, protectedStateSha256, envelopeBase64,
        protectedStateBase64) =>
      { schemaVersion, backupId, envelopeSha256, protectedStateSha256, envelopeBase64,
        protectedStateBase64 })
    (fun value => (value.schemaVersion, value.backupId, value.envelopeSha256,
      value.protectedStateSha256, value.envelopeBase64, value.protectedStateBase64))
    (fun _ => rfl)

/-- `VerifiedBackupV1`. -/
structure VerifiedBackup where
  backupId : Text
  workspaceInstanceId : WorkspaceInstanceId
  privacyStoreSchemaVersion : Int64
  createdAtUnix : UInt64
  expiresAtUnix : UInt64
  keyEpoch : UInt64
  databaseSha256 : Text
  envelopeSha256 : Text
  deriving DecidableEq

/-- The state of a backup which can be restored. -/
def activeState : Text := "active".toList

/-- The state of a backup which is withdrawn. -/
def revokedState : Text := "revoked".toList

/-- `ProtectedBackupStateV1::validate`. -/
def ProtectedBackupState.validate (state : ProtectedBackupState) : Except LifecycleError Unit := do
  checkOpaqueId state.backupId "bkp_".toList
  validHash state.envelopeSha256
  refuseIf (state.schemaVersion ≠ protectedBackupStateVersion ∨ state.createdAtUnix = 0 ∨
    state.expiresAtUnix ≤ state.createdAtUnix ∨ state.keyEpoch = 0 ∨
    (state.state ≠ activeState ∧ state.state ≠ revokedState) ∨
    (state.state = activeState ∧ state.revokedAtUnix.isSome = true) ∨
    (state.state = revokedState ∧ state.revokedAtUnix.isNone = true)) .backupInvalid

/-! ## Databases -/

/-- A row of `privacy_backup_registry`. -/
structure BackupRegistryRow where
  backupId : Text
  envelopeSha256 : Text
  createdAtUnix : UInt64
  expiresAtUnix : UInt64
  keyEpoch : UInt64
  state : Text
  revokedAtUnix : Option UInt64
  deriving DecidableEq

/-- The rows of a database which a verification reads: the workspace of its metadata and
`privacy_backup_registry`. -/
structure BackupRegistry where
  lifecycleSchemaVersion : Int64
  workspaceInstanceId : Text
  rows : List BackupRegistryRow
  deriving DecidableEq

/-- The row of a backup. -/
def BackupRegistry.row (registry : BackupRegistry) (backupId : Text) : Option BackupRegistryRow :=
  registry.rows.find? fun row => row.backupId = backupId

/-- A privacy database: the rows which the backups read and write, and what else it contains. -/
structure PrivacyDatabase where
  registry : BackupRegistry
  keyEpoch : UInt64
  retentionPolicy : RetentionPolicy
  content : Octets
  deriving DecidableEq

/-! ## Requests and expectations -/

/-- `BackupExportRequestV1`. -/
structure BackupExportRequest where
  backupId : Text
  createdAtUnix : UInt64
  expiresAtUnix : Option UInt64

/-- `BackupVerificationContextV1`. -/
structure BackupVerificationContext where
  expectedWorkspaceInstanceId : WorkspaceInstanceId
  expectedKeyEpoch : UInt64
  nowUnix : UInt64

/-- `PreMigrationBackupVerificationContextV1`. -/
structure PreMigrationBackupVerificationContext where
  expectedWorkspaceInstanceId : WorkspaceInstanceId
  expectedKeyEpoch : UInt64
  expectedPrivacyStoreSchemaVersion : Int64
  nowUnix : UInt64

/-- `BackupVerificationExpectation`. -/
structure BackupVerificationExpectation where
  expectedWorkspaceInstanceId : WorkspaceInstanceId
  expectedKeyEpoch : UInt64
  expectedPrivacyStoreSchemaVersion : Int64
  nowUnix : UInt64

/-- `BackupSchemaExpectation`. -/
inductive BackupSchemaExpectation where
  | current
  | preMigration (version : Int64)

/-- `BackupSchemaExpectation::expected_version`. -/
def BackupSchemaExpectation.expectedVersion : BackupSchemaExpectation → Except LifecycleError Int64
  | .current => .ok privacyStoreSchemaVersion
  | .preMigration version =>
      if minPreMigrationSchemaVersion ≤ version ∧ version ≤ maxPreMigrationSchemaVersion then
        .ok version
      else .error .invalidInput

/-- `BackupSchemaExpectation::validate_actual`. -/
def BackupSchemaExpectation.validateActual (expectation : BackupSchemaExpectation)
    (actual : Int64) : Except LifecycleError Int64 := do
  let expected ← expectation.expectedVersion
  match expectation with
  | .current => if actual = expected then pure actual else .error .unsupportedSchema
  | .preMigration _ =>
      if ¬ (minPreMigrationSchemaVersion ≤ actual ∧ actual ≤ maxPreMigrationSchemaVersion) then
        .error .unsupportedSchema
      else if actual = expected then pure actual
      else .error .environmentMismatch

/-- `current_backup_verification_expectation`. -/
def currentBackupVerificationExpectation (context : BackupVerificationContext) :
    BackupVerificationExpectation where
  expectedWorkspaceInstanceId := context.expectedWorkspaceInstanceId
  expectedKeyEpoch := context.expectedKeyEpoch
  expectedPrivacyStoreSchemaVersion := privacyStoreSchemaVersion
  nowUnix := context.nowUnix

/-- `pre_migration_backup_verification_expectation`. -/
def preMigrationBackupVerificationExpectation (context : PreMigrationBackupVerificationContext) :
    Except LifecycleError BackupVerificationExpectation := do
  let expectedPrivacyStoreSchemaVersion ←
    (BackupSchemaExpectation.preMigration
      context.expectedPrivacyStoreSchemaVersion).expectedVersion
  pure {
    expectedWorkspaceInstanceId := context.expectedWorkspaceInstanceId
    expectedKeyEpoch := context.expectedKeyEpoch
    expectedPrivacyStoreSchemaVersion
    nowUnix := context.nowUnix }

/-! ## Texts of bytes -/

/-- `BASE64_STANDARD.encode`. -/
def encodeBase64 (bytes : Octets) : Text := Base64.encode bytes

/-- `BASE64_STANDARD.decode`. -/
def decodeBase64 (value : Text) : Option Octets := Base64.decode value

/-- `decode_bounded_base64`. -/
def decodeBoundedBase64 (value : Text) (maxBytes : Nat) : Except LifecycleError Octets := do
  refuseIf (value = [] ∨ maxBytes * 2 < Text.byteLength value) .backupInvalid
  let bytes ← presentOr (decodeBase64 value) .backupInvalid
  refuseIf (bytes = [] ∨ maxBytes < bytes.length) .backupInvalid
  pure bytes

end LawyerAssistance.Backups

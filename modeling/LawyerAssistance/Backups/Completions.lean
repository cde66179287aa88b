import LawyerAssistance.Backups.Envelopes
import LawyerAssistance.Backups.StoredFiles

/-!
# Executions in which nothing fails

When every effect succeeds, a verification of the files of a backup which is not revoked and not
expired ends with the backup, and leaves the files as they are.
-/

namespace LawyerAssistance.Backups

open Privacy Lifecycle

/-! ## Temporary files -/

/-- The same files in `backups`, and no new file in `.staging`. -/
def Untouched (root final : BackupRoot) : Prop :=
  final.backups = root.backups ∧ ∀ name ∈ final.staging, name ∈ root.staging

theorem Untouched.refl (root : BackupRoot) : Untouched root root := ⟨rfl, fun _ => id⟩

theorem Untouched.trans {first second third : BackupRoot} (before : Untouched first second)
    (after : Untouched second third) : Untouched first third :=
  ⟨after.1.trans before.1, fun name among => before.2 name (after.2 name among)⟩

section Temporary

variable {root : BackupRoot} {path : Text}

/-- A temporary file is removed. -/
theorem completes_removeSafeTemporary (name : Text) :
    (removeSafeTemporary name).Completes BackupRoot.apply root () fun final =>
      final.backups = root.backups ∧ ∀ other ∈ final.staging, other ≠ name ∧ other ∈ root.staging := by
  refine Script.completes_current_bind ?_
  by_cases present : name ∈ root.staging
  · rw [if_pos present]
    exact Script.completes_perform ⟨rfl, fun other => AList.mem_erase.mp⟩
  · rw [if_neg present]
    refine Script.completes_pure ⟨rfl, fun other among => ⟨?_, among⟩⟩
    rintro rfl
    exact present among

/-- A database and what is beside it are removed. -/
theorem completes_finishSensitiveTemporary {α : Type} {result : Except LifecycleError α} {value : α}
    (same : result = .ok value) :
    (finishSensitiveTemporary path result).Completes BackupRoot.apply root value fun final =>
      final.backups = root.backups ∧ ∀ other ∈ final.staging, other ∈ root.staging ∧
        other ≠ path ∧ ∀ sidecar : Sidecar, other ≠ path ++ sidecar.suffix := by
  have removes : (removeSensitiveSqliteTemporary path).Completes BackupRoot.apply root ()
      fun final => final.backups = root.backups ∧ ∀ other ∈ final.staging, other ∈ root.staging ∧
        other ≠ path ∧ ∀ sidecar : Sidecar, other ≠ path ++ sidecar.suffix := by
    refine (completes_removeSafeTemporary path).bind fun first kept => ?_
    refine (completes_removeSafeTemporary _).bind fun second kept' => ?_
    refine (completes_removeSafeTemporary _).bind fun third kept'' => ?_
    refine (completes_removeSafeTemporary _).imp fun last keptLast => ?_
    refine ⟨keptLast.1.trans (kept''.1.trans (kept'.1.trans kept.1)), fun other among => ?_⟩
    obtain ⟨shm, among⟩ := keptLast.2 other among
    obtain ⟨wal, among⟩ := kept''.2 other among
    obtain ⟨journal, among⟩ := kept'.2 other among
    obtain ⟨file, among⟩ := kept.2 other among
    refine ⟨among, file, fun sidecar => ?_⟩
    cases sidecar with
    | journal => exact journal
    | wal => exact wal
    | shm => exact shm
  exact removes.bind fun final kept => Script.completes_lift same kept

/-- SQLite has files beside a database. -/
theorem completes_sqliteActivity (changes : List SidecarChange) :
    (sqliteActivity path changes).Completes BackupRoot.apply root () fun final =>
      final.backups = root.backups ∧ ∀ other ∈ final.staging,
        other ∈ root.staging ∨ ∃ sidecar : Sidecar, other = path ++ sidecar.suffix := by
  induction changes generalizing root with
  | nil => exact Script.completes_pure ⟨rfl, fun other among => .inl among⟩
  | cons change rest inductionHypothesis =>
      rw [sqliteActivity]
      dsimp only
      split_ifs
      · obtain ⟨final, ends, kept, files⟩ :=
          @inductionHypothesis (root.apply (.create (path ++ change.sidecar.suffix)))
        refine ⟨final, ends, kept, fun other among => ?_⟩
        obtain among | beside := files other among
        · obtain rfl | among := (AList.mem_insert _).mp among
          · exact .inr ⟨change.sidecar, rfl⟩
          · exact .inl among
        · exact .inr beside
      · obtain ⟨final, ends, kept, files⟩ :=
          @inductionHypothesis (root.apply (.remove (path ++ change.sidecar.suffix)))
        refine ⟨final, ends, kept, fun other among => ?_⟩
        exact (files other among).imp_left fun among => (AList.mem_erase.mp among).2

/-- A new file is created and written. -/
theorem completes_writeNewSafeFile {bytes : Octets} (new : path ∉ root.staging) :
    (writeNewSafeFile path bytes).Completes BackupRoot.apply root () fun final =>
      final.backups = root.backups ∧ final.staging.lookup path = some bytes ∧
        ∀ other ∈ final.staging, other = path ∨ other ∈ root.staging := by
  have creates : (Script.perform (.create path) .io : BackupScript Unit).Completes BackupRoot.apply
      root () fun final => final = root.apply (.create path) := Script.completes_perform rfl
  refine Script.completes_current_bind (Script.completes_refuse_bind new ?_)
  refine creates.bind fun _ same => ?_
  rw [same]
  refine Script.completes_perform ⟨rfl, AList.lookup_insert _, fun other among => ?_⟩
  obtain rfl | among := (AList.mem_insert _).mp among
  · exact .inl rfl
  · exact (AList.mem_insert _).mp among

/-- A copy is written, used and removed. -/
theorem completes_copy {α γ : Type} {bytes : Octets} {changes : List SidecarChange}
    {result : Except LifecycleError α} {value : α} {next : α → BackupScript γ} {last : γ}
    {facts : BackupRoot → Prop} (new : path ∉ root.staging) (same : result = .ok value)
    (second : ∀ final, Untouched root final →
      (next value).Completes BackupRoot.apply final last facts) :
    (do
      writeNewSafeFile path bytes
      sqliteActivity path changes
      let value ← finishSensitiveTemporary path result
      next value).Completes BackupRoot.apply root last facts := by
  refine (completes_writeNewSafeFile new).bind fun written wrote => ?_
  refine (completes_sqliteActivity changes).bind fun used uses => ?_
  refine (completes_finishSensitiveTemporary same).bind fun final removed => second final ?_
  refine ⟨removed.1.trans (uses.1.trans wrote.1), fun other among => ?_⟩
  obtain ⟨among, file, beside⟩ := removed.2 other among
  obtain among | ⟨sidecar, same⟩ := uses.2 other among
  · exact (wrote.2.2 other among).resolve_left file
  · exact absurd same (beside sidecar)

end Temporary

/-- A new file is installed. -/
theorem completes_writeAtomicNewFile {root : BackupRoot} {target backupId : Text} {bytes : Octets}
    {random : NameRandom} (new : target ∉ root.backups)
    (unused : writeName backupId random ∉ root.staging) :
    (writeAtomicNewFile target bytes backupId random).Completes BackupRoot.apply root () fun final =>
      final.backups = root.backups.insert target bytes ∧
        ∀ name ∈ final.staging, name ∈ root.staging := by
  refine Script.completes_current_bind (Script.completes_refuse_bind new ?_)
  refine (completes_writeNewSafeFile unused).bind fun written wrote => ?_
  obtain ⟨kept, found, files⟩ := wrote
  have moved : written.apply (.install (writeName backupId random) target) =
      ⟨written.staging.erase (writeName backupId random), written.backups.insert target bytes⟩ := by
    rw [BackupRoot.apply, found]
  have installs : (Script.perform (.install (writeName backupId random) target) () :
      Script BackupRoot BackupEffect Unit Unit).Completes BackupRoot.apply written () fun final =>
        final.backups = root.backups.insert target bytes ∧
          ∀ name ∈ final.staging, name ∈ root.staging := by
    refine Script.completes_perform ?_
    rw [moved, kept]
    refine ⟨rfl, fun name among => ?_⟩
    obtain ⟨different, among⟩ := AList.mem_erase.mp among
    exact (files name among).resolve_left different
  exact installs.settle.bind fun final facts => Script.completes_perform facts

/-! ## Backups which were exported -/

/-- What is known of a backup which was sealed: what was sealed, what its envelope contains, and
that they passed the checks of an export. -/
structure SealedBackup (host : BackupHost) (verified : VerifiedBackup) (bytes envelope : Octets) :
    Prop where
  valid : validOpaqueId "bkp_".toList verified.backupId = true
  sealedParts : ∃ choices record,
    host.sealParts choices ⟨verified.backupId, verified.workspaceInstanceId,
      verified.privacyStoreSchemaVersion, verified.keyEpoch, verified.createdAtUnix,
      verified.expiresAtUnix, bytes⟩ = .ok record ∧
    BackupHost.writeRecord BackupEnvelope.codec record = .ok envelope
  database : ∃ maximum,
    maxBackupDatabaseBytesForSchema verified.privacyStoreSchemaVersion = some maximum ∧
      bytes.length ≤ maximum
  envelopes : ∃ maximum,
    maxBackupEnvelopeBytesForSchema verified.privacyStoreSchemaVersion = some maximum ∧
      envelope.length ≤ maximum
  databaseHash : verified.databaseSha256 = (host.sha256Hex bytes).1
  envelopeHash : verified.envelopeSha256 = (host.sha256Hex envelope).1
  started : verified.createdAtUnix ≠ 0
  lasts : verified.createdAtUnix < verified.expiresAtUnix
  image : 100 ≤ bytes.length ∧ sqliteHeader <+: bytes
  checked : ∃ database, host.checkImage bytes verified.workspaceInstanceId verified.keyEpoch
    verified.privacyStoreSchemaVersion = .ok database

/-- The state of a backup which is not revoked. -/
def VerifiedBackup.initialState (verified : VerifiedBackup) : ProtectedBackupState where
  schemaVersion := protectedBackupStateVersion
  backupId := verified.backupId
  workspaceInstanceId := verified.workspaceInstanceId
  envelopeSha256 := verified.envelopeSha256
  createdAtUnix := verified.createdAtUnix
  expiresAtUnix := verified.expiresAtUnix
  keyEpoch := verified.keyEpoch
  state := activeState
  revokedAtUnix := none

/-- The row of a backup which is not revoked. -/
def VerifiedBackup.row (verified : VerifiedBackup) : BackupRegistryRow where
  backupId := verified.backupId
  envelopeSha256 := verified.envelopeSha256
  createdAtUnix := verified.createdAtUnix
  expiresAtUnix := verified.expiresAtUnix
  keyEpoch := verified.keyEpoch
  state := activeState
  revokedAtUnix := none

/-- The registry of a backup alone. -/
def VerifiedBackup.registry (verified : VerifiedBackup) : BackupRegistry where
  lifecycleSchemaVersion := privacyLifecycleSchemaVersion
  workspaceInstanceId := verified.workspaceInstanceId.1
  rows := [verified.row]

/-- What is known of a backup which was exported, with its state. -/
structure Exported (host : BackupHost) (verified : VerifiedBackup) (bytes envelope blob : Octets) :
    Prop extends SealedBackup host verified bytes envelope where
  small : verified.createdAtUnix.toNat < 2 ^ 63 ∧ verified.expiresAtUnix.toNat < 2 ^ 63 ∧
    verified.keyEpoch.toNat < 2 ^ 63
  keyed : verified.keyEpoch ≠ 0
  unprotected : host.unprotectState blob = .ok verified.initialState
  stored : blob ≠ [] ∧ blob.length ≤ maxProtectedBackupStateBytes

/-- The files of a backup are in `backups`. -/
def BackupRoot.Holds (root : BackupRoot) (backupId : Text) (envelope blob : Octets) : Prop :=
  root.Stores (backupName backupId) envelope ∧ root.Stores (backupStateName backupId) blob

/-- What a verification of a backup expects at a time. -/
def VerifiedBackup.expectation (verified : VerifiedBackup) (nowUnix : UInt64) :
    BackupVerificationExpectation where
  expectedWorkspaceInstanceId := verified.workspaceInstanceId
  expectedKeyEpoch := verified.keyEpoch
  expectedPrivacyStoreSchemaVersion := verified.privacyStoreSchemaVersion
  nowUnix := nowUnix

namespace Exported

variable {host : BackupHost} {verified : VerifiedBackup} {bytes envelope blob : Octets}
  {root : BackupRoot} {nowUnix : UInt64} {choices : BackupChoices}

theorem envelope_ne_nil (exported : Exported host verified bytes envelope blob) : envelope ≠ [] := by
  obtain ⟨_, _, _, written⟩ := exported.sealedParts
  exact writeRecord_ne_nil (by decide) written

/-- The envelope is opened, against a row which records the backup. -/
theorem opens (exported : Exported host verified bytes envelope blob) (ideal : host.platform.Ideal)
    {row : BackupRegistryRow} (hash : row.envelopeSha256 = verified.envelopeSha256)
    (keyEpoch : row.keyEpoch = verified.keyEpoch)
    (createdAtUnix : row.createdAtUnix = verified.createdAtUnix)
    (expiresAtUnix : row.expiresAtUnix = verified.expiresAtUnix) :
    host.openEnvelope verified.backupId (verified.expectation nowUnix) row envelope =
      .ok (bytes, verified) := by
  obtain ⟨choices, record, done, written⟩ := exported.sealedParts
  obtain ⟨maximumDatabase, database, admitted⟩ := exported.database
  obtain ⟨maximumEnvelope, envelopes, short⟩ := exported.envelopes
  refine (openEnvelope_sealEnvelope ideal done written database admitted envelopes short
    exported.started exported.lasts rfl rfl rfl (hash.trans exported.envelopeHash) keyEpoch
    createdAtUnix expiresAtUnix).trans ?_
  rw [← exported.databaseHash, ← exported.envelopeHash]

/-- The registry which the state of the backup stands for has its row. -/
theorem detached (exported : Exported host verified bytes envelope blob) :
    detachedRegistry verified.initialState = .ok verified.registry := by
  obtain ⟨created, expires, keyed⟩ := exported.small
  refine bind_eq_ok.mpr ⟨_, sqlI64_eq_ok.mpr ⟨keyed, rfl⟩, ?_⟩
  refine bind_eq_ok.mpr ⟨_, sqlI64_eq_ok.mpr ⟨created, rfl⟩, ?_⟩
  exact bind_eq_ok.mpr ⟨_, sqlI64_eq_ok.mpr ⟨expires, rfl⟩, rfl⟩

/-- The copy which a verification makes passes the checks. -/
theorem completes_verifySqlite (exported : Exported host verified bytes envelope blob)
    (new : verifyName verified.backupId choices.verifyRandom ∉ root.staging) :
    (host.verifySqliteSnapshotBytes choices bytes verified.workspaceInstanceId verified.keyEpoch
      verified.privacyStoreSchemaVersion verified.backupId).Completes BackupRoot.apply root ()
      (Untouched root) := by
  obtain ⟨maximum, database, admitted⟩ := exported.database
  obtain ⟨restored, checked⟩ := exported.checked
  refine Script.completes_lift_bind (presentOr_eq_ok.mpr database) ?_
  refine Script.completes_refuse_bind ?_ ?_
  · rw [not_or, not_or, Nat.not_lt, Nat.not_lt, not_not]
    exact ⟨exported.image.1, admitted, exported.image.2⟩
  · exact completes_copy new checked fun final untouched => Script.completes_pure untouched

/-- A backup is decrypted and verified against a registry with its active row. -/
theorem completes_decryptAndVerify (exported : Exported host verified bytes envelope blob)
    (ideal : host.platform.Ideal) {registry : BackupRegistry} {row : BackupRegistryRow}
    (workspace : ensureWorkspace registry verified.workspaceInstanceId = .ok ())
    (found : registry.row verified.backupId = some row) (active : row.state = activeState)
    (hash : row.envelopeSha256 = verified.envelopeSha256)
    (keyEpoch : row.keyEpoch = verified.keyEpoch)
    (createdAtUnix : row.createdAtUnix = verified.createdAtUnix)
    (expiresAtUnix : row.expiresAtUnix = verified.expiresAtUnix)
    (stores : root.Stores (backupName verified.backupId) envelope)
    (began : verified.createdAtUnix ≤ nowUnix) (before : nowUnix < verified.expiresAtUnix)
    (new : verifyName verified.backupId choices.verifyRandom ∉ root.staging) :
    (host.decryptAndVerify choices registry verified.backupId
      (verified.expectation nowUnix)).Completes BackupRoot.apply root (bytes, verified)
      (Untouched root) := by
  obtain ⟨_, envelopes, short⟩ := exported.envelopes
  have identified : checkOpaqueId verified.backupId "bkp_".toList = .ok () :=
    checkOpaqueId_eq_ok.mpr exported.valid
  have now : nowUnix ≠ 0 := by
    rintro rfl
    exact exported.started (UInt64.le_antisymm began (UInt64.zero_le))
  have short : envelope.length ≤ maxBackupEnvelopeBytes := by
    obtain ⟨_, rfl⟩ | ⟨_, rfl⟩ := limitForSchema_eq_some.mp envelopes
    · exact short.trans (by decide)
    · exact short
  have read : readSafeFile (root.backups.lookup (backupName verified.backupId))
      maxBackupEnvelopeBytes = .ok envelope :=
    readSafeFile_eq_ok.mpr ⟨stores, exported.envelope_ne_nil, short⟩
  refine Script.completes_lift_bind identified (Script.completes_refuse_bind ?_ ?_)
  · rintro (zero | zero)
    · exact now zero
    · exact exported.keyed zero
  refine Script.completes_lift_bind workspace ?_
  refine Script.completes_lift_bind (presentOr_eq_ok.mpr found) ?_
  refine Script.completes_refuse_bind (by rw [active]; decide) ?_
  refine Script.completes_refuse_bind (not_not.mpr active) ?_
  refine Script.completes_refuse_bind ?_ (Script.completes_refuse_bind (not_not.mpr keyEpoch) ?_)
  · rw [expiresAtUnix, UInt64.not_le]
    exact before
  refine Script.completes_current_bind (Script.completes_lift_bind read ?_)
  refine Script.completes_lift_bind
    (exported.opens ideal hash keyEpoch createdAtUnix expiresAtUnix) ?_
  exact (exported.completes_verifySqlite new).bind fun final untouched =>
    Script.completes_pure untouched

end Exported

end LawyerAssistance.Backups

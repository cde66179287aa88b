import LawyerAssistance.Backups.Exports

/-!
# Portable bundles

A backup which was exported and is not revoked is moved to an empty root: its bundle fits the
limits of its schema, is decoded to the same files, is installed and verified, and is restored. A
bundle which is accepted is made of what an export sealed.
-/

namespace LawyerAssistance.Backups

open Privacy Lifecycle

/-! ## The operations of a schema -/

/-- What a verification expects of a backup which was exported for a schema. -/
def BackupSchemaExpectation.verification (expectation : BackupSchemaExpectation)
    (context : BackupVerificationContext) : Except LifecycleError BackupVerificationExpectation :=
  match expectation with
  | .current => .ok (currentBackupVerificationExpectation context)
  | .preMigration version => preMigrationBackupVerificationExpectation {
      expectedWorkspaceInstanceId := context.expectedWorkspaceInstanceId
      expectedKeyEpoch := context.expectedKeyEpoch
      expectedPrivacyStoreSchemaVersion := version, nowUnix := context.nowUnix }

/-- The import of a bundle of a schema. -/
def BackupHost.importBundleOf (host : BackupHost) (choices : BackupChoices)
    (expectation : BackupSchemaExpectation) (bundle : Octets) (context : BackupVerificationContext) :
    BackupScript VerifiedBackup :=
  match expectation with
  | .current => host.importPortableBundle choices bundle context
  | .preMigration _ => host.importPortableBundleForRollback choices bundle context

/-- The context of a backup at a time. -/
def VerifiedBackup.context (verified : VerifiedBackup) (nowUnix : UInt64) :
    BackupVerificationContext where
  expectedWorkspaceInstanceId := verified.workspaceInstanceId
  expectedKeyEpoch := verified.keyEpoch
  nowUnix := nowUnix

/-- The version of a schema is the current one, or one before the migration. -/
theorem expectedVersion_eq_ok {expectation : BackupSchemaExpectation} {version : Int64}
    (known : expectation.expectedVersion = .ok version) :
    (expectation = .current ∧ version = privacyStoreSchemaVersion) ∨
      expectation = .preMigration version ∧ minPreMigrationSchemaVersion ≤ version ∧
        version ≤ maxPreMigrationSchemaVersion := by
  cases expectation with
  | current =>
      cases known
      exact .inl ⟨rfl, rfl⟩
  | preMigration expected =>
      rw [BackupSchemaExpectation.expectedVersion] at known
      split_ifs at known with before
      cases known
      exact .inr ⟨rfl, before⟩

section Verifications

variable {verified : VerifiedBackup} {nowUnix : UInt64} {expectation : BackupSchemaExpectation}

/-- A verification in the context of a backup expects the backup. -/
theorem verification_context
    (known : expectation.expectedVersion = .ok verified.privacyStoreSchemaVersion) :
    expectation.verification (verified.context nowUnix) = .ok (verified.expectation nowUnix) := by
  obtain ⟨rfl, current⟩ | ⟨rfl, before⟩ := expectedVersion_eq_ok known
  · rw [BackupSchemaExpectation.verification, currentBackupVerificationExpectation, ← current]
    rfl
  · exact bind_eq_ok.mpr ⟨_, known, rfl⟩

/-- A rollback expects the backup as well. -/
theorem rollbackExpectation_context
    (known : expectation.expectedVersion = .ok verified.privacyStoreSchemaVersion) :
    BackupHost.rollbackExpectation verified.privacyStoreSchemaVersion (verified.context nowUnix) =
      .ok (verified.expectation nowUnix) := by
  rw [BackupHost.rollbackExpectation]
  obtain ⟨rfl, current⟩ | ⟨rfl, before⟩ := expectedVersion_eq_ok known
  · rw [if_pos current, currentBackupVerificationExpectation, ← current]
    rfl
  · split_ifs with current
    · rw [currentBackupVerificationExpectation, ← current]
      rfl
    · exact bind_eq_ok.mpr ⟨_, known, rfl⟩

end Verifications

namespace Exported

variable {host : BackupHost} {verified : VerifiedBackup} {bytes envelope blob : Octets}
  {root : BackupRoot} {nowUnix : UInt64} {choices : BackupChoices}

/-! ## Exporting a bundle -/

theorem completes_loadBackupState (exported : Exported host verified bytes envelope blob)
    (holds : root.Holds verified.backupId envelope blob) :
    (host.loadBackupState verified.backupId).Completes BackupRoot.apply root verified.initialState
      fun final => final = root :=
  ⟨root, loadBackupState_complete exported.valid holds.2 exported.stored.1 exported.stored.2
    exported.unprotected rfl, rfl⟩

/-- A backup which is stored is decrypted, with its own registry, to what was sealed. -/
theorem completes_decryptDetached (exported : Exported host verified bytes envelope blob)
    (ideal : host.platform.Ideal) (holds : root.Holds verified.backupId envelope blob)
    (began : verified.createdAtUnix ≤ nowUnix) (before : nowUnix < verified.expiresAtUnix)
    (new : verifyName verified.backupId choices.verifyRandom ∉ root.staging) :
    (host.decryptAndVerify choices verified.registry verified.backupId
      (verified.expectation nowUnix)).Completes BackupRoot.apply root (bytes, verified)
      (Untouched root) := by
  have workspace : ensureWorkspace verified.registry verified.workspaceInstanceId = .ok () := by
    refine refuseIf_eq_ok.mpr ?_
    rw [not_or, not_not, not_not]
    exact ⟨rfl, rfl⟩
  have found : verified.registry.row verified.backupId = some verified.row :=
    List.find?_cons_of_pos (decide_eq_true rfl)
  exact exported.completes_decryptAndVerify ideal workspace found rfl rfl rfl rfl rfl holds.1 began
    before new

/-- A backup which is stored is verified. -/
theorem completes_verifyDetached (exported : Exported host verified bytes envelope blob)
    (ideal : host.platform.Ideal) (holds : root.Holds verified.backupId envelope blob)
    (began : verified.createdAtUnix ≤ nowUnix) (before : nowUnix < verified.expiresAtUnix)
    (new : verifyName verified.backupId choices.verifyRandom ∉ root.staging) :
    (host.verifyDetachedBackup choices verified.backupId (verified.expectation nowUnix)).Completes
      BackupRoot.apply root verified (Untouched root) := by
  refine (exported.completes_loadBackupState holds).bind fun _ same => ?_
  rw [same]
  refine Script.completes_lift_bind exported.detached ?_
  exact (exported.completes_decryptDetached ideal holds began before new).bind
    fun final untouched => Script.completes_pure untouched

/-- The limits of a schema: the envelope of a database fits, and so does its bundle. -/
theorem exists_bundle (exported : Exported host verified bytes envelope blob)
    (ideal : host.platform.Ideal) :
    ∃ (bundle : Octets) (maximumEnvelope maximumPortable : Nat),
      BackupHost.writeRecord PortableBackupBundle.codec {
        schemaVersion := portableBackupSchemaVersion, backupId := verified.backupId
        envelopeSha256 := verified.envelopeSha256
        protectedStateSha256 := (host.sha256Hex blob).1
        envelopeBase64 := encodeBase64 envelope
        protectedStateBase64 := encodeBase64 blob } = .ok bundle ∧
      maxBackupEnvelopeBytesForSchema verified.privacyStoreSchemaVersion = some maximumEnvelope ∧
      envelope.length ≤ maximumEnvelope ∧
      maxPortableBackupBytesForSchema verified.privacyStoreSchemaVersion = some maximumPortable ∧
      bundle.length ≤ maximumPortable ∧ maximumPortable ≤ maxPortableBackupBytes := by
  obtain ⟨bundle, written, short⟩ := exists_writeBundle exported.valid (host.sha256Hex envelope)
    (host.sha256Hex blob) envelope blob
  obtain ⟨maximumEnvelope, envelopes, fits⟩ := exported.envelopes
  obtain ⟨maximumDatabase, database, admitted⟩ := exported.database
  obtain ⟨sealing, record, done, encoded⟩ := exported.sealedParts
  obtain ⟨_, _, _, _, _, _, seals, _⟩ := sealEnvelope_eq_ok done
  have bounded := (CryptoPlatform.sealWith_eq_ok seals).2.1
  have long := length_envelope ideal exported.valid done encoded
  have stored := exported.stored.2
  rw [maxProtectedBackupStateBytes] at stored
  rw [← exported.envelopeHash] at written
  dsimp only at bounded long
  rw [maxVaultObjectBytes] at bounded
  -- The envelope takes 4/3 of a database, and the bundle 4/3 of the envelope.
  obtain ⟨before, rfl⟩ | ⟨current, rfl⟩ := limitForSchema_eq_some.mp database
  · refine ⟨bundle, maximumEnvelope, 224 * mebibyte, written, envelopes, fits,
      limitForSchema_eq_some.mpr (.inl ⟨before, rfl⟩), ?_, by decide⟩
    rw [mebibyte] at admitted ⊢
    omega
  · refine ⟨bundle, maximumEnvelope, maxPortableBackupBytes, written, envelopes, fits,
      limitForSchema_eq_some.mpr (.inr ⟨current, rfl⟩), ?_, le_rfl⟩
    rw [maxPortableBackupBytes, mebibyte]
    omega

/-- The bundle of a backup is exported, and decoded to its files in its context. -/
theorem completes_exportPortableBundle (exported : Exported host verified bytes envelope blob)
    (ideal : host.platform.Ideal) (holds : root.Holds verified.backupId envelope blob)
    (began : verified.createdAtUnix ≤ nowUnix) (before : nowUnix < verified.expiresAtUnix)
    (new : verifyName verified.backupId choices.verifyRandom ∉ root.staging) :
    ∃ bundle, (host.exportPortableBundle choices verified.backupId
        (verified.expectation nowUnix)).Completes BackupRoot.apply root bundle (Untouched root) ∧
      host.decodePortableBundle bundle (verified.context nowUnix) =
        .ok ⟨verified.backupId, envelope, blob⟩ := by
  obtain ⟨bundle, maximumEnvelope, maximumPortable, written, envelopes, fits, portable, short,
    bounded⟩ := exported.exists_bundle ideal
  obtain ⟨_, record, done, encoded⟩ := exported.sealedParts
  have nonempty : bundle ≠ [] := writeRecord_ne_nil (by decide) written
  have identified : checkOpaqueId verified.backupId "bkp_".toList = .ok () :=
    checkOpaqueId_eq_ok.mpr exported.valid
  have readable : envelope.length ≤ maxBackupEnvelopeBytes := by
    obtain ⟨_, rfl⟩ | ⟨_, rfl⟩ := limitForSchema_eq_some.mp envelopes
    · exact fits.trans (by decide)
    · exact fits
  refine ⟨bundle, ?_, ?_⟩
  · refine (exported.completes_verifyDetached ideal holds began before new).bind
      fun final untouched => ?_
    have readEnvelope : readSafeFile (final.backups.lookup (backupName verified.backupId))
        maximumEnvelope = .ok envelope := by
      rw [untouched.1]
      exact readSafeFile_eq_ok.mpr ⟨holds.1, exported.envelope_ne_nil, fits⟩
    have readState : readSafeFile (final.backups.lookup (backupStateName verified.backupId))
        maxProtectedBackupStateBytes = .ok blob := by
      rw [untouched.1]
      exact readSafeFile_eq_ok.mpr ⟨holds.2, exported.stored⟩
    refine Script.completes_lift_bind identified ?_
    refine Script.completes_lift_bind (presentOr_eq_ok.mpr envelopes) ?_
    refine Script.completes_lift_bind (presentOr_eq_ok.mpr portable) ?_
    refine Script.completes_current_bind (Script.completes_lift_bind readEnvelope ?_)
    refine Script.completes_lift_bind readState ?_
    refine Script.completes_refuse_bind (not_not.mpr exported.envelopeHash.symm) ?_
    refine Script.completes_lift_bind written (Script.completes_refuse_bind ?_ ?_)
    · rw [not_or, Nat.not_lt]
      exact ⟨nonempty, short⟩
    · exact Script.completes_pure untouched
  · have hashed : validHash verified.envelopeSha256 = .ok () := by
      refine refuseIf_eq_ok.mpr ?_
      rw [Bool.not_eq_false, exported.envelopeHash]
      exact (host.sha256Hex envelope).2
    have stateHashed : validHash (host.sha256Hex blob).1 = .ok () := by
      refine refuseIf_eq_ok.mpr ?_
      rw [Bool.not_eq_false]
      exact (host.sha256Hex blob).2
    have version : record.privacyStoreSchemaVersion = verified.privacyStoreSchemaVersion := by
      obtain ⟨_, _, _, _, _, _, _, rfl⟩ := sealEnvelope_eq_ok done
      rfl
    refine refuseIf_bind_eq_ok.mpr ⟨?_, ?_⟩
    · rw [not_or, Nat.not_lt]
      exact ⟨nonempty, short.trans bounded⟩
    refine bind_eq_ok.mpr ⟨_, readRecord_writeRecord (by decide) written, ?_⟩
    refine bind_eq_ok.mpr ⟨(), identified, bind_eq_ok.mpr ⟨(), hashed, ?_⟩⟩
    refine bind_eq_ok.mpr ⟨(), stateHashed, refuseIf_bind_eq_ok.mpr ⟨not_not.mpr rfl, ?_⟩⟩
    refine bind_eq_ok.mpr ⟨envelope, decodeBoundedBase64_encodeBase64 exported.envelope_ne_nil
      readable (by decide), ?_⟩
    refine bind_eq_ok.mpr ⟨blob, decodeBoundedBase64_encodeBase64 exported.stored.1
      exported.stored.2 (by decide), ?_⟩
    refine bind_eq_ok.mpr ⟨record, readRecord_writeRecord (by decide) encoded, ?_⟩
    rw [version, envelopes, portable]
    refine refuseIf_bind_eq_ok.mpr ⟨?_, refuseIf_bind_eq_ok.mpr ⟨?_, ?_⟩⟩
    · rw [not_or, Nat.not_lt, Nat.not_lt]
      exact ⟨fits, short⟩
    · rw [not_or, not_or, not_or, not_not, not_not]
      exact ⟨exported.envelope_ne_nil, exported.stored.1, exported.envelopeHash.symm, rfl⟩
    refine bind_eq_ok.mpr ⟨_, exported.unprotected, refuseIf_bind_eq_ok.mpr ⟨?_, rfl⟩⟩
    simp only [VerifiedBackup.initialState, VerifiedBackup.context, ne_eq, not_true_eq_false,
      Option.isSome_none, Bool.false_eq_true, false_or, not_or, UInt64.not_lt, UInt64.not_le]
    exact ⟨began, before⟩

/-! ## Importing a bundle -/

/-- The files of a bundle are installed. -/
theorem completes_installBundle (envelopeNew : backupName verified.backupId ∉ root.backups)
    (stateNew : backupStateName verified.backupId ∉ root.backups)
    (envelopeUnused : writeName verified.backupId choices.envelopeRandom ∉ root.staging)
    (stateUnused : writeName verified.backupId choices.stateRandom ∉ root.staging) :
    (BackupHost.installBundle choices ⟨verified.backupId, envelope, blob⟩).Completes
      BackupRoot.apply root () fun final => final.Holds verified.backupId envelope blob ∧
        ∀ name ∈ final.staging, name ∈ root.staging := by
  refine (completes_writeAtomicNewFile envelopeNew envelopeUnused).bind fun first wrote => ?_
  obtain ⟨installed, files⟩ := wrote
  have apart := backupName_ne_backupStateName verified.backupId verified.backupId
  have absent : backupStateName verified.backupId ∉ first.backups := by
    rw [installed, AList.mem_insert, not_or]
    exact ⟨apart.symm, stateNew⟩
  refine (completes_writeAtomicNewFile absent fun among => stateUnused (files _ among)).settle.bind
    fun final wrote => Script.completes_pure ?_
  obtain ⟨last, fewer⟩ := wrote
  refine ⟨⟨?_, ?_⟩, fun name among => files name (fewer name among)⟩
  · rw [BackupRoot.Stores, last, AList.lookup_insert_ne apart, installed]
    exact AList.lookup_insert _
  · rw [BackupRoot.Stores, last]
    exact AList.lookup_insert _

/-- What was installed is verified. -/
theorem completes_install (exported : Exported host verified bytes envelope blob)
    (ideal : host.platform.Ideal) (began : verified.createdAtUnix ≤ nowUnix)
    (before : nowUnix < verified.expiresAtUnix) :
    (do
      BackupHost.installBundle choices ⟨verified.backupId, envelope, blob⟩
      host.verifyInstalled choices true verified.backupId
        (verified.expectation nowUnix)).Completes BackupRoot.apply ⟨∅, ∅⟩ verified fun final =>
          final.Holds verified.backupId envelope blob ∧ ∀ name, name ∉ final.staging := by
  have empty (name : Text) : name ∉ (∅ : Directory) := AList.notMem_empty name
  refine (completes_installBundle (empty _) (empty _) (empty _) (empty _)).bind
    fun installed wrote => ?_
  obtain ⟨holds, files⟩ := wrote
  have none (name : Text) : name ∉ installed.staging := fun among => empty name (files name among)
  refine (exported.completes_verifyDetached ideal holds began before (none _)).settle.bind
    fun final untouched => Script.completes_pure ⟨⟨?_, ?_⟩, fun name among => ?_⟩
  · exact (congrArg (AList.lookup _) untouched.1).trans holds.1
  · exact (congrArg (AList.lookup _) untouched.1).trans holds.2
  · exact none name (untouched.2 name among)

/-- A bundle which is decoded to the files of a backup is imported. -/
theorem completes_importBundleOf (exported : Exported host verified bytes envelope blob)
    (ideal : host.platform.Ideal) {expectation : BackupSchemaExpectation}
    (known : expectation.expectedVersion = .ok verified.privacyStoreSchemaVersion)
    (began : verified.createdAtUnix ≤ nowUnix) (before : nowUnix < verified.expiresAtUnix)
    {bundle : Octets} (decoded : host.decodePortableBundle bundle (verified.context nowUnix) =
      .ok ⟨verified.backupId, envelope, blob⟩) :
    (host.importBundleOf choices expectation bundle (verified.context nowUnix)).Completes
      BackupRoot.apply ⟨∅, ∅⟩ verified fun final =>
        final.Holds verified.backupId envelope blob ∧ ∀ name, name ∉ final.staging := by
  have installs : (do
      BackupHost.installBundle choices ⟨verified.backupId, envelope, blob⟩
      host.verifyInstalled choices true verified.backupId
        (verified.expectation nowUnix)).Completes BackupRoot.apply ⟨∅, ∅⟩ verified fun final =>
          final.Holds verified.backupId envelope blob ∧ ∀ name, name ∉ final.staging :=
    exported.completes_install ideal began before
  have rollback : BackupHost.rollbackExpectation verified.privacyStoreSchemaVersion
      (verified.context nowUnix) = .ok (verified.expectation nowUnix) :=
    rollbackExpectation_context known
  obtain ⟨rfl, current⟩ | ⟨rfl, _⟩ := expectedVersion_eq_ok known
  · have expected : currentBackupVerificationExpectation (verified.context nowUnix) =
        verified.expectation nowUnix := by
      rw [currentBackupVerificationExpectation, ← current]
      rfl
    refine Script.completes_lift_bind decoded ?_
    rw [expected]
    exact installs
  · obtain ⟨_, record, done, encoded⟩ := exported.sealedParts
    have version : record.privacyStoreSchemaVersion = verified.privacyStoreSchemaVersion := by
      obtain ⟨_, _, _, _, _, _, _, rfl⟩ := sealEnvelope_eq_ok done
      rfl
    refine Script.completes_lift_bind decoded ?_
    refine Script.completes_lift_bind (readRecord_writeRecord (by decide) encoded) ?_
    rw [version]
    refine Script.completes_lift_bind rollback (Script.completes_current_bind ?_)
    exact installs

/-! ## Restoring -/

/-- A backup which is stored is restored: the database is the one which was sealed. -/
theorem completes_restoreDetached (exported : Exported host verified bytes envelope blob)
    (ideal : host.platform.Ideal) (holds : root.Holds verified.backupId envelope blob)
    (began : verified.createdAtUnix ≤ nowUnix) (before : nowUnix < verified.expiresAtUnix)
    (empty : ∀ name, name ∉ root.staging) (copies : choices.copyFails = false) :
    ∃ restored, host.openImage bytes = .ok restored ∧
      (host.restoreDetachedIntoEmptyDatabase choices none verified.backupId
        (verified.expectation nowUnix)).Completes BackupRoot.apply root (verified, restored)
        (Untouched root) := by
  obtain ⟨restored, checked⟩ := exported.checked
  obtain ⟨_, opened, validated⟩ := bind_eq_ok.mp checked
  obtain ⟨_, valid, validated⟩ := bind_eq_ok.mp validated
  cases validated
  have identified : checkOpaqueId verified.backupId "bkp_".toList = .ok () :=
    checkOpaqueId_eq_ok.mpr exported.valid
  have named : temporaryPath verified.backupId choices.restoreRandom "restore.sqlite".toList =
      .ok (temporaryName verified.backupId choices.restoreRandom "restore.sqlite".toList) := by
    rw [temporaryPath, identified, ok_bind]
    rfl
  have copied : (do
      let source ← host.checkImage bytes verified.workspaceInstanceId verified.keyEpoch
        verified.privacyStoreSchemaVersion
      refuseIf (choices.copyFails = true) LifecycleError.database
      host.validateConnection source verified.workspaceInstanceId verified.keyEpoch
        verified.privacyStoreSchemaVersion
      pure source) = .ok restored := by
    refine bind_eq_ok.mpr ⟨restored, checked, refuseIf_bind_eq_ok.mpr ⟨?_, ?_⟩⟩
    · rw [copies]
      decide
    · exact bind_eq_ok.mpr ⟨(), valid, rfl⟩
  refine ⟨restored, opened, (exported.completes_loadBackupState holds).bind fun _ same => ?_⟩
  rw [same]
  refine Script.completes_lift_bind exported.detached ?_
  refine Script.completes_refuse_bind (by decide) ?_
  refine (exported.completes_decryptDetached ideal holds began before (empty _)).bind
    fun middle untouched => Script.completes_lift_bind named ?_
  refine completes_copy (fun among => empty _ (untouched.2 _ among)) copied fun final same => ?_
  exact Script.completes_pure (untouched.trans same)

end Exported

/-! ## Bundles which are accepted -/

/-- An execution of an export sealed an envelope. -/
def BackupHost.Seals (host : BackupHost) (made : Octets × VerifiedBackup) : Prop :=
  ∃ choices database workspace request expectation root answers,
    ((host.sealExport choices database workspace request expectation).run BackupRoot.apply root
      answers).result = some (.ok made)

/-- What the stores of a user protected: the states of their exports, states which are revoked, and
texts which are no states. -/
def Protected (exports : List (Octets × VerifiedBackup)) (plaintext : Octets) : Prop :=
  (∃ made ∈ exports,
    BackupHost.writeRecord ProtectedBackupState.codec made.2.initialState = .ok plaintext) ∨
  (∃ state : ProtectedBackupState, state.state = revokedState ∧
    BackupHost.writeRecord ProtectedBackupState.codec state = .ok plaintext) ∨
  ∀ state, BackupHost.readRecord ProtectedBackupState.codec plaintext ≠ .ok state

/-- The platform unprotects only what the stores protected, and no other bytes have the hash of an
envelope which was sealed. -/
structure BackupHost.Authentic (host : BackupHost) (exports : List (Octets × VerifiedBackup)) :
    Prop where
  seals : ∀ made ∈ exports, host.Seals made
  unprotects : ∀ {blob plaintext}, host.platform.unprotect blob = some plaintext →
    Protected exports plaintext
  hashes : ∀ made ∈ exports, ∀ other, host.sha256Hex other = host.sha256Hex made.1 → other = made.1

section Accepted

variable {host : BackupHost} {exports : List (Octets × VerifiedBackup)}

/-- An active state which is unprotected is the state of an export. -/
theorem BackupHost.Authentic.initialState (authentic : host.Authentic exports) {blob : Octets}
    {state : ProtectedBackupState} (unprotected : host.unprotectState blob = .ok state)
    (active : state.state = activeState) : ∃ made ∈ exports, state = made.2.initialState := by
  obtain ⟨plaintext, computed, unprotected⟩ := bind_eq_ok.mp unprotected
  obtain ⟨_, read, unprotected⟩ := bind_eq_ok.mp unprotected
  obtain ⟨_, _, unprotected⟩ := bind_eq_ok.mp unprotected
  cases unprotected
  obtain ⟨_, _, computed⟩ := CryptoPlatform.unprotectLocal_eq_ok.mp (mapError_eq_ok.mp computed)
  obtain ⟨made, among, written⟩ | ⟨other, revoked, written⟩ | none := authentic.unprotects computed
  · have same := read.symm.trans (readRecord_writeRecord (by decide) written)
    exact ⟨made, among, Except.ok.inj same⟩
  · have same := Except.ok.inj (read.symm.trans (readRecord_writeRecord (by decide) written))
    rw [same, revoked] at active
    exact absurd active (by decide)
  · exact absurd read (none state)

/-- A bundle which is decoded is made of what an export sealed. -/
theorem BackupHost.Authentic.decoded (authentic : host.Authentic exports) {bundle : Octets}
    {context : BackupVerificationContext} {decoded : BackupHost.DecodedPortableBackupBundle}
    (computed : host.decodePortableBundle bundle context = .ok decoded) :
    ∃ made ∈ exports, decoded.envelope = made.1 ∧
      host.unprotectState decoded.protectedState = .ok made.2.initialState := by
  obtain ⟨parts, state, _, _, _, _, _, hashed, unprotected, _, matching, active⟩ :=
    decodePortableBundle_eq_ok host computed
  obtain ⟨made, among, rfl⟩ := authentic.initialState unprotected active
  obtain ⟨choices, database, workspace, request, expectation, root, answers, ends⟩ :=
    authentic.seals made among
  obtain ⟨_, _, _, _, _, sealedBackup⟩ := (ensures_sealExport host choices).run ends
  refine ⟨made, among, authentic.hashes made among _ (Subtype.ext ?_), unprotected⟩
  rw [hashed, ← matching]
  exact sealedBackup.envelopeHash

/-- An import which ends with a value decoded its bundle. -/
theorem ensures_importBundleOf {choices : BackupChoices} {expectation : BackupSchemaExpectation}
    {bundle : Octets} {context : BackupVerificationContext} {root : BackupRoot} :
    (host.importBundleOf choices expectation bundle context).Ensures BackupRoot.apply root
      fun _ _ => ∃ decoded, host.decodePortableBundle bundle context = .ok decoded := by
  cases expectation with
  | current =>
      exact Script.ensures_lift_bind fun decoded computed => (Script.ensures_true _).imp
        fun _ _ _ => ⟨decoded, computed⟩
  | preMigration version =>
      exact Script.ensures_lift_bind fun decoded computed => (Script.ensures_true _).imp
        fun _ _ _ => ⟨decoded, computed⟩

end Accepted

/-! ## The round trip -/

/-- A backup is moved from a root at a time: its bundle is exported, imported into an empty root
with the same result, and decrypted and restored there to the image which was sealed. -/
def BackupHost.Moves (host : BackupHost) (expectation : BackupSchemaExpectation)
    (verified : VerifiedBackup) (image : Octets) (root : BackupRoot) (nowUnix : UInt64)
    (moving : BackupChoices) : Prop :=
  ∃ bundle,
    (host.exportPortableBundle moving verified.backupId (verified.expectation nowUnix)).Completes
      BackupRoot.apply root bundle (Untouched root) ∧
    ∀ importing, ∃ imported,
      (host.importBundleOf importing expectation bundle (verified.context nowUnix)).complete
        BackupRoot.apply ⟨∅, ∅⟩ = (imported, .ok verified) ∧
      ∀ restoring : BackupChoices, restoring.copyFails = false →
        (host.decryptAndVerify restoring verified.registry verified.backupId
          (verified.expectation nowUnix)).Completes BackupRoot.apply imported (image, verified)
          (Untouched imported) ∧
        ∃ restored, host.openImage image = .ok restored ∧
          (host.restoreDetachedIntoEmptyDatabase restoring none verified.backupId
            (verified.expectation nowUnix)).Completes BackupRoot.apply imported
            (verified, restored) (Untouched imported)

/-- A backup which was exported and whose files are stored is moved. -/
theorem Exported.moves {host : BackupHost} {verified : VerifiedBackup}
    {bytes envelope blob : Octets} {root : BackupRoot} {nowUnix : UInt64}
    {expectation : BackupSchemaExpectation} {moving : BackupChoices}
    (exported : Exported host verified bytes envelope blob) (ideal : host.platform.Ideal)
    (known : expectation.expectedVersion = .ok verified.privacyStoreSchemaVersion)
    (holds : root.Holds verified.backupId envelope blob)
    (began : verified.createdAtUnix ≤ nowUnix) (before : nowUnix < verified.expiresAtUnix)
    (new : verifyName verified.backupId moving.verifyRandom ∉ root.staging) :
    host.Moves expectation verified bytes root nowUnix moving := by
  obtain ⟨bundle, ends, decoded⟩ :=
    exported.completes_exportPortableBundle ideal holds began before new
  refine ⟨bundle, ends, fun importing => ?_⟩
  have imports : (host.importBundleOf importing expectation bundle
      (verified.context nowUnix)).Completes BackupRoot.apply ⟨∅, ∅⟩ verified fun final =>
        final.Holds verified.backupId envelope blob ∧ ∀ name, name ∉ final.staging :=
    exported.completes_importBundleOf ideal known began before decoded
  obtain ⟨imported, finishes, stored, empty⟩ := imports
  refine ⟨imported, finishes, fun restoring copies => ⟨?_, ?_⟩⟩
  · exact exported.completes_decryptDetached ideal stored began before (empty _)
  · exact exported.completes_restoreDetached ideal stored began before empty copies

/-- A backup which was exported, and was not revoked in a later run, is moved at every time between
its creation and its expiry, under the expectation of its schema; and a bundle which is accepted
has an envelope and a state which an export sealed. -/
theorem portable_backups_round_trip (host : BackupHost) (ideal : host.platform.Ideal) :
    (∀ choices database workspace request expectation root answers verified inserted,
      ((host.exportDatabaseWithSchemaExpectation choices database workspace request
        expectation).run BackupRoot.apply root answers).result = some (.ok (verified, inserted)) →
      ∃ image, host.snapshotImage database = .ok image ∧ ∀ events final,
        (storeMachine host).run ⟨((host.exportDatabaseWithSchemaExpectation choices database
          workspace request expectation).run BackupRoot.apply root answers).state, true⟩ events =
            some final →
        ¬ host.Withdrawn verified.backupId final.root →
        ∀ nowUnix, verified.createdAtUnix ≤ nowUnix → nowUnix < verified.expiresAtUnix →
          expectation.verification (verified.context nowUnix) =
            .ok (verified.expectation nowUnix) ∧
          ∀ moving : BackupChoices,
            verifyName verified.backupId moving.verifyRandom ∉ final.root.staging →
            host.Moves expectation verified image final.root nowUnix moving) ∧
    ∀ exports, host.Authentic exports →
      ∀ choices expectation bundle context root answers verified,
        ((host.importBundleOf choices expectation bundle context).run BackupRoot.apply root
          answers).result = some (.ok verified) →
        ∃ decoded, host.decodePortableBundle bundle context = .ok decoded ∧
          ∃ made ∈ exports, decoded.envelope = made.1 ∧
            host.unprotectState decoded.protectedState = .ok made.2.initialState := by
  refine ⟨?_, ?_⟩
  · intro choices database workspace request expectation root answers verified inserted ends
    obtain ⟨_, _, known, bytes, envelope, blob, taken, exported, holds, _⟩ :=
      (ensures_exportDatabase host choices ideal).run ends
    refine ⟨bytes, taken, fun events final runs active nowUnix began before => ?_⟩
    refine ⟨verification_context known, fun moving new => ?_⟩
    have start : host.Retains verified.backupId envelope blob ((host.exportDatabaseWithSchemaExpectation
        choices database workspace request expectation).run BackupRoot.apply root answers).state :=
      ⟨holds.1, .inl holds.2⟩
    have retains := BackupHost.Retains.run ideal start runs
    exact exported.moves ideal known ⟨retains.envelope, retains.state.resolve_right active⟩ began
      before new
  · intro exports authentic choices expectation bundle context root answers verified ends
    obtain ⟨decoded, computed⟩ := ensures_importBundleOf.run ends
    exact ⟨decoded, computed, authentic.decoded computed⟩

/-! ## A backup which is moved -/

/-- What an image of a database is sealed with. -/
def transferParts : EnvelopeParts where
  backupId := sampleId
  workspace := sampleState.workspaceInstanceId
  schemaVersion := privacyStoreSchemaVersion
  keyEpoch := 1
  createdAtUnix := 1
  expiresAtUnix := 9
  bytes := sqliteHeader ++ List.replicate 100 0

/-- Its envelope, when nothing in it has the hash of the envelope. -/
def transferRecord : BackupEnvelope where
  schemaVersion := encryptedBackupSchemaVersion
  cryptoSuite := backupCryptoSuite
  backupId := transferParts.backupId
  workspaceInstanceId := transferParts.workspace
  privacyStoreSchemaVersion := transferParts.schemaVersion
  lifecycleSchemaVersion := privacyLifecycleSchemaVersion
  keyEpoch := transferParts.keyEpoch
  createdAtUnix := transferParts.createdAtUnix
  expiresAtUnix := transferParts.expiresAtUnix
  databaseBytes := UInt64.ofNat transferParts.bytes.length
  databaseSha256 := sampleHash.1
  wrappedDataKeyBase64 := encodeBase64 sampleChoices.dataKey.1
  wrappedDataKeySha256 := sampleHash.1
  nonceBase64 := encodeBase64 sampleChoices.nonce.1
  ciphertextBase64 := encodeBase64 transferParts.bytes
  ciphertextSha256 := sampleHash.1
  tagBase64 := encodeBase64 (List.replicate 16 0)

/-- The envelope as it is written. -/
def transferEnvelope : Octets :=
  (BackupHost.writeRecord BackupEnvelope.codec transferRecord).toOption.getD []

/-- The hash of the envelope alone. -/
def transferHash : Sha256Hex := ⟨List.replicate 64 '1', by decide⟩

/-- The backup. -/
def transferVerified : VerifiedBackup where
  backupId := transferParts.backupId
  workspaceInstanceId := transferParts.workspace
  privacyStoreSchemaVersion := transferParts.schemaVersion
  createdAtUnix := transferParts.createdAtUnix
  expiresAtUnix := transferParts.expiresAtUnix
  keyEpoch := transferParts.keyEpoch
  databaseSha256 := sampleHash.1
  envelopeSha256 := transferHash.1

/-- The state of the backup when it is revoked. -/
def transferRevoked : ProtectedBackupState :=
  { transferVerified.initialState with state := revokedState, revokedAtUnix := some 5 }

/-- A state as it is written. -/
def stateBytes (state : ProtectedBackupState) : Octets :=
  (BackupHost.writeRecord ProtectedBackupState.codec state).toOption.getD []

/-- A database with the retention of the backup. -/
def transferDatabase : PrivacyDatabase where
  registry := {
    lifecycleSchemaVersion := privacyLifecycleSchemaVersion
    workspaceInstanceId := transferParts.workspace.1
    rows := [] }
  keyEpoch := transferParts.keyEpoch
  retentionPolicy := {
    policyId := "default".toList, reviewRetentionSeconds := 8, mappingRetentionSeconds := 8
    receiptGraceSeconds := 8, backupRetentionSeconds := 8, revision := 1, updatedAtUnix := 1 }
  content := []

/-- The database with the row of the backup. -/
def transferInserted : PrivacyDatabase :=
  { transferDatabase with
    registry := { transferDatabase.registry with rows := [transferVerified.row] } }

/-- A platform which protects one key, and one state before and behind its revocation. -/
def transferPlatform : CryptoPlatform where
  sealBytes := samplePlatform.sealBytes
  openBytes := samplePlatform.openBytes
  protect _ plaintext :=
    if plaintext = sampleChoices.dataKey.1 ∨ plaintext = stateBytes transferVerified.initialState ∨
        plaintext = stateBytes transferRevoked then some plaintext
    else none
  unprotect blob :=
    if blob = sampleChoices.dataKey.1 ∨ blob = stateBytes transferVerified.initialState ∨
        blob = stateBytes transferRevoked then some blob
    else none

/-- A host with that platform, on which every database has the one image. -/
def transferHost : BackupHost where
  sha256Hex bytes := if bytes = transferEnvelope then transferHash else sampleHash
  platform := transferPlatform
  readSchemaVersion _ := .ok privacyStoreSchemaVersion
  snapshotImage _ := .ok transferParts.bytes
  openImage _ := .ok transferDatabase
  validateConnection _ _ _ _ := .ok ()

/-- The platform protects what it does not change. -/
theorem transferPlatform_protect {random plaintext blob : Octets} :
    transferPlatform.protect random plaintext = some blob ↔
      (plaintext = sampleChoices.dataKey.1 ∨ plaintext = stateBytes transferVerified.initialState ∨
        plaintext = stateBytes transferRevoked) ∧ plaintext = blob := by
  change (if _ then some plaintext else none) = some blob ↔ _
  split_ifs with known
  · exact ⟨fun same => ⟨known, Option.some.inj same⟩, fun both => congrArg some both.2⟩
  · exact ⟨nofun, fun both => absurd both.1 known⟩

theorem stateBytes_written {state : ProtectedBackupState} (valid : state.validate = .ok ()) :
    BackupHost.writeRecord ProtectedBackupState.codec state = .ok (stateBytes state) := by
  obtain ⟨bytes, written⟩ := exists_writeRecord (printable_state valid)
  rw [stateBytes, written]
  rfl

theorem transferStates_valid :
    transferVerified.initialState.validate = .ok () ∧ transferRevoked.validate = .ok () := by
  decide

/-- The platform undoes what it does. -/
theorem ideal_transferPlatform : transferPlatform.Ideal where
  opens computed := by
    cases computed
    rfl
  sameLength computed := by
    cases computed
    rfl
  unprotects computed := by
    obtain ⟨known, rfl⟩ := transferPlatform_protect.mp computed
    exact if_pos known
  nonempty computed := by
    obtain ⟨known, rfl⟩ := transferPlatform_protect.mp computed
    obtain key | active | revoked := known
    · rw [key]
      decide
    · rw [active]
      exact writeRecord_ne_nil (by decide) (stateBytes_written transferStates_valid.1)
    · rw [revoked]
      exact writeRecord_ne_nil (by decide) (stateBytes_written transferStates_valid.2)
  short computed := by
    obtain ⟨_, rfl⟩ := transferPlatform_protect.mp computed
    exact Nat.le_add_right _ _

/-- The envelope is empty or begins with a brace. -/
theorem head_transferEnvelope {byte : UInt8} (found : transferEnvelope.head? = some byte) :
    byte = 123 := by
  rw [transferEnvelope] at found
  cases written : BackupHost.writeRecord BackupEnvelope.codec transferRecord with
  | error error =>
      rw [written] at found
      cases found
  | ok bytes =>
      have head : bytes.head? = some 123 := head_writeRecord rfl written
      rw [written] at found
      exact Option.some.inj (found.symm.trans head)

theorem transferHost_eq (bytes : Octets) : transferHost.sha256Hex bytes =
    if bytes = transferEnvelope then transferHash else sampleHash := rfl

theorem transferHost_sha256Hex {bytes : Octets} {byte : UInt8} (head : bytes.head? = some byte)
    (other : byte ≠ 123) : transferHost.sha256Hex bytes = sampleHash := by
  rw [transferHost_eq, if_neg]
  intro same
  rw [same] at head
  exact other (head_transferEnvelope head)

/-- The image is sealed. -/
theorem transfer_sealed :
    transferHost.sealParts sampleChoices transferParts = .ok transferRecord := by
  have wraps : transferHost.platform.wrapCaseKey sampleChoices.wrapRandom sampleChoices.dataKey =
      .ok sampleChoices.dataKey.1 := by
    refine CryptoPlatform.wrapCaseKey_eq_ok.mpr (CryptoPlatform.protectLocal_eq_ok.mpr
      ⟨by decide, by decide, transferPlatform_protect.mpr ⟨.inl rfl, rfl⟩⟩)
  have image : transferParts.bytes.head? = some 83 := by decide
  have key : sampleChoices.dataKey.1.head? = some 0 := by decide
  have made := @sealEnvelope_of transferHost sampleChoices transferParts ideal_transferPlatform _
    transferParts.bytes ⟨List.replicate 16 0, rfl⟩ (by decide) (by decide) (by decide) wraps
    fun _ => rfl
  rw [transferHost_sha256Hex image (by decide), transferHost_sha256Hex key (by decide)] at made
  exact made

theorem transferEnvelope_written :
    BackupHost.writeRecord BackupEnvelope.codec transferRecord = .ok transferEnvelope := by
  have valid : validOpaqueId "bkp_".toList transferParts.backupId = true := by decide
  obtain ⟨bytes, written⟩ := exists_writeEnvelope valid transfer_sealed
  rw [transferEnvelope, written]
  rfl

/-- The key is no state. -/
theorem readRecord_key (state : ProtectedBackupState) :
    BackupHost.readRecord ProtectedBackupState.codec sampleChoices.dataKey.1 ≠ .ok state := by
  have zeros : utf8 (String.ofList (List.replicate 32 '\x00')) = sampleChoices.dataKey.1 := by
    rw [utf8_eq_flatMap, String.toList_ofList]
    decide
  rw [BackupHost.readRecord, strictJsonV1FromSlice, strictValue, ← zeros, fromUTF8?_utf8]
  have none : Json.read maxDepth (String.ofList (List.replicate 32 '\x00')).toList = none := by
    rw [String.toList_ofList]
    decide
  intro read
  obtain ⟨value, found, _⟩ := Option.bind_eq_some_iff.mp (presentOr_eq_ok.mp read)
  obtain ⟨text, same, found⟩ := Option.bind_eq_some_iff.mp found
  obtain rfl := Option.some.inj same
  obtain ⟨tree, parsed, _⟩ := Option.bind_eq_some_iff.mp found
  rw [none] at parsed
  cases parsed

/-- The backup is what an export seals. -/
theorem transfer_parts : SealedBackup transferHost transferVerified transferParts.bytes
    transferEnvelope where
  valid := by decide
  sealedParts := ⟨sampleChoices, transferRecord, transfer_sealed, transferEnvelope_written⟩
  database := ⟨256 * mebibyte, by decide, by decide⟩
  envelopes := by
    have valid : validOpaqueId "bkp_".toList transferParts.backupId = true := by decide
    have long := length_envelope ideal_transferPlatform valid transfer_sealed
      transferEnvelope_written
    have sized : transferParts.bytes.length = 116 := by decide
    rw [sized] at long
    exact ⟨maxBackupEnvelopeBytes, by decide, long.trans (by decide)⟩
  databaseHash := by
    have image : transferParts.bytes.head? = some 83 := by decide
    rw [transferHost_sha256Hex image (by decide)]
    rfl
  envelopeHash := by
    rw [transferHost_eq, if_pos rfl]
    rfl
  started := by decide
  lasts := by decide
  image := ⟨by decide, ⟨List.replicate 100 0, rfl⟩⟩
  checked := ⟨transferDatabase, rfl⟩

/-- The image is sealed by an export. -/
theorem transfer_seals : (transferHost.sealExport sampleChoices transferDatabase
    transferVerified.workspaceInstanceId ⟨sampleId, 1, none⟩ .current).Completes BackupRoot.apply
      ⟨∅, ∅⟩ (transferEnvelope, transferVerified) fun final =>
        final.backups = ∅ ∧ ∀ name, name ∉ final.staging := by
  have seals : transferHost.sealParts sampleChoices ⟨transferVerified.backupId,
      transferVerified.workspaceInstanceId, transferVerified.privacyStoreSchemaVersion,
      transferVerified.keyEpoch, transferVerified.createdAtUnix, transferVerified.expiresAtUnix,
      transferParts.bytes⟩ = .ok transferRecord := transfer_sealed
  have taken : transferHost.snapshotImage transferDatabase = .ok transferParts.bytes := rfl
  exact completes_sealExport transfer_parts seals transferEnvelope_written ⟨rfl, rfl, rfl⟩ rfl
    (by decide) rfl (by decide) (by decide) taken

/-- The state is protected. -/
theorem transfer_protects :
    transferHost.protectState sampleChoices transferVerified.initialState =
      .ok (stateBytes transferVerified.initialState) := by
  have written := stateBytes_written transferStates_valid.1
  refine bind_eq_ok.mpr ⟨(), transferStates_valid.1, bind_eq_ok.mpr ⟨_, written, ?_⟩⟩
  refine mapError_eq_ok.mpr (CryptoPlatform.protectLocal_eq_ok.mpr
    ⟨writeRecord_ne_nil (by decide) written, ?_, transferPlatform_protect.mpr
      ⟨.inr (.inl rfl), rfl⟩⟩)
  exact ((length_writeRecord written).trans (width_state transferStates_valid.1)).trans (by decide)

/-- The backup is exported. -/
theorem transfer_exported :
    (transferHost.exportDatabaseWithSchemaExpectation sampleChoices transferDatabase
      transferVerified.workspaceInstanceId ⟨sampleId, 1, none⟩ .current).Completes BackupRoot.apply
      ⟨∅, ∅⟩ (transferVerified, transferInserted) fun final =>
        final.Holds transferVerified.backupId transferEnvelope
          (stateBytes transferVerified.initialState) ∧ ∀ name, name ∉ final.staging := by
  have fitting := (length_protectState ideal_transferPlatform transfer_protects).2
  rw [exportDatabase_eq]
  exact transfer_seals.bind fun final facts => completes_storeExport transfer_parts.valid
    transfer_protects (fitting.trans (by decide)) (by decide) facts.1 facts.2

/-- The platform unprotects only what the export protected. -/
theorem authentic_transferHost :
    transferHost.Authentic [(transferEnvelope, transferVerified)] where
  seals made among := by
    obtain rfl := List.mem_singleton.mp among
    obtain ⟨answers, final, runs, _⟩ := transfer_seals.exists_run
    exact ⟨_, _, _, _, _, _, answers, congrArg Script.Outcome.result runs⟩
  unprotects := by
    intro blob plaintext computed
    have computed : (if blob = sampleChoices.dataKey.1 ∨
        blob = stateBytes transferVerified.initialState ∨ blob = stateBytes transferRevoked then
          some blob else none) = some plaintext := computed
    split_ifs at computed with known
    obtain rfl := Option.some.inj computed
    obtain key | active | revoked := known
    · rw [key]
      exact .inr (.inr readRecord_key)
    · rw [active]
      exact .inl ⟨_, List.mem_singleton.mpr rfl, stateBytes_written transferStates_valid.1⟩
    · rw [revoked]
      exact .inr (.inl ⟨transferRevoked, rfl, stateBytes_written transferStates_valid.2⟩)
  hashes made among other same := by
    obtain rfl := List.mem_singleton.mp among
    dsimp only at same ⊢
    rw [transferHost_eq, transferHost_eq transferEnvelope, if_pos rfl] at same
    split_ifs at same with equal
    · exact equal
    · exact absurd same (by decide)

/-- A backup which is stored with its initial state is not withdrawn. -/
theorem not_withdrawn {host : BackupHost} {verified : VerifiedBackup} {blob : Octets}
    {root : BackupRoot} (stores : root.Stores (backupStateName verified.backupId) blob)
    (unprotected : host.unprotectState blob = .ok verified.initialState) :
    ¬ host.Withdrawn verified.backupId root := by
  rintro ⟨other, state, storesOther, unprotectedOther, revoked⟩
  obtain rfl := Option.some.inj (stores.symm.trans storesOther)
  obtain rfl := Except.ok.inj (unprotected.symm.trans unprotectedOther)
  have active : activeState = revokedState := revoked
  exact absurd active (by decide)

/-- The backup is exported, moved at a time, and its bundle is accepted. -/
theorem portable_backups_round_trip_sample : ∃ final bundle,
    transferHost.Moves .current transferVerified transferParts.bytes final 5 sampleChoices ∧
    ∃ decoded, transferHost.decodePortableBundle bundle (transferVerified.context 5) = .ok decoded ∧
      decoded.envelope = transferEnvelope := by
  have ideal : transferHost.platform.Ideal := ideal_transferPlatform
  obtain ⟨answers, final, runs, holds, empty⟩ := transfer_exported.exists_run
  have ends := congrArg Script.Outcome.result runs
  obtain ⟨image, taken, moves⟩ := (portable_backups_round_trip transferHost ideal).1 _ _ _ _ _ _
    answers transferVerified transferInserted ends
  obtain rfl : transferParts.bytes = image := Except.ok.inj taken
  have active : ¬ transferHost.Withdrawn transferVerified.backupId final :=
    not_withdrawn holds.2 (unprotectState_protectState ideal transfer_protects)
  rw [runs] at moves
  have moved := (moves [] ⟨final, true⟩ rfl active 5 (by decide) (by decide)).2 sampleChoices
    (empty _)
  obtain ⟨bundle, _, imports⟩ := id moved
  obtain ⟨imported, finishes, _⟩ := imports sampleChoices
  have completes : (transferHost.importBundleOf sampleChoices .current bundle
      (transferVerified.context 5)).Completes BackupRoot.apply ⟨∅, ∅⟩ transferVerified
      fun _ => True := ⟨imported, finishes, trivial⟩
  obtain ⟨importing, last, accepted, _⟩ := completes.exists_run
  obtain ⟨decoded, computed, made, among, same, _⟩ :=
    (portable_backups_round_trip transferHost ideal).2 _ authentic_transferHost _ _ bundle _ _
      importing transferVerified (congrArg Script.Outcome.result accepted)
  rw [List.mem_singleton.mp among] at same
  dsimp only at same
  exact ⟨final, bundle, moved, decoded, computed, same⟩

end LawyerAssistance.Backups

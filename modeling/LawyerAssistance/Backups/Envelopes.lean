import LawyerAssistance.Backups.Records

/-!
# Envelopes

An envelope which is sealed is opened under the same expectation, and gives the bytes which were
sealed. Its encoding is bounded by the size of the database.
-/

namespace LawyerAssistance.Backups

open Privacy Lifecycle

/-! ## Limits -/

/-- A limit of a schema is the limit of its kind. -/
theorem limitForSchema_eq_some {preMigration current limit : Nat} {schemaVersion : Int64} :
    limitForSchema preMigration current schemaVersion = some limit ↔
      (minPreMigrationSchemaVersion ≤ schemaVersion ∧ schemaVersion ≤ maxPreMigrationSchemaVersion) ∧
          limit = preMigration ∨
        schemaVersion = privacyStoreSchemaVersion ∧ limit = current := by
  rw [limitForSchema]
  split_ifs with before now
  · constructor
    · rintro ⟨⟩
      exact .inl ⟨before, rfl⟩
    · rintro (⟨_, rfl⟩ | ⟨rfl, _⟩)
      · rfl
      · exact absurd before (by decide)
  · constructor
    · rintro ⟨⟩
      exact .inr ⟨now, rfl⟩
    · rintro (⟨among, _⟩ | ⟨_, rfl⟩)
      · exact absurd among before
      · rfl
  · refine ⟨nofun, ?_⟩
    rintro (⟨among, _⟩ | ⟨same, _⟩)
    · exact absurd among before
    · exact absurd same now

/-! ## Sealing and opening -/

/-- What an envelope is sealed with. -/
structure EnvelopeParts where
  backupId : Text
  workspace : WorkspaceInstanceId
  schemaVersion : Int64
  keyEpoch : UInt64
  createdAtUnix : UInt64
  expiresAtUnix : UInt64
  bytes : Octets

/-- `sealEnvelope` of its parts. -/
abbrev BackupHost.sealParts (host : BackupHost) (choices : BackupChoices) (parts : EnvelopeParts) :
    Except LifecycleError BackupEnvelope :=
  host.sealEnvelope choices parts.backupId parts.workspace parts.schemaVersion parts.keyEpoch
    parts.createdAtUnix parts.expiresAtUnix parts.bytes

section Sealed

variable {host : BackupHost} {choices : BackupChoices} {parts : EnvelopeParts}
  {envelope : BackupEnvelope} {envelopeBytes : Octets}

/-- What a sealed envelope is made of. -/
theorem sealEnvelope_eq_ok (done : host.sealParts choices parts = .ok envelope) :
    ∃ (wrapped aad : Octets) (object : AeadSealed),
      host.platform.wrapCaseKey choices.wrapRandom choices.dataKey = .ok wrapped ∧
      parts.bytes.length < 2 ^ 64 ∧
      BackupHost.backupAad parts.backupId parts.workspace parts.schemaVersion parts.keyEpoch
        parts.createdAtUnix parts.expiresAtUnix (UInt64.ofNat parts.bytes.length)
        (host.sha256Hex parts.bytes).1 (host.sha256Hex wrapped).1 = .ok aad ∧
      host.platform.sealWith choices.dataKey choices.nonce parts.bytes aad = .ok object ∧
      envelope = {
        schemaVersion := encryptedBackupSchemaVersion, cryptoSuite := backupCryptoSuite
        backupId := parts.backupId, workspaceInstanceId := parts.workspace
        privacyStoreSchemaVersion := parts.schemaVersion
        lifecycleSchemaVersion := privacyLifecycleSchemaVersion, keyEpoch := parts.keyEpoch
        createdAtUnix := parts.createdAtUnix, expiresAtUnix := parts.expiresAtUnix
        databaseBytes := UInt64.ofNat parts.bytes.length
        databaseSha256 := (host.sha256Hex parts.bytes).1
        wrappedDataKeyBase64 := encodeBase64 wrapped
        wrappedDataKeySha256 := (host.sha256Hex wrapped).1
        nonceBase64 := encodeBase64 object.nonce.1
        ciphertextBase64 := encodeBase64 object.ciphertext
        ciphertextSha256 := (host.sha256Hex object.ciphertext).1
        tagBase64 := encodeBase64 object.tag.1 } := by
  obtain ⟨wrapped, wraps, done⟩ := bind_eq_ok.mp done
  obtain ⟨fits, done⟩ := refuseIf_bind_eq_ok.mp done
  obtain ⟨aad, additional, done⟩ := bind_eq_ok.mp done
  obtain ⟨object, seals, done⟩ := bind_eq_ok.mp done
  cases done
  exact ⟨wrapped, aad, object, mapError_eq_ok.mp wraps, Nat.lt_of_not_le fits, additional,
    mapError_eq_ok.mp seals, rfl⟩

/-- An envelope which is sealed is opened, under the same expectation and against a row which
records it, and gives what was sealed. -/
theorem openEnvelope_sealEnvelope (ideal : host.platform.Ideal)
    (done : host.sealParts choices parts = .ok envelope)
    (written : BackupHost.writeRecord BackupEnvelope.codec envelope = .ok envelopeBytes)
    {maximumDatabase maximumEnvelope : Nat}
    (database : maxBackupDatabaseBytesForSchema parts.schemaVersion = some maximumDatabase)
    (admitted : parts.bytes.length ≤ maximumDatabase)
    (envelopes : maxBackupEnvelopeBytesForSchema parts.schemaVersion = some maximumEnvelope)
    (short : envelopeBytes.length ≤ maximumEnvelope) (started : parts.createdAtUnix ≠ 0)
    (lasts : parts.createdAtUnix < parts.expiresAtUnix)
    {context : BackupVerificationExpectation}
    (workspace : context.expectedWorkspaceInstanceId = parts.workspace)
    (keyEpoch : context.expectedKeyEpoch = parts.keyEpoch)
    (schemaVersion : context.expectedPrivacyStoreSchemaVersion = parts.schemaVersion)
    {row : BackupRegistryRow} (hash : row.envelopeSha256 = (host.sha256Hex envelopeBytes).1)
    (rowEpoch : row.keyEpoch = parts.keyEpoch) (rowStart : row.createdAtUnix = parts.createdAtUnix)
    (rowEnd : row.expiresAtUnix = parts.expiresAtUnix) :
    host.openEnvelope parts.backupId context row envelopeBytes = .ok (parts.bytes, {
      backupId := parts.backupId, workspaceInstanceId := parts.workspace
      privacyStoreSchemaVersion := parts.schemaVersion, createdAtUnix := parts.createdAtUnix
      expiresAtUnix := parts.expiresAtUnix, keyEpoch := parts.keyEpoch
      databaseSha256 := (host.sha256Hex parts.bytes).1
      envelopeSha256 := (host.sha256Hex envelopeBytes).1 }) := by
  obtain ⟨wrapped, aad, object, wraps, fits, additional, seals, rfl⟩ := sealEnvelope_eq_ok done
  obtain ⟨wrappedNonempty, wrappedShort⟩ := CryptoPlatform.length_wrapCaseKey ideal wraps
  obtain ⟨nonempty, _⟩ := CryptoPlatform.sealWith_eq_ok seals
  have counted : (UInt64.ofNat parts.bytes.length).toNat = parts.bytes.length :=
    UInt64.toNat_ofNat_of_lt' fits
  have positive : 0 < parts.bytes.length := List.length_pos_iff.mpr nonempty
  have nonce := object.nonce.2
  have tag := object.tag.2
  have sized := CryptoPlatform.length_ciphertext ideal seals
  have large : 64 ≤ maximumDatabase := by
    obtain ⟨_, rfl⟩ | ⟨_, rfl⟩ := limitForSchema_eq_some.mp database <;> decide
  refine refuseIf_bind_eq_ok.mpr ⟨not_not.mpr hash.symm, ?_⟩
  refine bind_eq_ok.mpr ⟨_, readRecord_writeRecord (by decide) written, ?_⟩
  refine bind_eq_ok.mpr ⟨maximumEnvelope, presentOr_eq_ok.mpr envelopes, ?_⟩
  refine bind_eq_ok.mpr ⟨maximumDatabase, presentOr_eq_ok.mpr database, ?_⟩
  refine refuseIf_bind_eq_ok.mpr ⟨Nat.not_lt.mpr short, ?_⟩
  refine bind_eq_ok.mpr ⟨(), ?_, ?_⟩
  · refine bind_eq_ok.mpr ⟨maximumDatabase, presentOr_eq_ok.mpr database, ?_⟩
    refine refuseIf_bind_eq_ok.mpr ⟨?_, forM_eq_ok.mpr fun hash among => ?_⟩
    · rw [counted, workspace, keyEpoch, schemaVersion, rowEpoch, rowStart, rowEnd]
      have some : UInt64.ofNat parts.bytes.length ≠ 0 := fun zero => by
        rw [zero] at counted
        exact absurd counted (Nat.ne_of_lt positive)
      simp only [ne_eq, not_true_eq_false, false_or, not_or, UInt64.not_le, Nat.not_lt]
      exact ⟨started, lasts, some, admitted⟩
    · refine mapError_eq_ok.mpr (refuseIf_eq_ok.mpr ?_)
      rw [Bool.not_eq_false]
      simp only [List.mem_cons, List.not_mem_nil, or_false] at among
      obtain rfl | rfl | rfl := among
      · exact (host.sha256Hex parts.bytes).2
      · exact (host.sha256Hex wrapped).2
      · exact (host.sha256Hex object.ciphertext).2
  refine bind_eq_ok.mpr ⟨wrapped, decodeBoundedBase64_encodeBase64 wrappedNonempty
    (by omega) (by omega), ?_⟩
  refine refuseIf_bind_eq_ok.mpr ⟨not_not.mpr rfl, ?_⟩
  refine bind_eq_ok.mpr ⟨choices.dataKey, mapError_eq_ok.mpr
    (CryptoPlatform.unwrapCaseKey_wrapCaseKey ideal wraps), ?_⟩
  refine bind_eq_ok.mpr ⟨object.nonce.1, decodeBoundedBase64_encodeBase64
    (List.length_pos_iff.mp (by omega)) (by omega) (by omega), ?_⟩
  refine bind_eq_ok.mpr ⟨object.ciphertext, decodeBoundedBase64_encodeBase64 object.nonempty
    (by omega) (by omega), ?_⟩
  refine bind_eq_ok.mpr ⟨object.tag.1, decodeBoundedBase64_encodeBase64
    (List.length_pos_iff.mp (by omega)) (by omega) (by omega), ?_⟩
  refine refuseIf_bind_eq_ok.mpr ⟨not_not.mpr rfl, ?_⟩
  refine bind_eq_ok.mpr ⟨object, mapError_eq_ok.mpr (CryptoPlatform.fromParts_self object), ?_⟩
  refine bind_eq_ok.mpr ⟨aad, ?_, ?_⟩
  · rw [workspace]
    exact additional
  refine bind_eq_ok.mpr ⟨parts.bytes, mapError_eq_ok.mpr
    (CryptoPlatform.openWith_sealWith ideal seals), ?_⟩
  refine refuseIf_bind_eq_ok.mpr ⟨?_, rfl⟩
  rw [not_or, not_not, not_not]
  exact ⟨counted.symm, rfl⟩

/-! ## Lengths -/

/-- The names of the fields of an envelope. -/
def envelopeNames : List String :=
  ["schemaVersion", "cryptoSuite", "backupId", "workspaceInstanceId", "privacyStoreSchemaVersion",
    "lifecycleSchemaVersion", "keyEpoch", "createdAtUnix", "expiresAtUnix", "databaseBytes",
    "databaseSha256", "wrappedDataKeyBase64", "wrappedDataKeySha256", "nonceBase64",
    "ciphertextBase64", "ciphertextSha256", "tagBase64"]

theorem width_i64 (value : Int64) : (Codec.i64.write value).width = 20 := by
  change Value.width (.number _) = 20
  rw [Value.width]

/-- A text of bytes takes four letters for three of them, and two quotation marks. -/
theorem width_encodeBase64 (bytes : Octets) :
    (Value.string (encodeBase64 bytes)).width = (bytes.length + 2) / 3 * 4 + 2 := by
  rw [width_plain (plain_encodeBase64 bytes)]
  exact congrArg (· + 2) (Base64.length_encode bytes)

theorem width_envelopeNames :
    envelopeNames.map (fun name => Text.byteLength (Json.quote name.toList)) =
      [15, 13, 10, 21, 27, 24, 10, 15, 15, 15, 16, 22, 22, 13, 18, 18, 11] := by
  decide

/-- What an envelope takes: its texts, and what does not depend on them. -/
theorem width_envelope (envelope : BackupEnvelope) :
    (BackupEnvelope.codec.write envelope).width =
      441 + (Value.string envelope.schemaVersion).width + (Value.string envelope.cryptoSuite).width +
        (Value.string envelope.backupId).width +
        (Value.string envelope.workspaceInstanceId.1).width +
        (Value.string envelope.databaseSha256).width +
        (Value.string envelope.wrappedDataKeyBase64).width +
        (Value.string envelope.wrappedDataKeySha256).width +
        (Value.string envelope.nonceBase64).width + (Value.string envelope.ciphertextBase64).width +
        (Value.string envelope.ciphertextSha256).width +
        (Value.string envelope.tagBase64).width := by
  have names := width_envelopeNames
  simp only [envelopeNames, List.map_cons, List.map_nil, List.cons.injEq] at names
  obtain ⟨schemaVersion, cryptoSuite, backupId, workspace, storeVersion, lifecycleVersion, keyEpoch,
    createdAt, expiresAt, databaseBytes, databaseHash, wrapped, wrappedHash, nonce, ciphertext,
    ciphertextHash, tag, _⟩ := names
  have written : BackupEnvelope.codec.write envelope = .object [
    ("schemaVersion".toList, .string envelope.schemaVersion),
    ("cryptoSuite".toList, .string envelope.cryptoSuite),
    ("backupId".toList, .string envelope.backupId),
    ("workspaceInstanceId".toList, .string envelope.workspaceInstanceId.1),
    ("privacyStoreSchemaVersion".toList, Codec.i64.write envelope.privacyStoreSchemaVersion),
    ("lifecycleSchemaVersion".toList, Codec.i64.write envelope.lifecycleSchemaVersion),
    ("keyEpoch".toList, Codec.u64.write envelope.keyEpoch),
    ("createdAtUnix".toList, Codec.u64.write envelope.createdAtUnix),
    ("expiresAtUnix".toList, Codec.u64.write envelope.expiresAtUnix),
    ("databaseBytes".toList, Codec.u64.write envelope.databaseBytes),
    ("databaseSha256".toList, .string envelope.databaseSha256),
    ("wrappedDataKeyBase64".toList, .string envelope.wrappedDataKeyBase64),
    ("wrappedDataKeySha256".toList, .string envelope.wrappedDataKeySha256),
    ("nonceBase64".toList, .string envelope.nonceBase64),
    ("ciphertextBase64".toList, .string envelope.ciphertextBase64),
    ("ciphertextSha256".toList, .string envelope.ciphertextSha256),
    ("tagBase64".toList, .string envelope.tagBase64)] := rfl
  rw [written, width_object, widthMembers_cons, schemaVersion, widthMembers_cons, cryptoSuite, widthMembers_cons, backupId, widthMembers_cons,
    workspace, widthMembers_cons, storeVersion, width_i64, widthMembers_cons, lifecycleVersion, width_i64,
    widthMembers_cons, keyEpoch, width_u64, widthMembers_cons, createdAt, width_u64, widthMembers_cons, expiresAt,
    width_u64, widthMembers_cons, databaseBytes, width_u64, widthMembers_cons, databaseHash, widthMembers_cons,
    wrapped, widthMembers_cons, wrappedHash, widthMembers_cons, nonce, widthMembers_cons, ciphertext, widthMembers_cons,
    ciphertextHash, widthMembers_cons, tag, widthMembers_nil]
  -- The arithmetic is about the widths alone.
  clear written schemaVersion cryptoSuite backupId workspace storeVersion lifecycleVersion keyEpoch
    createdAt expiresAt databaseBytes databaseHash wrapped wrappedHash nonce ciphertext
    ciphertextHash tag
  omega

/-- A sealed envelope takes little more than the text of its database. -/
theorem length_envelope (ideal : host.platform.Ideal)
    (valid : validOpaqueId "bkp_".toList parts.backupId = true)
    (done : host.sealParts choices parts = .ok envelope)
    (written : BackupHost.writeRecord BackupEnvelope.codec envelope = .ok envelopeBytes) :
    envelopeBytes.length ≤ (parts.bytes.length + 2) / 3 * 4 + 8192 := by
  obtain ⟨wrapped, aad, object, wraps, _, _, seals, rfl⟩ := sealEnvelope_eq_ok done
  obtain ⟨_, wrappedShort⟩ := CryptoPlatform.length_wrapCaseKey ideal wraps
  have sized := CryptoPlatform.length_ciphertext ideal seals
  have nonce := object.nonce.2
  have tag := object.tag.2
  have version : (Value.string encryptedBackupSchemaVersion).width = 29 :=
    width_plain (by decide)
  have suite : (Value.string backupCryptoSuite).width = 47 := width_plain (by decide)
  have identified := plain_of_validOpaqueId (by decide) valid
  have placed := plain_of_validOpaqueId (by decide) parts.workspace.2
  have hashed (hash : Sha256Hex) : (Value.string hash.1).width = 66 := by
    obtain ⟨plain, long⟩ := plain_of_validLowerHex hash.2
    rw [width_plain plain, long]
  have starts : "bkp_".toList.length = 4 ∧ "ws_".toList.length = 3 := by decide
  have bound := length_writeRecord written
  rw [width_envelope] at bound
  dsimp only at bound
  rw [version, suite, width_plain identified.1, width_plain placed.1, hashed, hashed, hashed,
    width_encodeBase64, width_encodeBase64, width_encodeBase64, width_encodeBase64, sized, nonce,
    tag, identified.2, placed.2, starts.1, starts.2] at bound
  omega

/-- The names of the fields of additional data. -/
def aadNames : List String :=
  ["aadVersion", "schemaVersion", "cryptoSuite", "backupId", "workspaceInstanceId",
    "privacyStoreSchemaVersion", "lifecycleSchemaVersion", "keyEpoch", "createdAtUnix",
    "expiresAtUnix", "databaseBytes", "databaseSha256", "wrappedDataKeySha256"]

/-- Additional data is written, and is short. -/
theorem exists_backupAad {backupId : Text} (valid : validOpaqueId "bkp_".toList backupId = true)
    (workspace : WorkspaceInstanceId) (schemaVersion : Int64)
    (keyEpoch createdAtUnix expiresAtUnix databaseBytes : UInt64)
    (databaseSha256 wrappedDataKeySha256 : Sha256Hex) :
    ∃ aad, BackupHost.backupAad backupId workspace schemaVersion keyEpoch createdAtUnix
      expiresAtUnix databaseBytes databaseSha256.1 wrappedDataKeySha256.1 = .ok aad ∧
      aad.length ≤ maxVaultAadBytes := by
  have identified := plain_of_validOpaqueId (by decide) valid
  have placed := plain_of_validOpaqueId (by decide) workspace.2
  have hashed (hash : Sha256Hex) : PlainText hash.1 ∧ hash.1.length = 64 :=
    plain_of_validLowerHex hash.2
  have texts : PlainText backupAadVersion ∧ PlainText encryptedBackupSchemaVersion ∧
      PlainText backupCryptoSuite := by decide
  have named : aadNames.all (fun name => !name.toList.any Text.isControl) = true := by
    decide
  simp only [aadNames, List.all_cons, List.all_nil, Bool.and_eq_true, Bool.not_eq_true',
    Bool.and_true] at named
  obtain ⟨n1, n2, n3, n4, n5, n6, n7, n8, n9, n10, n11, n12, n13⟩ := named
  have printable : (BackupAad.codec.write {
      aadVersion := backupAadVersion, schemaVersion := encryptedBackupSchemaVersion
      cryptoSuite := backupCryptoSuite, backupId, workspaceInstanceId := workspace
      privacyStoreSchemaVersion := schemaVersion
      lifecycleSchemaVersion := privacyLifecycleSchemaVersion, keyEpoch, createdAtUnix
      expiresAtUnix, databaseBytes, databaseSha256 := databaseSha256.1
      wrappedDataKeySha256 := wrappedDataKeySha256.1 }).Printable :=
    ⟨n1, printable_plain texts.1, n2, printable_plain texts.2.1, n3, printable_plain texts.2.2, n4,
      printable_plain identified.1, n5, printable_plain placed.1, n6, trivial, n7, trivial, n8,
      trivial, n9, trivial, n10, trivial, n11, trivial, n12, printable_plain (hashed _).1, n13,
      printable_plain (hashed _).1, trivial⟩
  obtain ⟨aad, written⟩ := exists_writeRecord printable
  refine ⟨aad, written, (length_writeRecord written).trans ?_⟩
  have names : aadNames.map (fun name => Text.byteLength (Json.quote name.toList)) =
      [12, 15, 13, 10, 21, 27, 24, 10, 15, 15, 15, 16, 22] := by decide
  have lengths : backupAadVersion.length = 13 ∧ encryptedBackupSchemaVersion.length = 27 ∧
      backupCryptoSuite.length = 45 ∧ "bkp_".toList.length = 4 ∧ "ws_".toList.length = 3 := by
    decide
  simp only [aadNames, List.map_cons, List.map_nil, List.cons.injEq] at names
  change 2 + widthMembers [("aadVersion".toList, .string backupAadVersion),
    ("schemaVersion".toList, .string encryptedBackupSchemaVersion),
    ("cryptoSuite".toList, .string backupCryptoSuite),
    ("backupId".toList, .string backupId),
    ("workspaceInstanceId".toList, .string workspace.1),
    ("privacyStoreSchemaVersion".toList, Codec.i64.write schemaVersion),
    ("lifecycleSchemaVersion".toList, Codec.i64.write privacyLifecycleSchemaVersion),
    ("keyEpoch".toList, Codec.u64.write keyEpoch),
    ("createdAtUnix".toList, Codec.u64.write createdAtUnix),
    ("expiresAtUnix".toList, Codec.u64.write expiresAtUnix),
    ("databaseBytes".toList, Codec.u64.write databaseBytes),
    ("databaseSha256".toList, .string databaseSha256.1),
    ("wrappedDataKeySha256".toList, .string wrappedDataKeySha256.1)] ≤ _
  simp only [widthMembers, names, width_plain texts.1, width_plain texts.2.1,
    width_plain texts.2.2, width_plain identified.1, width_plain placed.1, width_i64, width_u64,
    width_plain (hashed databaseSha256).1, width_plain (hashed wrappedDataKeySha256).1,
    identified.2, placed.2, (hashed databaseSha256).2, (hashed wrappedDataKeySha256).2, lengths,
    maxVaultAadBytes]
  omega

/-- A database is sealed when the platform wraps its key and encrypts it. -/
theorem sealEnvelope_of (ideal : host.platform.Ideal) {wrapped ciphertext : Octets} {tag : GcmTag}
    (valid : validOpaqueId "bkp_".toList parts.backupId = true) (nonempty : parts.bytes ≠ [])
    (short : parts.bytes.length ≤ maxVaultObjectBytes)
    (wraps : host.platform.wrapCaseKey choices.wrapRandom choices.dataKey = .ok wrapped)
    (encrypts : ∀ aad, host.platform.sealBytes choices.dataKey choices.nonce parts.bytes aad =
      some (ciphertext, tag)) :
    host.sealParts choices parts = .ok {
        schemaVersion := encryptedBackupSchemaVersion, cryptoSuite := backupCryptoSuite
        backupId := parts.backupId, workspaceInstanceId := parts.workspace
        privacyStoreSchemaVersion := parts.schemaVersion
        lifecycleSchemaVersion := privacyLifecycleSchemaVersion, keyEpoch := parts.keyEpoch
        createdAtUnix := parts.createdAtUnix, expiresAtUnix := parts.expiresAtUnix
        databaseBytes := UInt64.ofNat parts.bytes.length
        databaseSha256 := (host.sha256Hex parts.bytes).1
        wrappedDataKeyBase64 := encodeBase64 wrapped
        wrappedDataKeySha256 := (host.sha256Hex wrapped).1
        nonceBase64 := encodeBase64 choices.nonce.1
        ciphertextBase64 := encodeBase64 ciphertext
        ciphertextSha256 := (host.sha256Hex ciphertext).1
        tagBase64 := encodeBase64 tag.1 } := by
  obtain ⟨aad, additional, bounded⟩ := exists_backupAad valid parts.workspace parts.schemaVersion
    parts.keyEpoch parts.createdAtUnix parts.expiresAtUnix (UInt64.ofNat parts.bytes.length)
    (host.sha256Hex parts.bytes) (host.sha256Hex wrapped)
  have sized := ideal.sameLength (encrypts aad)
  have some : ciphertext ≠ [] := by
    rw [← List.length_pos_iff, sized]
    exact List.length_pos_iff.mpr nonempty
  have made : host.platform.sealWith choices.dataKey choices.nonce parts.bytes aad =
      .ok ⟨choices.nonce, ciphertext, tag, some, sized ▸ short⟩ := by
    refine bind_eq_ok.mpr ⟨(), CryptoPlatform.validateLengths_eq_ok.mpr
      ⟨nonempty, short, bounded⟩, ?_⟩
    refine bind_eq_ok.mpr ⟨(ciphertext, tag), presentOr_eq_ok.mpr (encrypts aad), ?_⟩
    exact dif_pos ⟨choices.nonce.2, tag.2, some, sized ▸ short⟩
  refine bind_eq_ok.mpr ⟨wrapped, mapError_eq_ok.mpr wraps, refuseIf_bind_eq_ok.mpr ⟨?_, ?_⟩⟩
  · rw [maxVaultObjectBytes] at short
    omega
  · exact bind_eq_ok.mpr ⟨aad, additional, bind_eq_ok.mpr ⟨_, mapError_eq_ok.mpr made, rfl⟩⟩

/-- A sealed envelope is written. -/
theorem exists_writeEnvelope (valid : validOpaqueId "bkp_".toList parts.backupId = true)
    (done : host.sealParts choices parts = .ok envelope) :
    ∃ envelopeBytes, BackupHost.writeRecord BackupEnvelope.codec envelope = .ok envelopeBytes := by
  obtain ⟨wrapped, aad, object, _, _, _, _, rfl⟩ := sealEnvelope_eq_ok done
  have identified := printable_plain (plain_of_validOpaqueId (by decide) valid).1
  have placed := printable_plain (plain_of_validOpaqueId (by decide) parts.workspace.2).1
  have version : (Value.string encryptedBackupSchemaVersion).Printable := printable_plain (by decide)
  have suite : (Value.string backupCryptoSuite).Printable := printable_plain (by decide)
  have hashed (hash : Sha256Hex) : (Value.string hash.1).Printable :=
    printable_plain (plain_of_validLowerHex hash.2).1
  have encoded (bytes : Octets) : (Value.string (encodeBase64 bytes)).Printable :=
    printable_plain (plain_encodeBase64 bytes)
  have named : envelopeNames.all (fun name => !name.toList.any Text.isControl) = true := by
    decide
  simp only [envelopeNames, List.all_cons, List.all_nil, Bool.and_eq_true, Bool.not_eq_true',
    Bool.and_true] at named
  obtain ⟨n1, n2, n3, n4, n5, n6, n7, n8, n9, n10, n11, n12, n13, n14, n15, n16, n17⟩ := named
  exact exists_writeRecord ⟨n1, version, n2, suite, n3, identified, n4, placed, n5, trivial, n6,
    trivial, n7, trivial, n8, trivial, n9, trivial, n10, trivial, n11, hashed _, n12, encoded _,
    n13, hashed _, n14, encoded _, n15, encoded _, n16, hashed _, n17, encoded _, trivial⟩

end Sealed

/-- The names of the fields of a bundle. -/
def bundleNames : List String :=
  ["schemaVersion", "backupId", "envelopeSha256", "protectedStateSha256", "envelopeBase64",
    "protectedStateBase64"]

/-- A bundle is written, and takes little more than the texts of its parts. -/
theorem exists_writeBundle {backupId : Text} (valid : validOpaqueId "bkp_".toList backupId = true)
    (envelopeSha256 protectedStateSha256 : Sha256Hex) (envelope blob : Octets) :
    ∃ bytes, BackupHost.writeRecord PortableBackupBundle.codec {
        schemaVersion := portableBackupSchemaVersion, backupId
        envelopeSha256 := envelopeSha256.1, protectedStateSha256 := protectedStateSha256.1
        envelopeBase64 := encodeBase64 envelope, protectedStateBase64 := encodeBase64 blob } =
          .ok bytes ∧
      bytes.length ≤ (envelope.length + 2) / 3 * 4 + (blob.length + 2) / 3 * 4 + 1024 := by
  have identified := plain_of_validOpaqueId (by decide) valid
  have version : PlainText portableBackupSchemaVersion := by decide
  have hashed (hash : Sha256Hex) : PlainText hash.1 ∧ hash.1.length = 64 :=
    plain_of_validLowerHex hash.2
  have named : bundleNames.all (fun name => !name.toList.any Text.isControl) = true := by decide
  simp only [bundleNames, List.all_cons, List.all_nil, Bool.and_eq_true, Bool.not_eq_true',
    Bool.and_true] at named
  obtain ⟨first, second, third, fourth, fifth, last⟩ := named
  have printable : (PortableBackupBundle.codec.write {
      schemaVersion := portableBackupSchemaVersion, backupId
      envelopeSha256 := envelopeSha256.1, protectedStateSha256 := protectedStateSha256.1
      envelopeBase64 := encodeBase64 envelope
      protectedStateBase64 := encodeBase64 blob }).Printable :=
    ⟨first, printable_plain version, second, printable_plain identified.1, third,
      printable_plain (hashed envelopeSha256).1, fourth,
      printable_plain (hashed protectedStateSha256).1, fifth,
      printable_plain (plain_encodeBase64 envelope), last,
      printable_plain (plain_encodeBase64 blob), trivial⟩
  obtain ⟨bytes, written⟩ := exists_writeRecord printable
  refine ⟨bytes, written, (length_writeRecord written).trans ?_⟩
  have names : bundleNames.map (fun name => Text.byteLength (Json.quote name.toList)) =
      [15, 10, 16, 22, 16, 22] := by decide
  have lengths : portableBackupSchemaVersion.length = 26 ∧ "bkp_".toList.length = 4 := by decide
  simp only [bundleNames, List.map_cons, List.map_nil, List.cons.injEq] at names
  change 2 + widthMembers [("schemaVersion".toList, .string portableBackupSchemaVersion),
    ("backupId".toList, .string backupId),
    ("envelopeSha256".toList, .string envelopeSha256.1),
    ("protectedStateSha256".toList, .string protectedStateSha256.1),
    ("envelopeBase64".toList, .string (encodeBase64 envelope)),
    ("protectedStateBase64".toList, .string (encodeBase64 blob))] ≤ _
  simp only [widthMembers, names, width_plain version, width_plain identified.1,
    width_plain (hashed envelopeSha256).1, width_plain (hashed protectedStateSha256).1,
    width_encodeBase64, identified.2, (hashed envelopeSha256).2, (hashed protectedStateSha256).2,
    lengths]
  omega

end LawyerAssistance.Backups

import LawyerAssistance.Backups.Store
import LawyerAssistance.Privacy.CanonicalWidth

/-!
# Records of the backups

What the records of a backup take when they are written, that they are read back, and that a
protected state is unprotected.
-/

namespace LawyerAssistance.Backups

open Privacy Lifecycle

/-! ## Plain texts -/

theorem plain_encodeBase64 (bytes : Octets) : PlainText (encodeBase64 bytes) :=
  fun _ among => Base64.mem_encode among

/-! ## Reading and writing -/

/-- What is decoded of bytes which were encoded. -/
theorem decodeBoundedBase64_encodeBase64 {bytes : Octets} {maxBytes : Nat} (nonempty : bytes ≠ [])
    (short : bytes.length ≤ maxBytes) (roomy : 2 ≤ maxBytes) :
    decodeBoundedBase64 (encodeBase64 bytes) maxBytes = .ok bytes := by
  have ascii : ∀ character ∈ encodeBase64 bytes, character.toNat < 128 := fun character among =>
    Nat.lt_trans (plain_encodeBase64 bytes character among).2.2.2 (by decide)
  have length : Text.byteLength (encodeBase64 bytes) = (bytes.length + 2) / 3 * 4 := by
    rw [byteLength_of_ascii ascii]
    exact Base64.length_encode bytes
  have read : decodeBase64 (encodeBase64 bytes) = some bytes := Base64.decode_encode bytes
  rw [decodeBoundedBase64, refuseIf_bind_eq_ok, read]
  refine ⟨?_, ?_⟩
  · rintro (empty | long)
    · exact Base64.encode_ne_nil nonempty empty
    · rw [length] at long
      omega
  · refine bind_eq_ok.mpr ⟨bytes, rfl, (refuseIf_bind_eq_ok).mpr ⟨?_, rfl⟩⟩
    rintro (empty | long)
    · exact nonempty empty
    · omega

/-- What is read of a file. -/
theorem readSafeFile_eq_ok {found : Option Octets} {bytes : Octets} {maxBytes : Nat} :
    readSafeFile found maxBytes = .ok bytes ↔
      found = some bytes ∧ bytes ≠ [] ∧ bytes.length ≤ maxBytes := by
  rw [readSafeFile]
  constructor
  · intro read
    obtain ⟨content, present, read⟩ := bind_eq_ok.mp read
    obtain ⟨bounded, read⟩ := refuseIf_bind_eq_ok.mp read
    cases read
    rw [not_or, Nat.not_lt] at bounded
    exact ⟨presentOr_eq_ok.mp present, bounded⟩
  · rintro ⟨rfl, bounded⟩
    refine bind_eq_ok.mpr ⟨bytes, rfl, refuseIf_bind_eq_ok.mpr ⟨?_, rfl⟩⟩
    rw [not_or, Nat.not_lt]
    exact bounded

section Codec

variable {α : Type} {codec : Codec α} {value : α} {bytes : Octets}

theorem writeRecord_eq_ok : BackupHost.writeRecord codec value = .ok bytes ↔
    canonicalJsonV1 (codec.write value) = .ok bytes :=
  mapError_eq_ok

theorem readRecord_writeRecord (bounded : codec.nesting ≤ maxDepth)
    (written : BackupHost.writeRecord codec value = .ok bytes) :
    BackupHost.readRecord codec bytes = .ok value :=
  presentOr_eq_ok.mpr (Codec.read_canonical bounded (writeRecord_eq_ok.mp written))

/-- A record which is written is not empty. -/
theorem writeRecord_ne_nil (bounded : codec.nesting ≤ maxDepth)
    (written : BackupHost.writeRecord codec value = .ok bytes) : bytes ≠ [] := by
  rintro rfl
  have read := readRecord_writeRecord bounded written
  have empty : strictJsonV1FromSlice [] = none := by
    have none : utf8 "" = [] := rfl
    rw [strictJsonV1FromSlice, strictValue, ← none, fromUTF8?_utf8]
    rfl
  rw [BackupHost.readRecord, empty] at read
  cases read

/-- An object which is written begins with a brace. -/
theorem head_writeRecord {members : List (Text × Value)} (object : codec.write value = .object members)
    (written : BackupHost.writeRecord codec value = .ok bytes) : bytes.head? = some 123 := by
  have encoded := writeRecord_eq_ok.mp written
  clear written
  rw [object] at encoded
  obtain ⟨text, written, encoded⟩ := bind_eq_ok.mp encoded
  cases encoded
  rw [toValue, writeCanonical] at written
  obtain ⟨texts, _, written⟩ := bind_eq_ok.mp written
  cases written
  rw [utf8_eq_flatMap, String.toList_ofList]
  rfl

theorem length_writeRecord (written : BackupHost.writeRecord codec value = .ok bytes) :
    bytes.length ≤ (codec.write value).width :=
  length_canonicalJsonV1 (writeRecord_eq_ok.mp written)

theorem exists_writeRecord (printable : (codec.write value).Printable) :
    ∃ bytes, BackupHost.writeRecord codec value = .ok bytes := by
  obtain ⟨bytes, encoded⟩ := exists_canonicalJsonV1 printable
  exact ⟨bytes, writeRecord_eq_ok.mpr encoded⟩

end Codec

/-! ## States -/

/-- What a valid state is made of. -/
theorem validate_eq_ok {state : ProtectedBackupState} {passed : Unit}
    (valid : state.validate = .ok passed) :
    validOpaqueId "bkp_".toList state.backupId = true ∧
      validLowerHex state.envelopeSha256 64 = true ∧
      state.schemaVersion = protectedBackupStateVersion ∧ state.createdAtUnix ≠ 0 ∧
      state.createdAtUnix < state.expiresAtUnix ∧ state.keyEpoch ≠ 0 ∧
      (state.state = activeState ∨ state.state = revokedState) := by
  obtain ⟨_, identified, valid⟩ := bind_eq_ok.mp valid
  obtain ⟨_, hashed, valid⟩ := bind_eq_ok.mp valid
  have valid := refuseIf_eq_ok.mp valid
  simp only [not_or, not_and_or, not_not, UInt64.not_le] at valid
  refine ⟨?_, ?_, valid.1, valid.2.1, valid.2.2.1, valid.2.2.2.1, valid.2.2.2.2.1⟩
  · exact checkOpaqueId_eq_ok.mp identified
  · rw [validHash, refuseIf_eq_ok, Bool.not_eq_false] at hashed
    exact hashed

/-- The texts of a valid state are plain, and short. -/
theorem plain_state {state : ProtectedBackupState} (valid : state.validate = .ok ()) :
    (PlainText state.schemaVersion ∧ state.schemaVersion.length = 25) ∧
      (PlainText state.backupId ∧ state.backupId.length = 36) ∧
      (PlainText state.workspaceInstanceId.1 ∧ state.workspaceInstanceId.1.length = 35) ∧
      (PlainText state.envelopeSha256 ∧ state.envelopeSha256.length = 64) ∧
      (PlainText state.state ∧ state.state.length ≤ 7) := by
  obtain ⟨identified, hashed, version, _, _, _, known⟩ := validate_eq_ok valid
  refine ⟨?_, plain_of_validOpaqueId (by decide) identified,
    plain_of_validOpaqueId (by decide) state.workspaceInstanceId.2,
    plain_of_validLowerHex hashed, ?_⟩
  · rw [version]
    decide
  · rcases known with known | known <;> rw [known] <;> decide

/-- The names of the fields of a state. -/
def stateNames : List String :=
  ["schemaVersion", "backupId", "workspaceInstanceId", "envelopeSha256", "createdAtUnix",
    "expiresAtUnix", "keyEpoch", "state", "revokedAtUnix"]

/-- A valid state is written. -/
theorem printable_state {state : ProtectedBackupState} (valid : state.validate = .ok ()) :
    (ProtectedBackupState.codec.write state).Printable := by
  obtain ⟨version, identified, workspace, hashed, known⟩ := plain_state valid
  have names : stateNames.all (fun name => !name.toList.any Text.isControl) = true := by decide
  simp only [stateNames, List.all_cons, List.all_nil, Bool.and_eq_true, Bool.not_eq_true',
    Bool.and_true] at names
  obtain ⟨first, second, third, fourth, fifth, sixth, seventh, eighth, last⟩ := names
  have revoked : ((Codec.u64.option Codec.u64_solid).write state.revokedAtUnix).Printable := by
    cases state.revokedAtUnix <;> trivial
  exact ⟨first, printable_plain version.1, second, printable_plain identified.1, third,
    printable_plain workspace.1, fourth, printable_plain hashed.1, fifth, trivial, sixth, trivial,
    seventh, trivial, eighth, printable_plain known.1, last, revoked, trivial⟩

/-- A valid state is short. -/
theorem width_state {state : ProtectedBackupState} (valid : state.validate = .ok ()) :
    (ProtectedBackupState.codec.write state).width ≤ 512 := by
  obtain ⟨version, identified, workspace, hashed, known⟩ := plain_state valid
  have names : stateNames.map (fun name => Text.byteLength (Json.quote name.toList)) =
      [15, 10, 21, 16, 15, 15, 10, 7, 15] := by decide
  simp only [stateNames, List.map_cons, List.map_nil, List.cons.injEq] at names
  have revoked : ((Codec.u64.option Codec.u64_solid).write state.revokedAtUnix).width ≤ 20 := by
    cases state.revokedAtUnix with
    | none => decide
    | some revokedAtUnix => exact Nat.le_of_eq (width_u64 revokedAtUnix)
  change 2 + widthMembers [("schemaVersion".toList, .string state.schemaVersion),
    ("backupId".toList, .string state.backupId),
    ("workspaceInstanceId".toList, .string state.workspaceInstanceId.1),
    ("envelopeSha256".toList, .string state.envelopeSha256),
    ("createdAtUnix".toList, Codec.u64.write state.createdAtUnix),
    ("expiresAtUnix".toList, Codec.u64.write state.expiresAtUnix),
    ("keyEpoch".toList, Codec.u64.write state.keyEpoch),
    ("state".toList, .string state.state),
    ("revokedAtUnix".toList, (Codec.u64.option Codec.u64_solid).write state.revokedAtUnix)] ≤ 512
  simp only [widthMembers, names, width_plain version.1, width_plain identified.1,
    width_plain workspace.1, width_plain hashed.1, width_plain known.1, width_u64]
  omega

section States

variable {host : BackupHost} {choices : BackupChoices} {state : ProtectedBackupState}
  {blob : Octets}

theorem protectState_eq_ok (done : host.protectState choices state = .ok blob) :
    state.validate = .ok () ∧ ∃ plaintext,
      BackupHost.writeRecord ProtectedBackupState.codec state = .ok plaintext ∧
        host.platform.protectLocal choices.protectRandom plaintext = .ok blob := by
  obtain ⟨_, valid, done⟩ := bind_eq_ok.mp done
  obtain ⟨plaintext, written, done⟩ := bind_eq_ok.mp done
  exact ⟨valid, plaintext, written, mapError_eq_ok.mp done⟩

theorem unprotectState_protectState (ideal : host.platform.Ideal)
    (done : host.protectState choices state = .ok blob) : host.unprotectState blob = .ok state := by
  obtain ⟨valid, plaintext, written, computed⟩ := protectState_eq_ok done
  refine bind_eq_ok.mpr ⟨plaintext, mapError_eq_ok.mpr
    (CryptoPlatform.unprotectLocal_protectLocal ideal computed), ?_⟩
  exact bind_eq_ok.mpr ⟨state, readRecord_writeRecord (by decide) written,
    bind_eq_ok.mpr ⟨(), valid, rfl⟩⟩

theorem length_protectState (ideal : host.platform.Ideal)
    (done : host.protectState choices state = .ok blob) : blob ≠ [] ∧ blob.length ≤ 4608 := by
  obtain ⟨valid, plaintext, written, computed⟩ := protectState_eq_ok done
  obtain ⟨_, _, computed⟩ := CryptoPlatform.protectLocal_eq_ok.mp computed
  have short := ideal.short computed
  have bounded := (length_writeRecord written).trans (width_state valid)
  exact ⟨ideal.nonempty computed, by omega⟩

/-- A valid state is protected when the platform protects. -/
theorem exists_protectState (valid : state.validate = .ok ())
    (protects : ∀ plaintext, plaintext ≠ [] →
      ∃ blob, host.platform.protect choices.protectRandom plaintext = some blob) :
    ∃ blob, host.protectState choices state = .ok blob := by
  obtain ⟨plaintext, written⟩ := exists_writeRecord (printable_state valid)
  have nonempty := writeRecord_ne_nil (by decide) written
  have bounded := (length_writeRecord written).trans (width_state valid)
  obtain ⟨blob, computed⟩ := protects plaintext nonempty
  refine ⟨blob, bind_eq_ok.mpr ⟨(), valid, bind_eq_ok.mpr ⟨plaintext, written, ?_⟩⟩⟩
  refine mapError_eq_ok.mpr (CryptoPlatform.protectLocal_eq_ok.mpr ⟨nonempty, ?_, computed⟩)
  rw [maxProtectedPlaintextBytes]
  omega

/-- A state which is stored is loaded. -/
theorem loadBackupState_complete {root : BackupRoot} {backupId : Text}
    (valid : validOpaqueId "bkp_".toList backupId = true)
    (stored : root.backups.lookup (backupStateName backupId) = some blob) (nonempty : blob ≠ [])
    (short : blob.length ≤ maxProtectedBackupStateBytes)
    (unprotected : host.unprotectState blob = .ok state) (same : state.backupId = backupId) :
    (host.loadBackupState backupId).complete BackupRoot.apply root = (root, .ok state) := by
  have read : readSafeFile (some blob) maxProtectedBackupStateBytes = .ok blob :=
    readSafeFile_eq_ok.mpr ⟨rfl, nonempty, short⟩
  have checked : checkOpaqueId backupId "bkp_".toList = .ok () := checkOpaqueId_eq_ok.mpr valid
  rw [← stored] at read
  rw [BackupHost.loadBackupState, Script.complete_lift_bind checked,
    Script.complete_bind_of_eq Script.complete_current, Script.complete_lift_bind read,
    Script.complete_lift_bind unprotected, Script.complete_refuse_bind (not_not.mpr same),
    Script.complete_pure]

end States

end LawyerAssistance.Backups

import LawyerAssistance.Privacy.VaultCrypto

/-!
# Types of the privacy lifecycle

`lifecycle.rs`: the errors of the lifecycle, the retention policy, and the checks of texts which
the mappings, the sweeps and the backups share. Integer columns hold numbers below `2 ^ 63`, so
that a conversion refuses exactly the larger numbers.
-/

namespace LawyerAssistance.Lifecycle

open Privacy

/-- `WorkspaceInstanceId`. -/
abbrev WorkspaceInstanceId := OpaqueId "ws_".toList

/-- `LifecycleError`. -/
inductive LifecycleError where
  | database
  | unsupportedSchema
  | invalidInput
  | conflict
  | platformUnavailable
  | protectedBlob
  | crypto
  | mappingNotAvailable
  | mappingAccessDenied
  | mappingRevoked
  | mappingExpired
  | cleanupNotPrepared
  | cleanupIntegrity
  | backupNotAvailable
  | backupInvalid
  | backupTampered
  | backupExpired
  | backupRevoked
  | environmentMismatch
  | unsafeFilesystem
  | io
  deriving DecidableEq

/-- `map_crypto_error`. -/
def mapCryptoError : VaultCryptoError → LifecycleError
  | .keyWrapFailed | .keyUnwrapFailed => .protectedBlob
  | _ => .crypto

/-- `PRIVACY_LIFECYCLE_SCHEMA_VERSION`. -/
def privacyLifecycleSchemaVersion : Int64 := 1

/-- `MAX_RETENTION_SECONDS`. -/
def maxRetentionSeconds : UInt64 := 10 * 365 * 24 * 60 * 60

/-- `MAX_ID_BYTES`. -/
def maxIdBytes : Nat := 128

/-- `sql_i64`. -/
def sqlI64 (value : UInt64) : Except LifecycleError UInt64 := do
  refuseIf (2 ^ 63 ≤ value.toNat) .invalidInput
  pure value

theorem sqlI64_eq_ok {value result : UInt64} :
    sqlI64 value = .ok result ↔ value.toNat < 2 ^ 63 ∧ result = value := by
  rw [sqlI64, refuseIf_bind_eq_ok, Nat.not_le]
  exact and_congr_right fun _ => ⟨fun same => by cases same; rfl, fun same => by rw [same]; rfl⟩

/-- `valid_identifier`. -/
def validIdentifier (value : Text) : Except LifecycleError Unit :=
  refuseIf (value = [] ∨ maxIdBytes < Text.byteLength value ∨ value.any Text.isControl = true ∨
    '/' ∈ value ∨ '\\' ∈ value ∨ "..".toList <:+: value) .invalidInput

/-- `valid_opaque_id`. -/
def checkOpaqueId (value start : Text) : Except LifecycleError Unit :=
  refuseIf (validOpaqueId start value = false) .invalidInput

theorem checkOpaqueId_eq_ok {value start : Text} {passed : Unit} :
    checkOpaqueId value start = .ok passed ↔ validOpaqueId start value = true := by
  rw [checkOpaqueId, refuseIf_eq_ok, Bool.not_eq_false]

/-- `valid_hash`. -/
def validHash (value : Text) : Except LifecycleError Unit :=
  refuseIf (validLowerHex value 64 = false) .invalidInput

/-- `RetentionPolicyV1`. -/
structure RetentionPolicy where
  policyId : Text
  reviewRetentionSeconds : UInt64
  mappingRetentionSeconds : UInt64
  receiptGraceSeconds : UInt64
  backupRetentionSeconds : UInt64
  revision : UInt64
  updatedAtUnix : UInt64
  deriving DecidableEq

/-- `RetentionPolicyV1::validate`. -/
def RetentionPolicy.validate (policy : RetentionPolicy) : Except LifecycleError Unit := do
  validIdentifier policy.policyId
  refuseIf (policy.revision = 0 ∨ policy.updatedAtUnix = 0 ∨ policy.reviewRetentionSeconds = 0 ∨
    policy.mappingRetentionSeconds = 0 ∨ policy.backupRetentionSeconds = 0 ∨
    maxRetentionSeconds < policy.reviewRetentionSeconds ∨
    maxRetentionSeconds < policy.mappingRetentionSeconds ∨
    maxRetentionSeconds < policy.receiptGraceSeconds ∨
    maxRetentionSeconds < policy.backupRetentionSeconds) .invalidInput

/-- `hex_lower`, of one byte. -/
def hexByte (byte : UInt8) : Text :=
  [Json.hexCharacter (byte.toNat / 16), Json.hexCharacter (byte.toNat % 16)]

/-- `hex_lower`. -/
def hexLower (bytes : Octets) : Text := bytes.flatMap hexByte

/-- Hexadecimal digits, two for each byte. -/
theorem length_hexLower (bytes : Octets) : (hexLower bytes).length = 2 * bytes.length := by
  rw [hexLower, List.length_flatMap]
  induction bytes with
  | nil => rfl
  | cons byte rest inductionHypothesis =>
      rw [List.map_cons, List.sum_cons, inductionHypothesis, List.length_cons]
      have two : (hexByte byte).length = 2 := rfl
      omega

/-- A digit which is written is a digit of lower case hexadecimal. -/
theorem isLowerHex_hexCharacter : ∀ value < 16, isLowerHex (Json.hexCharacter value) = true := by
  decide

/-- Bytes are written with digits of lower case hexadecimal. -/
theorem isLowerHex_hexLower (bytes : Octets) : (hexLower bytes).all isLowerHex = true := by
  rw [List.all_eq_true]
  intro character among
  obtain ⟨byte, _, among⟩ := List.mem_flatMap.mp among
  have small := byte.toNat_lt
  rw [hexByte, List.mem_pair] at among
  obtain rfl | rfl := among
  · exact isLowerHex_hexCharacter _ (by omega)
  · exact isLowerHex_hexCharacter _ (Nat.mod_lt _ (by decide))

end LawyerAssistance.Lifecycle

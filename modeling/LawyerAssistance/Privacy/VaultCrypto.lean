import LawyerAssistance.Privacy.Schema

/-!
# Authenticated encryption and local protection

`vault_crypto.rs` and `protected_blob.rs`: the length checks around the functions of the platform,
which are parameters. A sealed object carries its fixed lengths. `CryptoPlatform.Ideal` is what
the stores rely on: what is sealed is opened with the same key and the same additional data, and
what is protected is unprotected.
-/

namespace LawyerAssistance.Privacy

/-- Bytes of a fixed number. -/
abbrev FixedOctets (count : Nat) := {bytes : Octets // bytes.length = count}

/-- `SecretKey32`. -/
abbrev SecretKey32 := FixedOctets 32

/-- A nonce, of `GCM_NONCE_BYTES`. -/
abbrev GcmNonce := FixedOctets 12

/-- A tag, of `GCM_TAG_BYTES`. -/
abbrev GcmTag := FixedOctets 16

/-- `MAX_VAULT_OBJECT_BYTES`. -/
def maxVaultObjectBytes : Nat := 128 * 1024 * 1024

/-- `MAX_VAULT_AAD_BYTES`. -/
def maxVaultAadBytes : Nat := 64 * 1024

/-- `MAX_PROTECTED_PLAINTEXT_BYTES`. -/
def maxProtectedPlaintextBytes : Nat := 16 * 1024 * 1024

/-- `VaultCryptoError`, of the failures which the functions below tell apart. -/
inductive VaultCryptoError where
  | emptyPlaintext
  | objectTooLarge
  | aadTooLarge
  | invalidKey
  | invalidSealedObject
  | keyWrapFailed
  | keyUnwrapFailed
  | encryptFailed
  | authenticationFailed
  deriving DecidableEq

/-- `ProtectedBlobError`, of the failures which the functions below tell apart. -/
inductive ProtectedBlobError where
  | emptyInput
  | inputTooLarge
  | protectFailed
  | unprotectFailed
  deriving DecidableEq

/-- `AeadSealedV1`. -/
structure AeadSealed where
  nonce : GcmNonce
  ciphertext : Octets
  tag : GcmTag
  nonempty : ciphertext ≠ []
  bounded : ciphertext.length ≤ maxVaultObjectBytes

/-- The functions of the platform. Protection takes the random bytes which it draws. -/
structure CryptoPlatform where
  sealBytes : SecretKey32 → GcmNonce → Octets → Octets → Option (Octets × GcmTag)
  openBytes : SecretKey32 → GcmNonce → Octets → Octets → GcmTag → Option Octets
  protect : Octets → Octets → Option Octets
  unprotect : Octets → Option Octets

/-- A platform on which encryption and protection are undone by their inverses. A ciphertext has
the length of its plaintext, and a protected blob is a little longer than what it protects. -/
structure CryptoPlatform.Ideal (platform : CryptoPlatform) : Prop where
  opens : ∀ {key nonce plaintext aad ciphertext tag},
    platform.sealBytes key nonce plaintext aad = some (ciphertext, tag) →
      platform.openBytes key nonce ciphertext aad tag = some plaintext
  sameLength : ∀ {key nonce plaintext aad ciphertext tag},
    platform.sealBytes key nonce plaintext aad = some (ciphertext, tag) →
      ciphertext.length = plaintext.length
  unprotects : ∀ {random plaintext blob}, platform.protect random plaintext = some blob →
    platform.unprotect blob = some plaintext
  nonempty : ∀ {random plaintext blob}, platform.protect random plaintext = some blob → blob ≠ []
  short : ∀ {random plaintext blob}, platform.protect random plaintext = some blob →
    blob.length ≤ plaintext.length + 4096

/-- `AeadSealedV1::from_parts`. -/
def AeadSealed.fromParts (nonce ciphertext tag : Octets) : Except VaultCryptoError AeadSealed :=
  if checked : nonce.length = 12 ∧ tag.length = 16 ∧ ciphertext ≠ [] ∧
      ciphertext.length ≤ maxVaultObjectBytes then
    .ok ⟨⟨nonce, checked.1⟩, ciphertext, ⟨tag, checked.2.1⟩, checked.2.2.1, checked.2.2.2⟩
  else .error .invalidSealedObject

/-- `validate_lengths`. -/
def validateLengths (content aad : Octets) : Except VaultCryptoError Unit := do
  refuseIf (content = []) .emptyPlaintext
  refuseIf (maxVaultObjectBytes < content.length) .objectTooLarge
  refuseIf (maxVaultAadBytes < aad.length) .aadTooLarge

namespace CryptoPlatform

variable (platform : CryptoPlatform)

/-- `seal`, with the nonce which it draws. -/
def sealWith (key : SecretKey32) (nonce : GcmNonce) (plaintext aad : Octets) :
    Except VaultCryptoError AeadSealed := do
  validateLengths plaintext aad
  let (ciphertext, tag) ← presentOr (platform.sealBytes key nonce plaintext aad) .encryptFailed
  AeadSealed.fromParts nonce.1 ciphertext tag.1

/-- `open`. -/
def openWith (key : SecretKey32) (object : AeadSealed) (aad : Octets) :
    Except VaultCryptoError Octets := do
  validateLengths object.ciphertext aad
  presentOr (platform.openBytes key object.nonce object.ciphertext aad object.tag)
    .authenticationFailed

/-- `protect_local`. -/
def protectLocal (random plaintext : Octets) : Except ProtectedBlobError Octets := do
  refuseIf (plaintext = []) .emptyInput
  refuseIf (maxProtectedPlaintextBytes < plaintext.length) .inputTooLarge
  presentOr (platform.protect random plaintext) .protectFailed

/-- `unprotect_local`. -/
def unprotectLocal (ciphertext : Octets) : Except ProtectedBlobError Octets := do
  refuseIf (ciphertext = []) .emptyInput
  refuseIf (maxProtectedPlaintextBytes * 2 < ciphertext.length) .inputTooLarge
  presentOr (platform.unprotect ciphertext) .unprotectFailed

/-- `wrap_case_key`. -/
def wrapCaseKey (random : Octets) (key : SecretKey32) : Except VaultCryptoError Octets :=
  match platform.protectLocal random key.1 with
  | .ok wrapped => .ok wrapped
  | .error _ => .error .keyWrapFailed

/-- `unwrap_case_key`. -/
def unwrapCaseKey (wrapped : Octets) : Except VaultCryptoError SecretKey32 :=
  match platform.unprotectLocal wrapped with
  | .ok plaintext =>
      if sized : plaintext.length = 32 then .ok ⟨plaintext, sized⟩ else .error .invalidKey
  | .error _ => .error .keyUnwrapFailed

variable {platform} {key : SecretKey32} {nonce : GcmNonce} {plaintext aad random blob : Octets}
  {object : AeadSealed}

theorem fromParts_self (object : AeadSealed) :
    AeadSealed.fromParts object.nonce.1 object.ciphertext object.tag.1 = .ok object :=
  dif_pos ⟨object.nonce.2, object.tag.2, object.nonempty, object.bounded⟩

theorem fromParts_eq_ok {ciphertext : Octets} {tag : GcmTag}
    (made : AeadSealed.fromParts nonce.1 ciphertext tag.1 = .ok object) :
    object.nonce = nonce ∧ object.ciphertext = ciphertext ∧ object.tag = tag := by
  unfold AeadSealed.fromParts at made
  split_ifs at made
  cases made
  exact ⟨rfl, rfl, rfl⟩

/-- Lengths are admitted exactly when none of the bounds is exceeded. -/
theorem validateLengths_eq_ok {content : Octets} {passed : Unit} :
    validateLengths content aad = .ok passed ↔
      content ≠ [] ∧ content.length ≤ maxVaultObjectBytes ∧ aad.length ≤ maxVaultAadBytes := by
  rw [validateLengths, refuseIf_bind_eq_ok, refuseIf_bind_eq_ok, refuseIf_eq_ok, Nat.not_lt,
    Nat.not_lt]

/-- What a sealed object is. -/
theorem sealWith_eq_ok (done : platform.sealWith key nonce plaintext aad = .ok object) :
    plaintext ≠ [] ∧ plaintext.length ≤ maxVaultObjectBytes ∧ aad.length ≤ maxVaultAadBytes ∧
      object.nonce = nonce ∧
      platform.sealBytes key nonce plaintext aad = some (object.ciphertext, object.tag) := by
  obtain ⟨_, valid, done⟩ := bind_eq_ok.mp done
  obtain ⟨nonempty, bounded, short⟩ := validateLengths_eq_ok.mp valid
  obtain ⟨⟨ciphertext, tag⟩, computed, done⟩ := bind_eq_ok.mp done
  obtain ⟨drawn, rfl, rfl⟩ := fromParts_eq_ok done
  exact ⟨nonempty, bounded, short, drawn, presentOr_eq_ok.mp computed⟩

/-- What is sealed is opened. -/
theorem openWith_sealWith (ideal : platform.Ideal)
    (done : platform.sealWith key nonce plaintext aad = .ok object) :
    platform.openWith key object aad = .ok plaintext := by
  obtain ⟨_, _, short, drawn, computed⟩ := sealWith_eq_ok done
  have valid : validateLengths object.ciphertext aad = .ok () :=
    validateLengths_eq_ok.mpr ⟨object.nonempty, object.bounded, short⟩
  rw [openWith, valid, ok_bind, drawn, ideal.opens computed]
  rfl

theorem length_ciphertext (ideal : platform.Ideal)
    (done : platform.sealWith key nonce plaintext aad = .ok object) :
    object.ciphertext.length = plaintext.length :=
  ideal.sameLength (sealWith_eq_ok done).2.2.2.2

theorem protectLocal_eq_ok : platform.protectLocal random plaintext = .ok blob ↔
    plaintext ≠ [] ∧ plaintext.length ≤ maxProtectedPlaintextBytes ∧
      platform.protect random plaintext = some blob := by
  rw [protectLocal, refuseIf_bind_eq_ok, refuseIf_bind_eq_ok, presentOr_eq_ok, Nat.not_lt]

theorem unprotectLocal_eq_ok : platform.unprotectLocal blob = .ok plaintext ↔
    blob ≠ [] ∧ blob.length ≤ maxProtectedPlaintextBytes * 2 ∧
      platform.unprotect blob = some plaintext := by
  rw [unprotectLocal, refuseIf_bind_eq_ok, refuseIf_bind_eq_ok, presentOr_eq_ok, Nat.not_lt]

/-- What is protected is unprotected. -/
theorem unprotectLocal_protectLocal (ideal : platform.Ideal)
    (done : platform.protectLocal random plaintext = .ok blob) :
    platform.unprotectLocal blob = .ok plaintext := by
  obtain ⟨_, bounded, computed⟩ := protectLocal_eq_ok.mp done
  refine unprotectLocal_eq_ok.mpr ⟨ideal.nonempty computed, ?_, ideal.unprotects computed⟩
  have short := ideal.short computed
  rw [maxProtectedPlaintextBytes] at bounded ⊢
  omega

theorem wrapCaseKey_eq_ok : platform.wrapCaseKey random key = .ok blob ↔
    platform.protectLocal random key.1 = .ok blob := by
  rw [wrapCaseKey]
  cases platform.protectLocal random key.1 with
  | ok wrapped => exact ⟨fun same => by cases same; rfl, fun same => by cases same; rfl⟩
  | error error => exact ⟨nofun, nofun⟩

theorem unwrapCaseKey_wrapCaseKey (ideal : platform.Ideal)
    (done : platform.wrapCaseKey random key = .ok blob) : platform.unwrapCaseKey blob = .ok key := by
  rw [unwrapCaseKey, unprotectLocal_protectLocal ideal (wrapCaseKey_eq_ok.mp done)]
  exact dif_pos key.2

theorem length_wrapCaseKey (ideal : platform.Ideal)
    (done : platform.wrapCaseKey random key = .ok blob) : blob ≠ [] ∧ blob.length ≤ 4128 := by
  obtain ⟨_, _, computed⟩ := protectLocal_eq_ok.mp (wrapCaseKey_eq_ok.mp done)
  have short := ideal.short computed
  rw [key.2] at short
  exact ⟨ideal.nonempty computed, short⟩

end CryptoPlatform

end LawyerAssistance.Privacy

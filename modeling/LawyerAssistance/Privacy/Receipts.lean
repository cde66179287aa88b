import LawyerAssistance.Privacy.PlainJson
import LawyerAssistance.Privacy.Schema
import LawyerAssistance.Std.Base64
import LawyerAssistance.Std.Ordered

/-!
# Receipts of redactions

`receipt.rs`: claims are normalized, encoded and signed with HMAC; a receipt is verified against
what it is used for, and is written as a token. SHA-256 is a parameter.
-/

namespace LawyerAssistance.Privacy

/-! ## Claims -/

/-- `ReviewState`. -/
inductive ReviewState where
  | reviewRequired
  | approved
  | revoked
  deriving DecidableEq

/-- The variants of `ReviewState`. -/
def ReviewState.variants : Variants ReviewState where
  name
    | .reviewRequired => "review_required".toList
    | .approved => "approved".toList
    | .revoked => "revoked".toList
  all :=
    [.reviewRequired, .approved, .revoked]
  complete value := by cases value <;> decide
  distinct := by decide

/-- `DestinationKind`. -/
inductive DestinationKind where
  | externalProvider
  | externalMcpHost
  | verifiedLocalProvider
  deriving DecidableEq

/-- The variants of `DestinationKind`. -/
def DestinationKind.variants : Variants DestinationKind where
  name
    | .externalProvider => "external_provider".toList
    | .externalMcpHost => "external_mcp_host".toList
    | .verifiedLocalProvider => "verified_local_provider".toList
  all :=
    [.externalProvider, .externalMcpHost, .verifiedLocalProvider]
  complete value := by cases value <;> decide
  distinct := by decide

/-- `DestinationScope`. -/
structure DestinationScope where
  kind : DestinationKind
  identifier : Text
  deriving DecidableEq

/-- The codec of destinations. -/
def DestinationScope.codec : Codec DestinationScope :=
  Fields.record
    ((Fields.one "kind" (Codec.variants DestinationKind.variants)).also
      (Fields.one "identifier" Codec.text))
    (by decide)
    (fun (kind, identifier) =>
      { kind, identifier })
    (fun value => (value.kind, value.identifier))
    (fun _ => rfl)

/-- `RedactionReceiptClaims`. -/
structure RedactionReceiptClaims where
  receiptId : Text
  sourceSha256 : List Text
  extractionSha256 : Text
  redactedContentSha256 : Text
  approvedPayloadSha256 : Text
  policyId : Text
  policyVersion : UInt32
  detectorVersion : Text
  destination : DestinationScope
  purpose : Text
  unresolvedHighRiskCount : UInt32
  reviewState : ReviewState
  issuedAtUnix : UInt64
  expiresAtUnix : Option UInt64
  keyVersion : UInt32
  deriving DecidableEq

/-- The codec of claims. -/
def RedactionReceiptClaims.codec : Codec RedactionReceiptClaims :=
  Fields.record
    ((Fields.one "receiptId" Codec.text).also <|
      (Fields.one "sourceSha256" Codec.text.list).also <|
      (Fields.one "extractionSha256" Codec.text).also <|
      (Fields.one "redactedContentSha256" Codec.text).also <|
      (Fields.one "approvedPayloadSha256" Codec.text).also <|
      (Fields.one "policyId" Codec.text).also <|
      (Fields.one "policyVersion" Codec.u32).also <|
      (Fields.one "detectorVersion" Codec.text).also <|
      (Fields.one "destination" DestinationScope.codec).also <|
      (Fields.one "purpose" Codec.text).also <|
      (Fields.one "unresolvedHighRiskCount" Codec.u32).also <|
      (Fields.one "reviewState" (Codec.variants ReviewState.variants)).also <|
      (Fields.one "issuedAtUnix" Codec.u64).also <|
      (Fields.one "expiresAtUnix" (Codec.u64.option Codec.u64_solid)).also
      (Fields.one "keyVersion" Codec.u32))
    (by decide)
    (fun (receiptId, sourceSha256, extractionSha256, redactedContentSha256,
        approvedPayloadSha256, policyId, policyVersion, detectorVersion, destination, purpose,
        unresolvedHighRiskCount, reviewState, issuedAtUnix, expiresAtUnix, keyVersion) =>
      { receiptId, sourceSha256, extractionSha256, redactedContentSha256,
        approvedPayloadSha256, policyId, policyVersion, detectorVersion, destination, purpose,
        unresolvedHighRiskCount, reviewState, issuedAtUnix, expiresAtUnix, keyVersion })
    (fun value => (value.receiptId, value.sourceSha256, value.extractionSha256,
      value.redactedContentSha256, value.approvedPayloadSha256, value.policyId,
      value.policyVersion, value.detectorVersion, value.destination, value.purpose,
      value.unresolvedHighRiskCount, value.reviewState, value.issuedAtUnix,
      value.expiresAtUnix, value.keyVersion))
    (fun _ => rfl)

/-- `SignedRedactionReceipt`. -/
structure SignedRedactionReceipt where
  claims : RedactionReceiptClaims
  macHex : Text
  deriving DecidableEq

/-- `ReceiptError`. -/
inductive ReceiptError where
  | keyTooShort
  | invalidClaims
  | invalidToken
  | invalidMac
  | notApproved
  | revoked
  | expired
  | payloadMismatch
  | destinationMismatch
  | purposeMismatch
  | policyMismatch
  | detectorMismatch
  | unresolvedHighRisk
  deriving DecidableEq

/-- `ReceiptError::code`. -/
def ReceiptError.code : ReceiptError → Text
  | .keyTooShort => "receipt_key_too_short".toList
  | .invalidClaims | .invalidToken | .invalidMac => "redaction_receipt_invalid".toList
  | .notApproved => "redaction_not_approved".toList
  | .revoked => "redaction_receipt_revoked".toList
  | .expired => "redaction_receipt_expired".toList
  | .payloadMismatch => "redaction_stale".toList
  | .destinationMismatch => "redaction_receipt_destination_mismatch".toList
  | .purposeMismatch => "redaction_receipt_purpose_mismatch".toList
  | .policyMismatch => "privacy_policy_mismatch".toList
  | .detectorMismatch => "privacy_detector_mismatch".toList
  | .unresolvedHighRisk => "review_required".toList

/-- `ReceiptVerificationContext`. -/
structure ReceiptVerificationContext where
  payload : Octets
  destination : DestinationScope
  purpose : Text
  policyId : Text
  policyVersion : UInt32
  detectorVersion : Text
  nowUnix : UInt64

/-! ## Normal claims -/

/-- `is_hex`, of a character. -/
def isHex (character : Char) : Bool :=
  character.isDigit || decide ('a' ≤ character ∧ character ≤ 'f') ||
    decide ('A' ≤ character ∧ character ≤ 'F')

/-- `valid_hash`, of a receipt. -/
def Receipt.validHash (value : Text) : Bool :=
  decide (Text.byteLength value = 64) && value.all isHex

/-- `validate_identifier`. -/
def validateIdentifier (value : Text) : Except ReceiptError Unit :=
  refuseIf (value = [] ∨ 128 < Text.byteLength value ∨ value.any Text.isControl = true)
    .invalidClaims

/-- The sources of claims are sorted, and no source is repeated. -/
def RedactionReceiptClaims.normalized (claims : RedactionReceiptClaims) :
    RedactionReceiptClaims :=
  { claims with sourceSha256 := sortedSet claims.sourceSha256 }

/-- The checks of `normalize_and_validate_claims`, of claims which are normalized. -/
def validateClaims (claims : RedactionReceiptClaims) : Except ReceiptError Unit := do
  refuseIf (claims.sourceSha256 = [] ∨ claims.policyVersion = 0 ∨ claims.keyVersion = 0 ∨
    claims.issuedAtUnix = 0 ∨
    claims.expiresAtUnix.any (fun expires => decide (expires ≤ claims.issuedAtUnix)) = true ∨
    claims.sourceSha256.any (fun value => !Receipt.validHash value) = true ∨
    Receipt.validHash claims.extractionSha256 = false ∨
    Receipt.validHash claims.redactedContentSha256 = false ∨
    Receipt.validHash claims.approvedPayloadSha256 = false) .invalidClaims
  validateIdentifier claims.destination.identifier
  validateIdentifier claims.policyId
  validateIdentifier claims.detectorVersion
  validateIdentifier claims.purpose
  if claims.receiptId ≠ [] then validateIdentifier claims.receiptId else pure ()
  refuseIf ((sortedSet claims.sourceSha256).length ≠ claims.sourceSha256.length) .invalidClaims

/-- `normalize_and_validate_claims`. -/
def normalizeAndValidateClaims (claims : RedactionReceiptClaims) :
    Except ReceiptError RedactionReceiptClaims := do
  validateClaims claims.normalized
  pure claims.normalized

/-! ## Signatures -/

/-- A digest of SHA-256. -/
abbrev Digest : Type := {bytes : Octets // bytes.length = 32}

/-- `hex`. -/
def hexText (bytes : Octets) : Text :=
  bytes.flatMap fun byte =>
    [Json.hexCharacter (byte.toNat / 16), Json.hexCharacter (byte.toNat % 16)]

section Sign

variable (sha256 : Octets → Digest)

/-- `sha256_hex`. -/
def hexDigest (bytes : Octets) : Text := hexText (sha256 bytes).1

/-- The key of an HMAC, in a block of 64 bytes. -/
def hmacBlock (key : Octets) : Octets :=
  let start := if 64 < key.length then (sha256 key).1 else key
  start ++ List.replicate (64 - start.length) 0

/-- `hmac_sha256`. -/
def hmacSha256 (key message : Octets) : Digest :=
  let block := hmacBlock sha256 key
  sha256 (block.map (· ^^^ 0x5c) ++ (sha256 (block.map (· ^^^ 0x36) ++ message)).1)

/-- `ReceiptSigner`. -/
structure ReceiptSigner where
  key : Octets

/-- `ReceiptSigner::new`. -/
def ReceiptSigner.new (key : Octets) : Except ReceiptError ReceiptSigner := do
  refuseIf (key.length < 32) .keyTooShort
  pure ⟨key⟩

namespace ReceiptSigner

/-- What is signed of claims. -/
def message (claims : RedactionReceiptClaims) : Option Octets :=
  toVec (RedactionReceiptClaims.codec.write claims)

/-- The identifier of a receipt without one. -/
def identified (claims : RedactionReceiptClaims) : Except ReceiptError RedactionReceiptClaims :=
  if claims.receiptId = [] then do
    let seed ← presentOr (message claims) .invalidClaims
    pure { claims with receiptId := "rct_".toList ++ (hexDigest sha256 seed).take 24 }
  else pure claims

/-- `issue`. -/
def issue (signer : ReceiptSigner) (claims : RedactionReceiptClaims) :
    Except ReceiptError SignedRedactionReceipt := do
  let claims ← normalizeAndValidateClaims claims
  let claims ← identified sha256 claims
  validateIdentifier claims.receiptId
  let message ← presentOr (message claims) .invalidClaims
  pure ⟨claims, hexText (hmacSha256 sha256 signer.key message).1⟩

/-- `ReviewState`, when a receipt is verified. -/
def checkState : ReviewState → Except ReceiptError Unit
  | .approved => pure ()
  | .revoked => .error .revoked
  | .reviewRequired => .error .notApproved

/-- `verify`. -/
def verify (signer : ReceiptSigner) (receipt : SignedRedactionReceipt)
    (context : ReceiptVerificationContext) : Except ReceiptError Unit := do
  let normalized ← normalizeAndValidateClaims receipt.claims
  refuseIf (normalized ≠ receipt.claims) .invalidClaims
  let message ← presentOr (message receipt.claims) .invalidClaims
  refuseIf (hexText (hmacSha256 sha256 signer.key message).1 ≠ receipt.macHex) .invalidMac
  checkState receipt.claims.reviewState
  refuseIf (receipt.claims.unresolvedHighRiskCount ≠ 0) .unresolvedHighRisk
  refuseIf (receipt.claims.expiresAtUnix.any (fun expires => decide (expires ≤ context.nowUnix)) =
    true) .expired
  refuseIf (context.nowUnix < receipt.claims.issuedAtUnix) .invalidClaims
  refuseIf (receipt.claims.approvedPayloadSha256 ≠ hexDigest sha256 context.payload)
    .payloadMismatch
  refuseIf (receipt.claims.destination ≠ context.destination) .destinationMismatch
  refuseIf (receipt.claims.purpose ≠ context.purpose) .purposeMismatch
  refuseIf (receipt.claims.policyId ≠ context.policyId ∨
    receipt.claims.policyVersion ≠ context.policyVersion) .policyMismatch
  refuseIf (receipt.claims.detectorVersion ≠ context.detectorVersion) .detectorMismatch

/-- `RECEIPT_TOKEN_PREFIX`. -/
def receiptTokenPrefix : Text := "rct_v1".toList

/-- `encode_token`. -/
def encodeToken (receipt : SignedRedactionReceipt) : Except ReceiptError Text := do
  let payload ← presentOr (message receipt.claims) .invalidClaims
  pure (receiptTokenPrefix ++ '.' :: (Base64Url.encodeLetters payload ++ '.' :: receipt.macHex))

/-- `decode_token`. -/
def decodeToken (token : Text) : Except ReceiptError SignedRedactionReceipt :=
  match token.splitOn '.' with
  | first :: rest => do
      refuseIf (first ≠ receiptTokenPrefix) .invalidToken
      match rest with
      | payload :: macHex :: rest => do
          refuseIf (rest ≠ [] ∨ Text.byteLength macHex ≠ 64 ∨ macHex.all isHex = false)
            .invalidToken
          let bytes ← presentOr (Base64Url.decode (String.ofList payload)) .invalidToken
          let claims ← presentOr (fromSlice RedactionReceiptClaims.codec bytes) .invalidToken
          pure ⟨claims, macHex⟩
      | _ => .error .invalidToken
  | [] => .error .invalidToken

end ReceiptSigner

end Sign

end LawyerAssistance.Privacy

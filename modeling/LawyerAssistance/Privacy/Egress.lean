import LawyerAssistance.Privacy.ReceiptTokens

/-!
# The gate of outbound payloads

`egress.rs`: a payload leaves the workspace when its classification admits its destination, and an
approved case payload when a receipt is verified for it. Every decision is recorded. The redactor
which scans for residual content is a parameter.
-/

namespace LawyerAssistance.Privacy

/-! ## Candidates -/

/-- `DataClassification`. -/
inductive DataClassification where
  | legalPublic
  | productPublic
  | interactiveUserProvided
  | caseRaw
  | caseRedactedPending
  | caseRedactedApproved
  | secret
deriving DecidableEq

/-- `REDACTION_VERSION`. -/
def redactionVersion : Text := "lawyer-assistance-content-redaction-v3".toList

/-- `RedactionSummary`: what a redactor found, by kind, and whether it changed anything. -/
structure RedactionSummary where
  counts : List (Text × Nat)
  changed : Bool

/-- The summaries of a new redactor, of a JSON value and of a text. -/
structure Redactor where
  redactJson : Json.Tree → RedactionSummary
  redact : Text → RedactionSummary

/-- `ResidualScanResult`. -/
structure ResidualScanResult where
  passed : Bool
  counts : List (Text × Nat)
  detectorVersion : Text

/-- `EgressError`. -/
inductive EgressError where
  | payloadTooLarge
  | nonUtf8Payload
  | classificationForbidden
  | receiptRequired
  | residualSensitiveContent
  | invalidPolicy
  | receipt (error : ReceiptError)
deriving DecidableEq

/-- `EgressError::code`. -/
def EgressError.code : EgressError → Text
  | .payloadTooLarge => "privacy_payload_too_large".toList
  | .nonUtf8Payload => "privacy_payload_non_utf8".toList
  | .classificationForbidden => "classification_forbidden".toList
  | .receiptRequired => "redaction_required".toList
  | .residualSensitiveContent => "residual_sensitive_content".toList
  | .invalidPolicy => "privacy_policy_invalid".toList
  | .receipt error => error.code

/-- `EgressCandidate`. -/
structure EgressCandidate where
  payload : Octets
  classification : DataClassification
  destination : DestinationScope
  purpose : Text
  receipt : Option SignedRedactionReceipt
  nowUnix : UInt64

/-- `ApprovedOutboundPayload`. -/
structure ApprovedOutboundPayload where
  payload : Octets
  payloadSha256 : Text
  destination : DestinationScope
  classification : DataClassification
  receiptId : Option Text

/-- `PrivacyEgressAuditRecord`. -/
structure PrivacyEgressAuditRecord where
  occurredAtUnix : UInt64
  classification : DataClassification
  destinationKind : DestinationKind
  destinationIdentifierSha256 : Text
  purpose : Text
  payloadSha256 : Text
  payloadBytes : Nat
  policyId : Text
  policyVersion : UInt32
  detectorVersion : Text
  receiptId : Option Text
  residualCounts : List (Text × Nat)
  allowed : Bool
  reasonCode : Text

/-- `EgressPolicyEngine`. -/
structure EgressPolicyEngine where
  signer : ReceiptSigner
  policyId : Text
  policyVersion : UInt32
  maxPayloadBytes : Nat
  allowVerifiedLocalRaw : Bool

/-! ## Decisions -/

section Gate

variable (sha256 : Octets → Digest) (redactor : Redactor)

/-- `scan_residual`. -/
def scanResidual (payload : Octets) : Except EgressError ResidualScanResult := do
  let text ← presentOr (String.fromUTF8? ⟨payload.toArray⟩) .nonUtf8Payload
  let summary := match Json.read maxDepth text.toList with
    | some (.object members) => redactor.redactJson (.object members)
    | some (.array elements) => redactor.redactJson (.array elements)
    | some (.string value) => redactor.redact value
    | _ => redactor.redact text.toList
  pure ⟨!summary.changed, summary.counts, redactionVersion⟩

/-- What a receipt is verified for. -/
def EgressPolicyEngine.context (engine : EgressPolicyEngine) (candidate : EgressCandidate) :
    ReceiptVerificationContext :=
  ⟨candidate.payload, candidate.destination, candidate.purpose, engine.policyId,
    engine.policyVersion, redactionVersion, candidate.nowUnix⟩

/-- The classification of a candidate admits its destination. -/
def EgressPolicyEngine.checkClassification (engine : EgressPolicyEngine)
    (candidate : EgressCandidate) : Except EgressError Unit :=
  match candidate.classification with
  | .legalPublic | .productPublic => .ok ()
  | .interactiveUserProvided =>
      refuseIf (candidate.destination.kind ≠ .externalProvider ∧
        candidate.destination.kind ≠ .verifiedLocalProvider) .classificationForbidden
  | .caseRedactedApproved => do
      let receipt ← presentOr candidate.receipt .receiptRequired
      mapError .receipt (engine.signer.verify sha256 receipt (engine.context candidate))
  | .caseRaw =>
      refuseIf (¬ (candidate.destination.kind = .verifiedLocalProvider ∧
        engine.allowVerifiedLocalRaw = true)) .classificationForbidden
  | .caseRedactedPending | .secret => .error .classificationForbidden

/-- `authorize_scanned`. -/
def EgressPolicyEngine.authorizeScanned (engine : EgressPolicyEngine)
    (candidate : EgressCandidate) (scan : Option ResidualScanResult) :
    Except EgressError ApprovedOutboundPayload := do
  refuseIf (engine.maxPayloadBytes < candidate.payload.length) .payloadTooLarge
  let scan ← presentOr scan .nonUtf8Payload
  refuseIf (candidate.classification ≠ .interactiveUserProvided ∧ scan.passed = false)
    .residualSensitiveContent
  engine.checkClassification sha256 candidate
  pure ⟨candidate.payload, hexDigest sha256 candidate.payload, candidate.destination,
    candidate.classification, candidate.receipt.map fun receipt => receipt.claims.receiptId⟩

/-- `authorize_with_audit`. -/
def EgressPolicyEngine.authorizeWithAudit (engine : EgressPolicyEngine)
    (candidate : EgressCandidate) :
    Except EgressError ApprovedOutboundPayload × PrivacyEgressAuditRecord :=
  let scan := (scanResidual redactor candidate.payload).toOption
  let result := engine.authorizeScanned sha256 candidate scan
  (result,
    { occurredAtUnix := candidate.nowUnix
      classification := candidate.classification
      destinationKind := candidate.destination.kind
      destinationIdentifierSha256 :=
        hexDigest sha256 (utf8 (String.ofList candidate.destination.identifier))
      purpose := candidate.purpose
      payloadSha256 := hexDigest sha256 candidate.payload
      payloadBytes := candidate.payload.length
      policyId := engine.policyId
      policyVersion := engine.policyVersion
      detectorVersion := redactionVersion
      receiptId := candidate.receipt.map fun receipt => receipt.claims.receiptId
      residualCounts := (scan.map ResidualScanResult.counts).getD []
      allowed := match result with
        | .ok _ => true
        | .error _ => false
      reasonCode := match result with
        | .ok _ => "allowed".toList
        | .error error => error.code })

end Gate

/-! ## What is to hold -/

section Sound

variable (sha256 : Octets → Digest) (redactor : Redactor) (engine : EgressPolicyEngine)
  (candidate : EgressCandidate)

/-- The code of a receipt is known only from the signer: whoever has the code of the claims has it
from a receipt in the history. -/
def Unforged (signer : ReceiptSigner) (history : List SignedRedactionReceipt)
    (receipt : SignedRedactionReceipt) : Prop :=
  ∀ message, ReceiptSigner.message receipt.claims = some message →
    receipt.macHex = hexText (hmacSha256 sha256 signer.key message).1 →
    ∃ issued ∈ history, ReceiptSigner.message issued.claims = some message

/-- A receipt is for a candidate: it is approved without an unresolved risk, it is valid at the
time, and it names the payload, the destination, the purpose, the policy and the detector. -/
structure Attests (receipt : SignedRedactionReceipt) : Prop where
  approved : receipt.claims.reviewState = .approved
  resolved : receipt.claims.unresolvedHighRiskCount = 0
  begun : receipt.claims.issuedAtUnix ≤ candidate.nowUnix
  unexpired : ∀ expires, receipt.claims.expiresAtUnix = some expires → candidate.nowUnix < expires
  payload : receipt.claims.approvedPayloadSha256 = hexDigest sha256 candidate.payload
  destination : receipt.claims.destination = candidate.destination
  purpose : receipt.claims.purpose = candidate.purpose
  policy : receipt.claims.policyId = engine.policyId ∧
    receipt.claims.policyVersion = engine.policyVersion
  detector : receipt.claims.detectorVersion = redactionVersion

/-- The gate is sound for a candidate. -/
structure GateSound : Prop where
  exact : ∀ approved, (engine.authorizeWithAudit sha256 redactor candidate).1 = .ok approved →
    approved.payload = candidate.payload ∧
      approved.payloadSha256 = hexDigest sha256 candidate.payload ∧
      approved.destination = candidate.destination ∧
      approved.classification = candidate.classification ∧
      approved.receiptId = candidate.receipt.map fun receipt => receipt.claims.receiptId
  scanned : ∀ approved, (engine.authorizeWithAudit sha256 redactor candidate).1 = .ok approved →
    candidate.payload.length ≤ engine.maxPayloadBytes ∧
      ∃ scan, scanResidual redactor candidate.payload = .ok scan ∧
        (candidate.classification ≠ .interactiveUserProvided → scan.passed = true)
  classified : ∀ approved, (engine.authorizeWithAudit sha256 redactor candidate).1 = .ok approved →
    candidate.classification ≠ .secret ∧ candidate.classification ≠ .caseRedactedPending ∧
      (candidate.classification = .caseRaw →
        candidate.destination.kind = .verifiedLocalProvider ∧ engine.allowVerifiedLocalRaw = true) ∧
      (candidate.classification = .interactiveUserProvided →
        candidate.destination.kind ≠ .externalMcpHost)
  issued : ∀ approved, (engine.authorizeWithAudit sha256 redactor candidate).1 = .ok approved →
    candidate.classification = .caseRedactedApproved →
    ∃ receipt, candidate.receipt = some receipt ∧ Attests sha256 engine candidate receipt ∧
      ∀ history, (∀ other ∈ history, ∃ claims, engine.signer.issue sha256 claims = .ok other) →
        Unforged sha256 engine.signer history receipt → receipt ∈ history
  audited : (engine.authorizeWithAudit sha256 redactor candidate).2.allowed = true ↔
    ∃ approved, (engine.authorizeWithAudit sha256 redactor candidate).1 = .ok approved

end Sound

/-! ## The gate is sound -/

section Soundness

variable {sha256 : Octets → Digest} {redactor : Redactor} {engine : EgressPolicyEngine}
  {candidate : EgressCandidate} {approved : ApprovedOutboundPayload}
  {receipt : SignedRedactionReceipt}

/-- What an approved payload went through. -/
theorem admitted_of_authorize
    (done : (engine.authorizeWithAudit sha256 redactor candidate).1 = .ok approved) :
    candidate.payload.length ≤ engine.maxPayloadBytes ∧
      (∃ scan, scanResidual redactor candidate.payload = .ok scan ∧
        (candidate.classification ≠ .interactiveUserProvided → scan.passed = true)) ∧
      engine.checkClassification sha256 candidate = .ok () ∧
      approved = ⟨candidate.payload, hexDigest sha256 candidate.payload, candidate.destination,
        candidate.classification,
        candidate.receipt.map fun receipt => receipt.claims.receiptId⟩ := by
  obtain ⟨small, done⟩ := refuseIf_bind_eq_ok.mp done
  obtain ⟨scan, present, done⟩ := bind_eq_ok.mp done
  obtain ⟨clean, done⟩ := refuseIf_bind_eq_ok.mp done
  obtain ⟨_, admitted, same⟩ := bind_eq_ok.mp done
  cases same
  refine ⟨Nat.not_lt.mp small, ⟨scan, ?_, fun other => ?_⟩, admitted, rfl⟩
  · have present := presentOr_eq_ok.mp present
    cases scans : scanResidual redactor candidate.payload with
    | ok found =>
        rw [scans] at present
        exact congrArg Except.ok (Option.some.inj present)
    | error error =>
        rw [scans] at present
        cases present
  · exact Bool.of_not_eq_false fun failed => clean ⟨other, failed⟩

/-- A receipt which is verified has the code of its claims, and is for the candidate. -/
theorem attests_of_verify
    (verified : engine.signer.verify sha256 receipt (engine.context candidate) = .ok ()) :
    Attests sha256 engine candidate receipt ∧
      ∃ message, ReceiptSigner.message receipt.claims = some message ∧
        receipt.macHex = hexText (hmacSha256 sha256 engine.signer.key message).1 := by
  obtain ⟨_, _, verified⟩ := bind_eq_ok.mp verified
  obtain ⟨_, verified⟩ := refuseIf_bind_eq_ok.mp verified
  obtain ⟨message, encoded, verified⟩ := bind_eq_ok.mp verified
  obtain ⟨code, verified⟩ := refuseIf_bind_eq_ok.mp verified
  obtain ⟨_, approved, verified⟩ := bind_eq_ok.mp verified
  obtain ⟨resolved, verified⟩ := refuseIf_bind_eq_ok.mp verified
  obtain ⟨expired, verified⟩ := refuseIf_bind_eq_ok.mp verified
  obtain ⟨begun, verified⟩ := refuseIf_bind_eq_ok.mp verified
  obtain ⟨payload, verified⟩ := refuseIf_bind_eq_ok.mp verified
  obtain ⟨destination, verified⟩ := refuseIf_bind_eq_ok.mp verified
  obtain ⟨purpose, verified⟩ := refuseIf_bind_eq_ok.mp verified
  obtain ⟨policy, verified⟩ := refuseIf_bind_eq_ok.mp verified
  have detector := refuseIf_eq_ok.mp verified
  refine ⟨?_, message, presentOr_eq_ok.mp encoded, (not_not.mp code).symm⟩
  refine
    { approved := ?_, resolved := not_not.mp resolved, begun := UInt64.not_lt.mp begun
      unexpired := fun expires some => ?_, payload := not_not.mp payload
      destination := not_not.mp destination, purpose := not_not.mp purpose
      policy := (not_or.mp policy).imp not_not.mp not_not.mp, detector := not_not.mp detector }
  · cases state : receipt.claims.reviewState with
    | approved => rfl
    | revoked | reviewRequired =>
        rw [state] at approved
        cases approved
  · rw [some] at expired
    exact UInt64.not_le.mp fun late => expired (decide_eq_true late)

/-- A receipt with the code of its claims is in every history from which the code is known. -/
theorem mem_of_unforged {signer : ReceiptSigner} {history : List SignedRedactionReceipt}
    {message : Octets} (encoded : ReceiptSigner.message receipt.claims = some message)
    (code : receipt.macHex = hexText (hmacSha256 sha256 signer.key message).1)
    (issued : ∀ other ∈ history, ∃ claims, signer.issue sha256 claims = .ok other)
    (unforged : Unforged sha256 signer history receipt) : receipt ∈ history := by
  obtain ⟨other, among, same⟩ := unforged message encoded code
  obtain ⟨claims, done⟩ := issued other among
  obtain ⟨message', encoded', code'⟩ := macHex_of_issue done
  obtain rfl : message = message' := Option.some.inj (same.symm.trans encoded')
  have claims : receipt.claims = other.claims := message_injective (encoded.trans same.symm)
  have equal : receipt = other := by
    cases receipt
    cases other
    exact congr (congrArg SignedRedactionReceipt.mk claims) (code.trans code'.symm)
  exact equal ▸ among

/-- A payload is approved with what its classification asks for, and as it is: a case payload only
with a receipt which was issued for it. The decision is what is recorded. -/
theorem egress_gate_is_sound (sha256 : Octets → Digest) (redactor : Redactor)
    (engine : EgressPolicyEngine) (candidate : EgressCandidate) :
    GateSound sha256 redactor engine candidate where
  exact approved done := by
    obtain ⟨_, _, _, rfl⟩ := admitted_of_authorize done
    exact ⟨rfl, rfl, rfl, rfl, rfl⟩
  scanned approved done := by
    obtain ⟨small, scan, _, _⟩ := admitted_of_authorize done
    exact ⟨small, scan⟩
  classified approved done := by
    obtain ⟨_, _, admitted, _⟩ := admitted_of_authorize done
    refine ⟨?_, ?_, ?_, ?_⟩
    · intro secret
      rw [EgressPolicyEngine.checkClassification, secret] at admitted
      cases admitted
    · intro pending
      rw [EgressPolicyEngine.checkClassification, pending] at admitted
      cases admitted
    · intro raw
      rw [EgressPolicyEngine.checkClassification, raw] at admitted
      exact not_not.mp (refuseIf_eq_ok.mp admitted)
    · intro interactive host
      rw [EgressPolicyEngine.checkClassification, interactive, host] at admitted
      cases admitted
  issued approved done case := by
    obtain ⟨_, _, admitted, _⟩ := admitted_of_authorize done
    rw [EgressPolicyEngine.checkClassification, case] at admitted
    obtain ⟨receipt, present, verified⟩ := bind_eq_ok.mp admitted
    obtain ⟨attests, message, encoded, code⟩ := attests_of_verify (mapError_eq_ok.mp verified)
    exact ⟨receipt, presentOr_eq_ok.mp present, attests, fun history issued unforged =>
      mem_of_unforged encoded code issued unforged⟩
  audited := by
    change (match (engine.authorizeWithAudit sha256 redactor candidate).1 with
      | .ok _ => true
      | .error _ => false) = true ↔ _
    cases (engine.authorizeWithAudit sha256 redactor candidate).1 with
    | ok approved => simp
    | error error => simp

end Soundness

/-- A payload with an issued receipt is approved. -/
example : (do
    let receipt ← (ReceiptSigner.issue (fun _ => ⟨List.replicate 32 0, List.length_replicate⟩)
      ⟨List.replicate 32 0⟩ approvedClaims).toOption
    (EgressPolicyEngine.authorizeWithAudit (fun _ => ⟨List.replicate 32 0, List.length_replicate⟩)
      ⟨fun _ => ⟨[], false⟩, fun _ => ⟨[], false⟩⟩
      ⟨⟨List.replicate 32 0⟩, "policy-1".toList, 1, 64, false⟩
      ⟨[], .caseRedactedApproved, approvedClaims.destination, "chat".toList, some receipt,
        150⟩).1.toOption).isSome = true := by
  decide +kernel

end LawyerAssistance.Privacy

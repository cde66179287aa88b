import LawyerAssistance.Privacy.Findings
import LawyerAssistance.Std.Ordered
import Mathlib.Data.Prod.Lex
import Mathlib.Order.Lattice

/-!
# The finding engine

`finding_engine.rs`: candidates of detectors are grouped by where they are and what they are of, and
each group is merged into one finding. SHA-256 is a parameter.
-/

namespace LawyerAssistance.Privacy

/-! ## Candidates -/

/-- `FindingEngineError`. -/
inductive FindingEngineError where
  | emptyInput
  | candidateLimitExceeded
  | invalidCandidate
  | invalidPolicy
  | invalidOutput
  deriving DecidableEq

/-- `FINDING_ENGINE_VERSION`. -/
def findingEngineVersion : Text := "privacy-finding-engine-v1".toList

/-- `MAX_FINDING_CANDIDATES`. -/
def maxFindingCandidates : Nat := 100000

/-- `FindingPolicyV1`. -/
structure FindingPolicy where
  policyId : Text
  policyVersion : UInt64
  minimumDetectorAgreement : UInt8
  highConfidencePpm : ConfidencePpm
  lowOcrConfidencePpm : ConfidencePpm
  deriving DecidableEq

/-- `FindingPolicyV1::validate`. -/
def FindingPolicy.validate (policy : FindingPolicy) : Except FindingEngineError Unit :=
  refuseIf (policy.policyId = [] ∨ 128 < Text.byteLength policy.policyId ∨
    policy.policyId.any Text.isControl = true ∨ policy.policyVersion = 0 ∨
    ¬ (1 ≤ policy.minimumDetectorAgreement ∧ policy.minimumDetectorAgreement ≤ 8)) .invalidPolicy

/-- `safe_token`. -/
def safeToken (value : Text) (maximum : Nat) : Bool :=
  decide (value ≠ []) && decide (Text.byteLength value ≤ maximum) &&
    decide (Text.trim value = value) && !value.any Text.isControl

/-- `safe_version`. -/
def safeVersion (value : Text) : Bool := safeToken value 128

/-- `valid_replacement`. -/
def FindingEngine.validReplacement (value : Text) : Bool :=
  safeToken value 128 && value.head? == some '[' && value.getLast? == some ']' &&
    !decide (['.', '.'] <:+: value)

/-- `valid_geometry`. -/
def validGeometry (geometry : FindingGeometry) : Bool :=
  safeToken geometry.coordinateSystem 64 && decide (geometry.polygonMicropoints.length ≤ 128) &&
    geometry.polygonMicropoints.all (fun point => point.1.all fun value => decide (0 ≤ value)) &&
    geometry.bboxMicropoints.all fun bbox =>
      decide (0 ≤ bbox.1.getD 0 0) && decide (0 ≤ bbox.1.getD 1 0) &&
        decide (bbox.1.getD 0 0 < bbox.1.getD 2 0) && decide (bbox.1.getD 1 0 < bbox.1.getD 3 0)

/-- `FindingCandidateV1`. -/
structure FindingCandidate where
  pageIndex : UInt32
  blockId : Text
  startOffset : UInt32
  endOffset : UInt32
  geometry : Option FindingGeometry
  entityType : EntityType
  detectorSource : Text
  detectorVersion : Text
  modelVersions : Codec.TextMap
  rawScorePpm : Option ConfidencePpm
  calibratedConfidencePpm : Option ConfidencePpm
  ocrConfidencePpm : Option ConfidencePpm
  layoutConfidencePpm : Option ConfidencePpm
  normalizationEvidenceHash : Option Sha256Hex
  confusableEvidenceHash : Option Sha256Hex
  caseDictionaryMatch : Bool
  valueFingerprint : Sha256Hex
  proposedReplacement : Option Text
  privateValueRef : PrivateValueRef
  validationPassed : Bool
  automaticReplacementAllowed : Bool
  replacementVerified : Bool
  deriving DecidableEq

/-- `FindingCandidateV1::validate`. -/
def FindingCandidate.validate (candidate : FindingCandidate) : Except FindingEngineError Unit :=
  refuseIf (candidate.endOffset ≤ candidate.startOffset ∨ safeToken candidate.blockId 256 = false ∨
    safeToken candidate.detectorSource 128 = false ∨
    safeVersion candidate.detectorVersion = false ∨ 64 < candidate.modelVersions.1.length ∨
    candidate.privateValueRef.objectVersion = 0 ∨
    candidate.modelVersions.1.any (fun entry => !safeToken entry.1 128 || !safeVersion entry.2) =
      true ∨
    candidate.proposedReplacement.any (fun value => !FindingEngine.validReplacement value) = true ∨
    candidate.geometry.any (fun geometry => !validGeometry geometry) = true) .invalidCandidate

/-! ## Groups -/

/-- The place of a type in the order of their declaration. -/
def EntityType.rank (entityType : EntityType) : Nat := EntityType.variants.all.idxOf entityType

theorem EntityType.rank_injective : Function.Injective EntityType.rank := by
  intro first second
  revert first second
  decide

/-- `GroupKey`: where a value is, its type and its fingerprint. -/
structure GroupKey where
  pageIndex : UInt32
  blockId : Text
  startOffset : UInt32
  endOffset : UInt32
  entityType : EntityType
  valueFingerprint : Sha256Hex
  deriving DecidableEq

/-- The order of groups, field by field. -/
def GroupKey.rank (key : GroupKey) : Nat ×ₗ Text ×ₗ Nat ×ₗ Nat ×ₗ Nat ×ₗ Text :=
  toLex (key.pageIndex.toNat, toLex (key.blockId, toLex (key.startOffset.toNat,
    toLex (key.endOffset.toNat, toLex (key.entityType.rank, key.valueFingerprint.1)))))

theorem GroupKey.rank_injective : Function.Injective GroupKey.rank := by
  rintro ⟨page, block, start, ends, entity, fingerprint⟩ ⟨page', block', start', ends', entity',
    fingerprint'⟩ same
  simp only [GroupKey.rank, EmbeddingLike.apply_eq_iff_eq, Prod.mk.injEq, UInt32.toNat_inj] at same
  obtain ⟨rfl, rfl, rfl, rfl, entities, fingerprints⟩ := same
  obtain rfl := EntityType.rank_injective entities
  obtain rfl := Subtype.ext fingerprints
  rfl

instance : LinearOrder GroupKey := LinearOrder.lift' GroupKey.rank GroupKey.rank_injective

/-- The key of a candidate. -/
def FindingCandidate.key (candidate : FindingCandidate) : GroupKey where
  pageIndex := candidate.pageIndex
  blockId := candidate.blockId
  startOffset := candidate.startOffset
  endOffset := candidate.endOffset
  entityType := candidate.entityType
  valueFingerprint := candidate.valueFingerprint

/-- Whether two keys are of one place: of one `LocationKey`. -/
def GroupKey.sameLocation (key other : GroupKey) : Bool :=
  decide (key.pageIndex = other.pageIndex ∧ key.blockId = other.blockId ∧
    key.startOffset = other.startOffset ∧ key.endOffset = other.endOffset)

/-- Whether a place has not one type with one value. -/
def locationConflict (candidates : List FindingCandidate) (key : GroupKey) : Bool :=
  decide ((((candidates.map FindingCandidate.key).filter key.sameLocation).map fun other =>
    (other.entityType, other.valueFingerprint)).dedup.length ≠ 1)

/-! ## Evidence -/

/-- `max_confidence`. -/
def maxConfidence : Option ConfidencePpm → Option ConfidencePpm → Option ConfidencePpm
  | some left, some right => some (if left.1 ≤ right.1 then right else left)
  | left, right => left.or right

/-- `min_confidence`. -/
def minConfidence : Option ConfidencePpm → Option ConfidencePpm → Option ConfidencePpm
  | some left, some right => some (if right.1 < left.1 then right else left)
  | left, right => left.or right

/-- What a group of candidates is merged into. -/
structure GroupEvidence where
  geometry : Option FindingGeometry
  privateValueRef : PrivateValueRef
  detectorSources : List Text
  detectorVersions : Codec.TextMap
  modelVersions : Codec.TextMap
  replacements : List Text
  conflict : Bool
  caseDictionaryMatch : Bool
  rawScorePpm : Option ConfidencePpm
  calibratedConfidencePpm : Option ConfidencePpm
  ocrConfidencePpm : Option ConfidencePpm
  layoutConfidencePpm : Option ConfidencePpm
  normalizationHash : Option Sha256Hex
  confusableHash : Option Sha256Hex
  validationPassed : Bool
  replacementVerified : Bool

/-- The versions of the detectors of a group, as they are inserted. -/
def detectorEntries (group : List FindingCandidate) : List (Text × Text) :=
  group.map fun candidate => (candidate.detectorSource, candidate.detectorVersion)

/-- The versions of the models of a group, as they are inserted. -/
def modelEntries (group : List FindingCandidate) : List (Text × Text) :=
  group.flatMap fun candidate => candidate.modelVersions.1

/-- The loop of `merge_group`, over a group which is sorted and its first candidate. -/
def gatherEvidence (first : FindingCandidate) (group : List FindingCandidate) (conflict : Bool) :
    GroupEvidence where
  geometry := first.geometry
  privateValueRef := first.privateValueRef
  detectorSources := sortedSet (group.map FindingCandidate.detectorSource)
  detectorVersions := SortedMap.ofList (detectorEntries group)
  modelVersions := SortedMap.ofList (modelEntries group)
  replacements := sortedSet (group.filterMap FindingCandidate.proposedReplacement)
  conflict := conflict || overwrites [] (detectorEntries group) ||
    overwrites [] (modelEntries group) ||
    group.any (fun candidate => decide (candidate.privateValueRef ≠ first.privateValueRef)) ||
    decide (1 < (group.filterMap FindingCandidate.proposedReplacement).dedup.length)
  caseDictionaryMatch := group.any FindingCandidate.caseDictionaryMatch
  rawScorePpm := group.foldl (fun score candidate => maxConfidence score candidate.rawScorePpm) none
  calibratedConfidencePpm := group.foldl
    (fun score candidate => maxConfidence score candidate.calibratedConfidencePpm) none
  ocrConfidencePpm := group.foldl
    (fun score candidate => minConfidence score candidate.ocrConfidencePpm) none
  layoutConfidencePpm := group.foldl
    (fun score candidate => minConfidence score candidate.layoutConfidencePpm) none
  normalizationHash := group.findSome? FindingCandidate.normalizationEvidenceHash
  confusableHash := group.findSome? FindingCandidate.confusableEvidenceHash
  validationPassed := group.all FindingCandidate.validationPassed
  replacementVerified := group.all FindingCandidate.replacementVerified

/-! ## Identifiers -/

/-- `entity_code`. -/
def entityCode : EntityType → Text
  | .personName => "PERSON".toList
  | .organizationName => "ORG".toList
  | .caseNumber => "CASE_NUMBER".toList
  | .identityNumber => "IDENTITY".toList
  | .passportNumber => "PASSPORT".toList
  | .phoneNumber => "PHONE".toList
  | .landlineNumber => "LANDLINE".toList
  | .bankAccount => "BANK_ACCOUNT".toList
  | .emailAddress => "EMAIL".toList
  | .address => "ADDRESS".toList
  | .organizationCode => "ORG_CODE".toList
  | .businessLicenseNumber => "BUSINESS_LICENSE".toList
  | .vehiclePlate => "VEHICLE_PLATE".toList
  | .ipAddress => "IP".toList
  | .socialAccount => "SOCIAL_ACCOUNT".toList
  | .paymentAccount => "PAYMENT_ACCOUNT".toList
  | .accountName => "ACCOUNT_NAME".toList
  | .contractNumber => "CONTRACT_NUMBER".toList
  | .trackingNumber => "TRACKING_NUMBER".toList
  | .propertyCertificateNumber => "PROPERTY_CERT".toList
  | .custom => "SENSITIVE".toList

/-- `high_risk_entity`. -/
def highRiskEntity : EntityType → Bool
  | .personName | .organizationName | .socialAccount | .custom => false
  | _ => true

/-- What the identifier of a cluster is made of. -/
def clusterMaterial (caseId : CaseId) (entityType : EntityType) (fingerprint : Sha256Hex) : Text :=
  "LawyerAssistance/finding-cluster/v1".toList ++ '\x00' :: caseId.1 ++
    '\x00' :: entityCode entityType ++ '\x00' :: fingerprint.1

/-- What the identifier of a finding is made of. -/
def findingMaterial (caseId : CaseId) (materialId : MaterialId) (documentVersion : UInt64)
    (key : GroupKey) : Text :=
  "LawyerAssistance/finding/v1".toList ++ '\x00' :: caseId.1 ++ '\x00' :: materialId.1 ++
    '\x00' :: Json.decimal documentVersion.toNat ++ '\x00' :: Json.decimal key.pageIndex.toNat ++
    '\x00' :: key.blockId ++ '\x00' :: Json.decimal key.startOffset.toNat ++
    '\x00' :: Json.decimal key.endOffset.toNat ++ '\x00' :: key.valueFingerprint.1

/-- `FindingId::parse`. -/
def FindingId.parse (value : Text) : Option FindingId :=
  if valid : validOpaqueId "fnd_".toList value = true then some ⟨value, valid⟩ else none

section Engine

variable (sha256Hex : Octets → Sha256Hex)

/-- `sha256_hex` of a text. -/
def textDigest (text : Text) : Text := (sha256Hex (utf8 (String.ofList text))).1

/-- `stable_cluster_id`. -/
def stableClusterId (caseId : CaseId) (entityType : EntityType) (fingerprint : Sha256Hex) :
    Except FindingEngineError ClusterId :=
  presentOr (ClusterId.parse ("clu_".toList ++
    (textDigest sha256Hex (clusterMaterial caseId entityType fingerprint)).take 32)) .invalidOutput

/-- `stable_finding_id`. -/
def stableFindingId (caseId : CaseId) (materialId : MaterialId) (documentVersion : UInt64)
    (key : GroupKey) : Except FindingEngineError FindingId :=
  presentOr (FindingId.parse ("fnd_".toList ++
    (textDigest sha256Hex (findingMaterial caseId materialId documentVersion key)).take 32))
    .invalidOutput

/-- `stable_replacement`. -/
def stableReplacement (entityType : EntityType) (clusterId : ClusterId) : Text :=
  '[' :: (entityCode entityType ++ '_' :: ((clusterId.1.drop 4).take 8 ++ [']']))

/-- `FindingProvenanceClaims`, as they are serialized. -/
def provenanceClaims (policy : FindingPolicy) (key : GroupKey) (evidence : GroupEvidence) : Value :=
  .object [
    ("engineVersion".toList, .string findingEngineVersion),
    ("policy".toList, .object [
      ("policyId".toList, .string policy.policyId),
      ("policyVersion".toList, Codec.u64.write policy.policyVersion),
      ("minimumDetectorAgreement".toList,
        Codec.u64.write policy.minimumDetectorAgreement.toUInt64),
      ("highConfidencePpm".toList, ConfidencePpm.codec.write policy.highConfidencePpm),
      ("lowOcrConfidencePpm".toList, ConfidencePpm.codec.write policy.lowOcrConfidencePpm)]),
    ("pageIndex".toList, Codec.u32.write key.pageIndex),
    ("blockId".toList, .string key.blockId),
    ("startOffset".toList, Codec.u32.write key.startOffset),
    ("endOffset".toList, Codec.u32.write key.endOffset),
    ("entityType".toList, (Codec.variants EntityType.variants).write key.entityType),
    ("valueFingerprint".toList, .string key.valueFingerprint.1),
    ("detectorSources".toList, Codec.text.list.write evidence.detectorSources),
    ("detectorVersions".toList, Codec.textMap.write evidence.detectorVersions),
    ("modelVersions".toList, Codec.textMap.write evidence.modelVersions)]

/-- `finding_provenance_hash`. -/
def findingProvenanceHash (policy : FindingPolicy) (key : GroupKey) (evidence : GroupEvidence) :
    Except FindingEngineError Sha256Hex := do
  let canonical ← mapError (fun _ => .invalidOutput)
    (canonicalJsonV1 (provenanceClaims policy key evidence))
  pure (sha256Hex canonical)

/-! ## Findings -/

/-- Whether the detectors of a group agree. -/
def GroupEvidence.agreement (policy : FindingPolicy) (evidence : GroupEvidence) : Bool :=
  !evidence.conflict &&
    decide (policy.minimumDetectorAgreement.toNat ≤ evidence.detectorSources.length)

/-- Whether the confidence of a group is high. -/
def GroupEvidence.confident (policy : FindingPolicy) (evidence : GroupEvidence) : Bool :=
  evidence.calibratedConfidencePpm.any fun value => decide (policy.highConfidencePpm.1 ≤ value.1)

/-- Whether the recognition of a group is below its threshold. -/
def GroupEvidence.lowOcr (policy : FindingPolicy) (evidence : GroupEvidence) : Bool :=
  evidence.ocrConfidencePpm.any fun value => decide (value.1 < policy.lowOcrConfidencePpm.1)

/-- Whether the replacement of a group resolves it. -/
def GroupEvidence.verified (policy : FindingPolicy) (evidence : GroupEvidence) : Bool :=
  evidence.validationPassed && evidence.replacementVerified && evidence.agreement policy &&
    evidence.confident policy && !evidence.lowOcr policy

/-- The severity of a group, and its reason. -/
def GroupEvidence.severity (policy : FindingPolicy) (entityType : EntityType)
    (evidence : GroupEvidence) : FindingSeverity × Text :=
  if evidence.conflict then (.p0Blocking, "detector_or_location_conflict".toList)
  else if !evidence.validationPassed then (.p0Blocking, "deterministic_validation_failed".toList)
  else if evidence.verified policy then (.p3Resolved, "deterministic_replacement_verified".toList)
  else if highRiskEntity entityType || evidence.caseDictionaryMatch then
    (.p1High, "unresolved_high_risk_entity".toList)
  else (.p2Medium, "unresolved_sensitive_entity".toList)

/-- The reasons of a finding, in order. -/
def GroupEvidence.reasonCodes (policy : FindingPolicy) (entityType : EntityType)
    (evidence : GroupEvidence) : List Text :=
  sortedSet ((evidence.severity policy entityType).2 ::
    (if evidence.agreement policy then [] else ["detector_agreement_missing".toList]) ++
    (if evidence.confident policy then [] else ["confidence_below_high_threshold".toList]) ++
    (if evidence.lowOcr policy then ["low_ocr_confidence".toList] else []) ++
    if evidence.confusableHash.isSome then ["unicode_or_ocr_confusable".toList] else [])

/-- The priority of a finding in its review. -/
def GroupEvidence.priority (policy : FindingPolicy) (entityType : EntityType)
    (evidence : GroupEvidence) : UInt32 :=
  let severity : UInt32 := match (evidence.severity policy entityType).1 with
    | .p0Blocking => 1000
    | .p1High => 800
    | .p2Medium => 500
    | .p3Resolved | .informational => 100
  let priority := if evidence.agreement policy then severity else min (severity + 75) 1000
  if evidence.confusableHash.isSome then min (priority + 50) 1000 else priority

/-- `merge_group`, behind its loop. -/
def mergeEvidence (caseId : CaseId) (materialId : MaterialId) (documentVersion : UInt64)
    (key : GroupKey) (policy : FindingPolicy) (evidence : GroupEvidence) :
    Except FindingEngineError PrivacyFinding := do
  let clusterId ← stableClusterId sha256Hex caseId key.entityType key.valueFingerprint
  let findingId ← stableFindingId sha256Hex caseId materialId documentVersion key
  let provenanceHash ← findingProvenanceHash sha256Hex policy key evidence
  let finding : PrivacyFinding := {
    findingId, caseId, materialId, documentVersion
    pageIndex := key.pageIndex
    blockId := key.blockId
    startOffset := key.startOffset
    endOffset := key.endOffset
    geometry := evidence.geometry
    entityType := key.entityType
    detectorSources := evidence.detectorSources
    detectorVersions := evidence.detectorVersions
    modelVersions := evidence.modelVersions
    rawScorePpm := evidence.rawScorePpm
    calibratedConfidencePpm := evidence.calibratedConfidencePpm
    ocrConfidencePpm := evidence.ocrConfidencePpm
    layoutConfidencePpm := evidence.layoutConfidencePpm
    normalizationEvidenceHash := evidence.normalizationHash
    confusableEvidenceHash := evidence.confusableHash
    caseDictionaryMatch := evidence.caseDictionaryMatch
    clusterId := some clusterId
    detectorAgreement := evidence.agreement policy
    severity := (evidence.severity policy key.entityType).1
    reviewPriority := evidence.priority policy key.entityType
    reasonCodes := evidence.reasonCodes policy key.entityType
    proposedReplacement := evidence.replacements.head?.getD
      (stableReplacement key.entityType clusterId)
    resolutionState := if evidence.verified policy then .accepted else .unresolved
    humanOverride := none
    provenanceHash
    privateValueRef := evidence.privateValueRef }
  mapError (fun _ => .invalidOutput) finding.validate
  pure finding

/-- What a group is sorted by. -/
def FindingCandidate.detector (candidate : FindingCandidate) : Text ×ₗ Text :=
  toLex (candidate.detectorSource, candidate.detectorVersion)

/-- `merge_group`. -/
def mergeGroup (caseId : CaseId) (materialId : MaterialId) (documentVersion : UInt64)
    (key : GroupKey) (group : List FindingCandidate) (conflict : Bool) (policy : FindingPolicy) :
    Except FindingEngineError PrivacyFinding := do
  let sorted := sortOn FindingCandidate.detector group
  let first ← presentOr sorted.head? .invalidOutput
  mergeEvidence sha256Hex caseId materialId documentVersion key policy
    (gatherEvidence first sorted conflict)

/-! ## Batches -/

/-- `FindingBatchV1`. -/
structure FindingBatch where
  engineVersion : Text
  policyId : Text
  policyVersion : UInt64
  caseId : CaseId
  materialId : MaterialId
  documentVersion : UInt64
  findings : List PrivacyFinding
  clusterCount : UInt32
  p0Count : UInt32
  p1Count : UInt32
  p2Count : UInt32
  p3Count : UInt32
  findingSummaryHash : Sha256Hex
  deriving DecidableEq

/-- What the findings of a batch are sorted by. -/
def PrivacyFinding.place (finding : PrivacyFinding) : Nat ×ₗ Text ×ₗ Nat ×ₗ Nat ×ₗ Nat :=
  toLex (finding.pageIndex.toNat, toLex (finding.blockId, toLex (finding.startOffset.toNat,
    toLex (finding.endOffset.toNat, finding.entityType.rank))))

/-- `u32::try_from`, of a count. -/
def checkedCount (count : Nat) : Except FindingEngineError UInt32 := do
  refuseIf (2 ^ 32 ≤ count) .invalidOutput
  pure (UInt32.ofNat count)

/-- `count_severity`. -/
def FindingEngine.countSeverity (findings : List PrivacyFinding) (severity : FindingSeverity) :
    Except FindingEngineError UInt32 :=
  checkedCount (findings.filter fun finding => decide (finding.severity = severity)).length

/-- The findings of the groups of candidates, in order. -/
def mergeGroups (caseId : CaseId) (materialId : MaterialId) (documentVersion : UInt64)
    (candidates : List FindingCandidate) (policy : FindingPolicy) :
    Except FindingEngineError (List PrivacyFinding) :=
  (sortedSet (candidates.map FindingCandidate.key)).mapM fun key =>
    mergeGroup sha256Hex caseId materialId documentVersion key
      (candidates.filter fun candidate => decide (candidate.key = key))
      (locationConflict candidates key) policy

/-- The batch of findings which are sorted. -/
def batchOf (caseId : CaseId) (materialId : MaterialId) (documentVersion : UInt64)
    (policy : FindingPolicy) (findings : List PrivacyFinding) :
    Except FindingEngineError FindingBatch := do
  let clusterCount ← checkedCount (findings.filterMap PrivacyFinding.clusterId).dedup.length
  let p0Count ← FindingEngine.countSeverity findings .p0Blocking
  let p1Count ← FindingEngine.countSeverity findings .p1High
  let p2Count ← FindingEngine.countSeverity findings .p2Medium
  let p3Count ← FindingEngine.countSeverity findings .p3Resolved
  let canonical ← mapError (fun _ => .invalidOutput)
    (canonicalJsonV1 (PrivacyFinding.codec.list.write findings))
  pure {
    engineVersion := findingEngineVersion, policyId := policy.policyId
    policyVersion := policy.policyVersion, caseId, materialId, documentVersion, findings
    clusterCount, p0Count, p1Count, p2Count, p3Count, findingSummaryHash := sha256Hex canonical }

/-- `build_findings`. -/
def buildFindings (caseId : CaseId) (materialId : MaterialId) (documentVersion : UInt64)
    (candidates : List FindingCandidate) (policy : FindingPolicy) :
    Except FindingEngineError FindingBatch := do
  policy.validate
  refuseIf (documentVersion = 0) .emptyInput
  refuseIf (maxFindingCandidates < candidates.length) .candidateLimitExceeded
  candidates.forM FindingCandidate.validate
  let findings ← mergeGroups sha256Hex caseId materialId documentVersion candidates policy
  batchOf sha256Hex caseId materialId documentVersion policy
    (sortOn PrivacyFinding.place findings)

end Engine

/-! ## A report -/

/-- The case of a report. -/
def reportCase : CaseId := ⟨"case_".toList ++ List.replicate 32 '1', by decide⟩

/-- The material of a report. -/
def reportMaterial : MaterialId := ⟨"mat_".toList ++ List.replicate 32 '2', by decide⟩

/-- The hash of everything. -/
def reportHash : Sha256Hex := ⟨List.replicate 64 'd', by decide⟩

/-- A policy which one detector satisfies. -/
def reportPolicy : FindingPolicy where
  policyId := "synthetic-strict-v1".toList
  policyVersion := 1
  minimumDetectorAgreement := 1
  highConfidencePpm := ⟨900000, by decide⟩
  lowOcrConfidencePpm := ⟨850000, by decide⟩

/-- What a detector reports. -/
def reportedCandidate : FindingCandidate where
  pageIndex := 0
  blockId := "page-1".toList
  startOffset := 2
  endOffset := 10
  geometry := none
  entityType := .identityNumber
  detectorSource := "rule".toList
  detectorVersion := "1.0.0".toList
  modelVersions := ⟨[], by decide⟩
  rawScorePpm := some ⟨960000, by decide⟩
  calibratedConfidencePpm := some ⟨950000, by decide⟩
  ocrConfidencePpm := none
  layoutConfidencePpm := none
  normalizationEvidenceHash := some reportHash
  confusableEvidenceHash := none
  caseDictionaryMatch := false
  valueFingerprint := reportHash
  proposedReplacement := none
  privateValueRef := ⟨⟨"obj_".toList ++ List.replicate 32 '4', by decide⟩, 1, reportHash⟩
  validationPassed := true
  automaticReplacementAllowed := true
  replacementVerified := true

end LawyerAssistance.Privacy

import LawyerAssistance.Privacy.AliasLedger
import LawyerAssistance.Privacy.RiskEngine

/-!
# Findings

`PrivacyFindingV1` of `vnext.rs` with its validation, and the changes of clusters of
`case_dictionary.rs`. SHA-256 is a parameter.
-/

namespace LawyerAssistance.Privacy

/-! ## Records -/

/-- `ReviewResolution`. -/
inductive ReviewResolution where
  | unresolved
  | accepted
  | modified
  | notSensitive
  | clusterMerged
  | clusterSplit
  | revoked
  deriving DecidableEq

/-- The variants of `ReviewResolution`. -/
def ReviewResolution.variants : Variants ReviewResolution where
  name
    | .unresolved => "unresolved".toList
    | .accepted => "accepted".toList
    | .modified => "modified".toList
    | .notSensitive => "not_sensitive".toList
    | .clusterMerged => "cluster_merged".toList
    | .clusterSplit => "cluster_split".toList
    | .revoked => "revoked".toList
  all :=
    [.unresolved, .accepted, .modified, .notSensitive, .clusterMerged, .clusterSplit,
    .revoked]
  complete value := by cases value <;> decide
  distinct := by decide

/-- `FindingSeverity`. -/
inductive FindingSeverity where
  | p0Blocking
  | p1High
  | p2Medium
  | p3Resolved
  | informational
  deriving DecidableEq

/-- The variants of `FindingSeverity`. -/
def FindingSeverity.variants : Variants FindingSeverity where
  name
    | .p0Blocking => "p0_blocking".toList
    | .p1High => "p1_high".toList
    | .p2Medium => "p2_medium".toList
    | .p3Resolved => "p3_resolved".toList
    | .informational => "informational".toList
  all :=
    [.p0Blocking, .p1High, .p2Medium, .p3Resolved, .informational]
  complete value := by cases value <;> decide
  distinct := by decide

/-- `MaterialId`. -/
abbrev MaterialId := OpaqueId "mat_".toList

/-- `ObjectId`. -/
abbrev ObjectId := OpaqueId "obj_".toList

/-- `FindingId`. -/
abbrev FindingId := OpaqueId "fnd_".toList

/-- `ClusterId`. -/
abbrev ClusterId := OpaqueId "clu_".toList

/-- `PrivateValueRefV1`. -/
structure PrivateValueRef where
  objectId : ObjectId
  objectVersion : UInt64
  valueLocatorHash : Sha256Hex
  deriving DecidableEq

/-- `FindingGeometryV1`. -/
structure FindingGeometry where
  coordinateSystem : Text
  bboxMicropoints : Option {corners : List Int64 // corners.length = 4}
  polygonMicropoints : List {point : List Int64 // point.length = 2}
  deriving DecidableEq

/-- `HumanOverrideV1`. -/
structure HumanOverride where
  resolution : ReviewResolution
  reasonCode : Text
  actorHash : Sha256Hex
  resolvedAtUnix : UInt64
  deriving DecidableEq

/-- `PrivacyFindingV1`. -/
structure PrivacyFinding where
  findingId : FindingId
  caseId : CaseId
  materialId : MaterialId
  documentVersion : UInt64
  pageIndex : UInt32
  blockId : Text
  startOffset : UInt32
  endOffset : UInt32
  geometry : Option FindingGeometry
  entityType : EntityType
  detectorSources : List Text
  detectorVersions : Codec.TextMap
  modelVersions : Codec.TextMap
  rawScorePpm : Option ConfidencePpm
  calibratedConfidencePpm : Option ConfidencePpm
  ocrConfidencePpm : Option ConfidencePpm
  layoutConfidencePpm : Option ConfidencePpm
  normalizationEvidenceHash : Option Sha256Hex
  confusableEvidenceHash : Option Sha256Hex
  caseDictionaryMatch : Bool
  clusterId : Option ClusterId
  detectorAgreement : Bool
  severity : FindingSeverity
  reviewPriority : UInt32
  reasonCodes : List Text
  proposedReplacement : Text
  resolutionState : ReviewResolution
  humanOverride : Option HumanOverride
  provenanceHash : Sha256Hex
  privateValueRef : PrivateValueRef
  deriving DecidableEq

/-! ## Codecs -/

/-- The codec of confidences. -/
def ConfidencePpm.codec : Codec ConfidencePpm := Codec.u32.refined fun value => value ≤ 1000000

/-- The codec of references. -/
def PrivateValueRef.codec : Codec PrivateValueRef :=
  Fields.record
    ((Fields.one "objectId" (OpaqueId.codec _)).also <|
      (Fields.one "objectVersion" Codec.u64).also
      (Fields.one "valueLocatorHash" Sha256Hex.codec))
    (by decide)
    (fun (objectId, objectVersion, valueLocatorHash) =>
      { objectId, objectVersion, valueLocatorHash })
    (fun value => (value.objectId, value.objectVersion, value.valueLocatorHash))
    (fun _ => rfl)

/-- The codec of geometries. -/
def FindingGeometry.codec : Codec FindingGeometry :=
  Fields.record
    ((Fields.one "coordinateSystem" Codec.text).also <|
      (Fields.one "bboxMicropoints" (Codec.i64.list.refined fun corners => corners.length = 4).option).also
      (Fields.one "polygonMicropoints" (Codec.i64.list.refined fun point => point.length = 2).list))
    (by decide)
    (fun (coordinateSystem, bboxMicropoints, polygonMicropoints) =>
      { coordinateSystem, bboxMicropoints, polygonMicropoints })
    (fun value => (value.coordinateSystem, value.bboxMicropoints, value.polygonMicropoints))
    (fun _ => rfl)

/-- The codec of overrides. -/
def HumanOverride.codec : Codec HumanOverride :=
  Fields.record
    ((Fields.one "resolution" (Codec.variants ReviewResolution.variants)).also <|
      (Fields.one "reasonCode" Codec.text).also <|
      (Fields.one "actorHash" Sha256Hex.codec).also
      (Fields.one "resolvedAtUnix" Codec.u64))
    (by decide)
    (fun (resolution, reasonCode, actorHash, resolvedAtUnix) =>
      { resolution, reasonCode, actorHash, resolvedAtUnix })
    (fun value => (value.resolution, value.reasonCode, value.actorHash, value.resolvedAtUnix))
    (fun _ => rfl)

/-- The codec of findings. -/
def PrivacyFinding.codec : Codec PrivacyFinding :=
  Fields.record
    ((Fields.one "findingId" (OpaqueId.codec _)).also <|
      (Fields.one "caseId" (OpaqueId.codec _)).also <|
      (Fields.one "materialId" (OpaqueId.codec _)).also <|
      (Fields.one "documentVersion" Codec.u64).also <|
      (Fields.one "pageIndex" Codec.u32).also <|
      (Fields.one "blockId" Codec.text).also <|
      (Fields.one "startOffset" Codec.u32).also <|
      (Fields.one "endOffset" Codec.u32).also <|
      (Fields.one "geometry" FindingGeometry.codec.option).also <|
      (Fields.one "entityType" (Codec.variants EntityType.variants)).also <|
      (Fields.one "detectorSources" Codec.text.list).also <|
      (Fields.one "detectorVersions" Codec.textMap).also <|
      (Fields.one "modelVersions" Codec.textMap).also <|
      (Fields.one "rawScorePpm" ConfidencePpm.codec.option).also <|
      (Fields.one "calibratedConfidencePpm" ConfidencePpm.codec.option).also <|
      (Fields.one "ocrConfidencePpm" ConfidencePpm.codec.option).also <|
      (Fields.one "layoutConfidencePpm" ConfidencePpm.codec.option).also <|
      (Fields.one "normalizationEvidenceHash" Sha256Hex.codec.option).also <|
      (Fields.one "confusableEvidenceHash" Sha256Hex.codec.option).also <|
      (Fields.one "caseDictionaryMatch" Codec.bool).also <|
      (Fields.one "clusterId" (OpaqueId.codec _).option).also <|
      (Fields.one "detectorAgreement" Codec.bool).also <|
      (Fields.one "severity" (Codec.variants FindingSeverity.variants)).also <|
      (Fields.one "reviewPriority" Codec.u32).also <|
      (Fields.one "reasonCodes" Codec.text.list).also <|
      (Fields.one "proposedReplacement" Codec.text).also <|
      (Fields.one "resolutionState" (Codec.variants ReviewResolution.variants)).also <|
      (Fields.one "humanOverride" HumanOverride.codec.option).also <|
      (Fields.one "provenanceHash" Sha256Hex.codec).also
      (Fields.one "privateValueRef" PrivateValueRef.codec))
    (by decide)
    (fun (findingId, caseId, materialId, documentVersion, pageIndex, blockId, startOffset,
        endOffset, geometry, entityType, detectorSources, detectorVersions, modelVersions,
        rawScorePpm, calibratedConfidencePpm, ocrConfidencePpm, layoutConfidencePpm,
        normalizationEvidenceHash, confusableEvidenceHash, caseDictionaryMatch, clusterId,
        detectorAgreement, severity, reviewPriority, reasonCodes, proposedReplacement,
        resolutionState, humanOverride, provenanceHash, privateValueRef) =>
      { findingId, caseId, materialId, documentVersion, pageIndex, blockId, startOffset,
        endOffset, geometry, entityType, detectorSources, detectorVersions, modelVersions,
        rawScorePpm, calibratedConfidencePpm, ocrConfidencePpm, layoutConfidencePpm,
        normalizationEvidenceHash, confusableEvidenceHash, caseDictionaryMatch, clusterId,
        detectorAgreement, severity, reviewPriority, reasonCodes, proposedReplacement,
        resolutionState, humanOverride, provenanceHash, privateValueRef })
    (fun value => (value.findingId, value.caseId, value.materialId, value.documentVersion,
      value.pageIndex, value.blockId, value.startOffset, value.endOffset, value.geometry,
      value.entityType, value.detectorSources, value.detectorVersions, value.modelVersions,
      value.rawScorePpm, value.calibratedConfidencePpm, value.ocrConfidencePpm,
      value.layoutConfidencePpm, value.normalizationEvidenceHash,
      value.confusableEvidenceHash, value.caseDictionaryMatch, value.clusterId,
      value.detectorAgreement, value.severity, value.reviewPriority, value.reasonCodes,
      value.proposedReplacement, value.resolutionState, value.humanOverride,
      value.provenanceHash, value.privateValueRef))
    (fun _ => rfl)

/-! ## Validation -/

/-- `MAX_VERSION_VALUES`. -/
def maxVersionValues : Nat := 64

/-- `PrivacyFindingV1::validate`. -/
def PrivacyFinding.validate (finding : PrivacyFinding) : Except VNextSchemaError Unit := do
  refuseIf (finding.documentVersion = 0 ∨ finding.endOffset ≤ finding.startOffset ∨
    finding.blockId = [] ∨ finding.detectorSources = [] ∨
    maxVersionValues < finding.detectorSources.length ∨
    maxVersionValues < finding.detectorVersions.1.length ∨
    maxVersionValues < finding.modelVersions.1.length ∨
    maxReasonCodes < finding.reasonCodes.length ∨ finding.proposedReplacement = [])
    .invalidSchema
  validateSafeStrings finding.detectorSources
  validateSafeStrings finding.reasonCodes
  rejectControlChars finding.blockId
  rejectControlChars finding.proposedReplacement

/-! ## Clusters -/

/-- `merge_cluster`, of one finding. -/
def PrivacyFinding.mergeInto (target : ClusterId) (actorHash : Sha256Hex) (resolvedAtUnix : UInt64)
    (finding : PrivacyFinding) : PrivacyFinding :=
  { finding with
    clusterId := some target
    resolutionState := .clusterMerged
    humanOverride := some
      { resolution := .clusterMerged, reasonCode := "user_confirmed_cluster_merge".toList
        actorHash, resolvedAtUnix }
    reasonCodes := finding.reasonCodes ++ ["cluster_merged".toList] }

/-- `merge_cluster`. The count of the findings which were changed is not used. -/
def mergeCluster (findings : List PrivacyFinding) (sourceClusters : List ClusterId)
    (target : ClusterId) (actorHash : Sha256Hex) (resolvedAtUnix : UInt64) :
    Except CaseDictionaryError (List PrivacyFinding) := do
  let merged (finding : PrivacyFinding) : Bool :=
    finding.clusterId.any fun cluster => sourceClusters.contains cluster
  refuseIf (sourceClusters.length < 2 ∨ resolvedAtUnix = 0) .invalidClusterOperation
  refuseIf (findings.any merged = false) .invalidClusterOperation
  pure (findings.map fun finding =>
    if merged finding then finding.mergeInto target actorHash resolvedAtUnix else finding)

section Split

variable (sha256Hex : Octets → Sha256Hex)

/-- The claims which the identifier of a new cluster is made of. -/
def splitClaims (finding : PrivacyFinding) (resolvedAtUnix : UInt64) : Text :=
  "cluster-split-v1".toList ++ '\x00' :: finding.caseId.1 ++ '\x00' :: finding.findingId.1 ++
    '\x00' :: Json.decimal resolvedAtUnix.toNat

/-- `ClusterId::parse`. -/
def ClusterId.parse (value : Text) : Option ClusterId :=
  if valid : validOpaqueId "clu_".toList value = true then some ⟨value, valid⟩ else none

/-- `split_finding_cluster`. -/
def splitFindingCluster (finding : PrivacyFinding) (actorHash : Sha256Hex)
    (resolvedAtUnix : UInt64) : Except CaseDictionaryError PrivacyFinding := do
  refuseIf (resolvedAtUnix = 0 ∨ finding.clusterId = none) .invalidClusterOperation
  let digest := (sha256Hex (utf8 (String.ofList (splitClaims finding resolvedAtUnix)))).1
  let cluster ← presentOr (ClusterId.parse ("clu_".toList ++ digest.take 32))
    .invalidClusterOperation
  pure { finding with
    clusterId := some cluster
    resolutionState := .clusterSplit
    humanOverride := some
      { resolution := .clusterSplit, reasonCode := "user_confirmed_cluster_split".toList
        actorHash, resolvedAtUnix }
    reasonCodes := finding.reasonCodes ++ ["cluster_split".toList] }

end Split

end LawyerAssistance.Privacy

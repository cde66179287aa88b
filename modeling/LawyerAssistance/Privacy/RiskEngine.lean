import LawyerAssistance.Privacy.Schema
import LawyerAssistance.Std.Overflow

/-!
# The risk engine

`risk_engine.rs`: the hard gates of a document, the readiness of its pages and its route. Counts
are summed and scored in fixed width, in a build which panics on overflow or in one which wraps.
SHA-256 is a parameter.
-/

namespace LawyerAssistance.Privacy

/-! ## Inputs -/

/-- `RiskPolicyV1`. -/
structure RiskPolicy where
  policyId : Text
  policyVersion : UInt64
  policySha256 : Sha256Hex
  minimumOcrConfidencePpm : ConfidencePpm
  minimumOcrCoveragePpm : ConfidencePpm
  maximumQuickReviewP2 : UInt32
  autoApprovalMode : AutoApprovalPolicyMode
  productionAutomaticEnabled : Bool
  calibratedForAutomatic : Bool
  calibrationEvidenceSha256 : Option Sha256Hex
  organizationAllowsAutomatic : Bool
  deriving DecidableEq

/-- `QualificationSnapshotV1`. -/
structure QualificationSnapshot where
  qualificationReportId : Option Text
  qualificationReportSha256 : Option Sha256Hex
  processingChainQualified : Bool
  exactWorkerModelMatch : Bool
  networkIsolationEnforced : Bool
  modelManifestTrustEstablished : Bool
  productionCaseOcrAuthorized : Bool
  expiresAtUnix : Option UInt64
  revoked : Bool
  deriving DecidableEq

/-- `PageAssessmentV1`. -/
structure PageAssessment where
  pageIndex : UInt32
  p0Count : UInt32
  p1Count : UInt32
  p2Count : UInt32
  p3Count : UInt32
  ocrUsed : Bool
  ocrMinPpm : Option ConfidencePpm
  ocrMeanPpm : Option ConfidencePpm
  ocrP10Ppm : Option ConfidencePpm
  coveragePpm : ConfidencePpm
  unknownLongNumberCount : UInt32
  unresolvedEntityCounts : EntityType → Option UInt32
  unresolvedVisualRisks : List Text
  completenessPassed : Bool
  detectorConflictCount : UInt32
  clusterInconsistencyCount : UInt32
  reasonCodes : List Text
  deriving DecidableEq

/-- `DocumentAssessmentV1`. -/
structure DocumentAssessment where
  pages : List PageAssessment
  findingSummaryHash : Sha256Hex
  dictionaryEntitiesStable : Bool
  deterministicHighRiskFieldsResolved : Bool
  independentResidualScanPassed : Bool
  independentResidualScanHash : Option Sha256Hex
  provenanceReceiptable : Bool
  provenanceHash : Option Sha256Hex
  publicationTargetFixed : Bool
  publicationTargetHash : Option Sha256Hex
  requestedApprovalRoute : RequestedApprovalRoute
  calibrationEvidenceVersion : Option Text
  deriving DecidableEq

/-- The report of a qualification has an identifier of an admitted length. -/
def QualificationSnapshot.reportNamed (qualification : QualificationSnapshot) : Bool :=
  qualification.qualificationReportId.any fun value =>
    !value.isEmpty && decide (Text.byteLength value ≤ 160)

/-- `qualified_at`. -/
def QualificationSnapshot.qualifiedAt (qualification : QualificationSnapshot) (nowUnix : UInt64)
    (ocrUsed : Bool) : Bool :=
  let reportCurrent := qualification.expiresAtUnix.any fun expiresAt => decide (nowUnix < expiresAt)
  qualification.reportNamed && qualification.qualificationReportSha256.isSome &&
    qualification.processingChainQualified && qualification.exactWorkerModelMatch &&
    reportCurrent && !qualification.revoked &&
    (!ocrUsed || (qualification.networkIsolationEnforced &&
      qualification.modelManifestTrustEstablished && qualification.productionCaseOcrAuthorized))

/-! ## Results -/

/-- `PageRiskV1`. -/
structure PageRisk where
  pageIndex : UInt32
  p0Count : UInt32
  p1Count : UInt32
  p2Count : UInt32
  p3Count : UInt32
  ocrMinPpm : Option ConfidencePpm
  ocrMeanPpm : Option ConfidencePpm
  ocrP10Ppm : Option ConfidencePpm
  coveragePpm : ConfidencePpm
  unknownLongNumberCount : UInt32
  unresolvedEntityCounts : EntityType → Option UInt32
  visualRisks : List Text
  completenessPassed : Bool
  detectorConflictCount : UInt32
  clusterInconsistencyCount : UInt32
  visualReviewRequired : Bool
  readinessScore : UInt32
  reasonCodes : List Text
  deriving DecidableEq

/-- `HardGateResultV1`. -/
structure HardGateResult where
  gateId : Text
  passed : Bool
  blocking : Bool
  reasonCodes : List Text
  evidenceHashes : List Sha256Hex
  deriving DecidableEq

/-- `HardGateEvaluationV1`. -/
structure HardGateEvaluation where
  gates : List HardGateResult
  evaluatedAtUnix : UInt64
  evaluationHash : Sha256Hex
  deriving DecidableEq

/-- `DocumentRiskV1`. -/
structure DocumentRisk where
  route : DocumentRoute
  readinessScore : UInt32
  pageRisks : List PageRisk
  totalP0 : UInt32
  totalP1 : UInt32
  totalP2 : UInt32
  hardGateEvaluationHash : Sha256Hex
  findingSummaryHash : Sha256Hex
  policyId : Text
  policyVersion : UInt64
  policySha256 : Sha256Hex
  calibrationEvidenceVersion : Option Text
  qualificationReportId : Option Text
  autoApprovalPolicyMode : AutoApprovalPolicyMode
  productionAutomaticEnabled : Bool
  shadowWouldAutoApprove : Bool
  automaticPublishAllowed : Bool
  reasonCodes : List Text
  deriving DecidableEq

/-- `MAX_REASON_CODES`. -/
def maxReasonCodes : Nat := 64

/-- `REQUIRED_HARD_GATES`. -/
def requiredHardGates : List Text :=
  ["qualified_processing_chain".toList, "complete_pages_and_order".toList, "no_p0".toList,
    "no_unresolved_p1".toList, "ocr_thresholds".toList, "visual_risks_resolved".toList,
    "required_dictionary_entities_stable".toList,
    "deterministic_high_risk_fields_resolved".toList, "detector_conflicts_resolved".toList,
    "cluster_alias_consistency".toList, "independent_residual_scan".toList,
    "provenance_receiptable".toList, "calibrated_policy".toList,
    "approval_mode_allows_automatic".toList, "organization_policy_allows_automatic".toList,
    "publication_target_fixed".toList, "exact_worker_model_qualification".toList]

/-- `all_blocking_gates_passed`. -/
def HardGateEvaluation.allBlockingGatesPassed (evaluation : HardGateEvaluation) : Bool :=
  evaluation.gates.all fun gate => gate.passed || !gate.blocking

/-- `HardGateEvaluationV1::validate`, of one gate. -/
def HardGateResult.validate (gate : HardGateResult) : Except VNextSchemaError Unit := do
  rejectControlChars gate.gateId
  validateSafeStrings gate.reasonCodes
  refuseIf (maxReasonCodes < gate.reasonCodes.length ∨ (gate.passed = false ∧ gate.blocking = false))
    .invalidRiskEvaluation

/-- `HardGateEvaluationV1::validate`. -/
def HardGateEvaluation.validate (evaluation : HardGateEvaluation) :
    Except VNextSchemaError Unit := do
  let ids := (evaluation.gates.map HardGateResult.gateId).dedup
  refuseIf (evaluation.gates.length ≠ requiredHardGates.length ∨
    ids.length ≠ requiredHardGates.length ∨
    requiredHardGates.any fun gate => !ids.contains gate) .invalidRiskEvaluation
  evaluation.gates.forM HardGateResult.validate

/-- A refusal of a program which does not compute in fixed width. -/
def checked {α : Type} (computed : Except VNextSchemaError α) :
    Except (Fault VNextSchemaError) α :=
  match computed with
  | .ok value => .ok value
  | .error error => .error (.refused error)

section Evaluation

variable (sha256Hex : Octets → Sha256Hex) (mode : Overflow)

/-- `Iterator::sum`, of a count of each page. -/
def sumCounts {α : Type} (count : α → UInt32) (pages : List α) :
    Except (Fault VNextSchemaError) UInt32 := do
  let total ← mode.sum 32 (pages.map fun page => (count page).toNat)
  pure (UInt32.ofNat total)

/-- `DocumentRiskV1::validate`. -/
def DocumentRisk.validate (risk : DocumentRisk) (gates : HardGateEvaluation) :
    Except (Fault VNextSchemaError) Unit := do
  checked gates.validate
  let p0 ← sumCounts mode PageRisk.p0Count risk.pageRisks
  let p1 ← sumCounts mode PageRisk.p1Count risk.pageRisks
  let p2 ← sumCounts mode PageRisk.p2Count risk.pageRisks
  refuseIf (risk.policyId = [] ∨ risk.policyVersion = 0 ∨
    maxReasonCodes < risk.reasonCodes.length ∨
    p0 ≠ risk.totalP0 ∨ p1 ≠ risk.totalP1 ∨ p2 ≠ risk.totalP2 ∨
    risk.hardGateEvaluationHash ≠ gates.evaluationHash ∨
    (risk.route = .autoApprovalEligible ∧ (0 < p0 ∨ 0 < p1 ∨
      gates.allBlockingGatesPassed = false ∨ risk.automaticPublishAllowed = false)) ∨
    (risk.automaticPublishAllowed = true ∧ risk.route ≠ .autoApprovalEligible) ∨
    (risk.shadowWouldAutoApprove = true ∧ risk.autoApprovalPolicyMode ≠ .shadow) ∨
    (risk.route = .blocked ∧ gates.allBlockingGatesPassed = true))
    (.refused .invalidRiskEvaluation)
  checked (rejectControlChars risk.policyId)
  checked (validateSafeStrings risk.reasonCodes)

/-! ## Evaluation -/

/-- `validate_inputs`. -/
def validateInputs (policy : RiskPolicy) (assessment : DocumentAssessment) :
    Except VNextSchemaError Unit := do
  refuseIf (policy.policyId = [] ∨ policy.policyVersion = 0 ∨ assessment.pages = [] ∨
    100000 < assessment.pages.length) .invalidRiskEvaluation
  refuseIf (assessment.pages.zipIdx.any fun (page, expected) =>
    toUInt32 expected != some page.pageIndex) .invalidRiskEvaluation
  refuseIf (assessment.pages.any fun page =>
    decide (64 < page.reasonCodes.length) || decide (64 < page.unresolvedVisualRisks.length) ||
    match page.ocrMinPpm, page.ocrMeanPpm with
    | some minimum, some mean => decide (mean.1 < minimum.1)
    | _, _ => false) .invalidRiskEvaluation

/-- `gate`. -/
def gate (gateId : String) (passed : Bool) (failureReason : String)
    (evidenceHashes : List Sha256Hex) : HardGateResult :=
  { gateId := gateId.toList, passed, blocking := true
    reasonCodes := if passed then [] else [failureReason.toList], evidenceHashes }

/-- The counts of a document. -/
structure Totals where
  p0 : UInt32
  p1 : UInt32
  p2 : UInt32
  conflicts : UInt32
  clusterInconsistencies : UInt32

/-- The sums of `evaluate_document`. -/
def totals (pages : List PageAssessment) : Except (Fault VNextSchemaError) Totals := do
  let p0 ← sumCounts mode PageAssessment.p0Count pages
  let p1 ← sumCounts mode PageAssessment.p1Count pages
  let p2 ← sumCounts mode PageAssessment.p2Count pages
  let conflicts ← sumCounts mode PageAssessment.detectorConflictCount pages
  let clusterInconsistencies ← sumCounts mode PageAssessment.clusterInconsistencyCount pages
  pure { p0, p1, p2, conflicts, clusterInconsistencies }

/-- Whether the recognition of a page is below the thresholds of the policy. -/
def PageAssessment.meetsThresholds (policy : RiskPolicy) (page : PageAssessment) : Bool :=
  (page.ocrMinPpm.any fun value => decide (policy.minimumOcrConfidencePpm.1 ≤ value.1)) &&
    decide (policy.minimumOcrCoveragePpm.1 ≤ page.coveragePpm.1)

/-- Whether a document uses recognition. -/
def DocumentAssessment.ocrUsed (assessment : DocumentAssessment) : Bool :=
  assessment.pages.any PageAssessment.ocrUsed

/-- Whether the mode of a policy admits automatic approval. -/
def RiskPolicy.modeAllowsAutomatic (policy : RiskPolicy) : Bool :=
  policy.autoApprovalMode == .balanced || policy.autoApprovalMode == .batch

/-- Whether a policy admits the automatic approval which is requested. -/
def approvalModeAllowsAutomatic (policy : RiskPolicy) (assessment : DocumentAssessment) : Bool :=
  policy.productionAutomaticEnabled && policy.modeAllowsAutomatic &&
    assessment.requestedApprovalRoute == .automatic

/-- Why a policy does not admit automatic approval. -/
def approvalModeReason (policy : RiskPolicy) : String :=
  if !policy.productionAutomaticEnabled then "production_automatic_feature_disabled"
  else if !policy.modeAllowsAutomatic then
    match policy.autoApprovalMode with
    | .strict => "strict_mode_requires_human"
    | .shadow => "shadow_mode_requires_human"
    | .disabled => "automatic_approval_disabled"
    | .balanced | .batch => "approval_mode_requires_human"
  else "approval_mode_requires_human"

/-- Whether a policy is calibrated for a document. -/
def calibrated (policy : RiskPolicy) (assessment : DocumentAssessment) : Bool :=
  policy.calibratedForAutomatic && policy.calibrationEvidenceSha256.isSome &&
    assessment.calibrationEvidenceVersion.any fun value =>
      !value.isEmpty && decide (Text.byteLength value ≤ 128)

/-- The gates of `evaluate_document`. -/
def hardGates (policy : RiskPolicy) (qualification : QualificationSnapshot)
    (assessment : DocumentAssessment) (nowUnix : UInt64) (totals : Totals) :
    List HardGateResult :=
  let qualificationPassed := qualification.qualifiedAt nowUnix assessment.ocrUsed
  let qualificationEvidence := qualification.qualificationReportSha256.toList
  [gate "qualified_processing_chain" qualificationPassed "processing_chain_not_qualified"
      qualificationEvidence,
    gate "complete_pages_and_order" (assessment.pages.all PageAssessment.completenessPassed)
      "page_completeness_failed" [],
    gate "no_p0" (totals.p0 == 0) "p0_unresolved" [],
    gate "no_unresolved_p1" (totals.p1 == 0) "p1_unresolved" [],
    gate "ocr_thresholds"
      (assessment.pages.all fun page => !page.ocrUsed || page.meetsThresholds policy)
      "ocr_threshold_failed" qualificationEvidence,
    gate "visual_risks_resolved"
      (assessment.pages.all fun page => page.unresolvedVisualRisks.isEmpty)
      "visual_risk_unresolved" [],
    gate "required_dictionary_entities_stable" assessment.dictionaryEntitiesStable
      "dictionary_entities_unstable" [],
    gate "deterministic_high_risk_fields_resolved"
      assessment.deterministicHighRiskFieldsResolved "deterministic_field_unresolved" [],
    gate "detector_conflicts_resolved" (totals.conflicts == 0) "detector_conflict_unresolved" [],
    gate "cluster_alias_consistency" (totals.clusterInconsistencies == 0)
      "cluster_alias_inconsistent" [],
    gate "independent_residual_scan"
      (assessment.independentResidualScanPassed && assessment.independentResidualScanHash.isSome)
      "residual_scan_failed" assessment.independentResidualScanHash.toList,
    gate "provenance_receiptable"
      (assessment.provenanceReceiptable && assessment.provenanceHash.isSome)
      "provenance_not_receiptable" assessment.provenanceHash.toList,
    gate "calibrated_policy" (calibrated policy assessment) "automatic_policy_not_calibrated"
      (policy.calibrationEvidenceSha256.toList ++ [policy.policySha256]),
    gate "approval_mode_allows_automatic" (approvalModeAllowsAutomatic policy assessment)
      (approvalModeReason policy) [policy.policySha256],
    gate "organization_policy_allows_automatic" policy.organizationAllowsAutomatic
      "organization_policy_requires_human" [policy.policySha256],
    gate "publication_target_fixed"
      (assessment.publicationTargetFixed && assessment.publicationTargetHash.isSome)
      "publication_target_not_fixed" assessment.publicationTargetHash.toList,
    gate "exact_worker_model_qualification"
      (qualification.exactWorkerModelMatch && qualificationPassed)
      "exact_worker_model_not_qualified" qualificationEvidence]

/-- The codec of gates. -/
def HardGateResult.codec : Codec HardGateResult :=
  Fields.record
    ((Fields.one "gateId" Codec.text).also <|
      (Fields.one "passed" Codec.bool).also <|
      (Fields.one "blocking" Codec.bool).also <|
      (Fields.one "reasonCodes" Codec.text.list).also
        (Fields.one "evidenceHashes" Sha256Hex.codec.list))
    (by decide)
    (fun (gateId, passed, blocking, reasonCodes, evidenceHashes) =>
      { gateId, passed, blocking, reasonCodes, evidenceHashes })
    (fun gate => (gate.gateId, gate.passed, gate.blocking, gate.reasonCodes, gate.evidenceHashes))
    (fun _ => rfl)

/-- `RISK_ENGINE_VERSION`. -/
def riskEngineVersion : Text := "privacy-risk-engine-v1".toList

/-- `HardGateClaimsV1`. -/
def gateClaims : Fields (Text × UInt64 × List HardGateResult) :=
  (Fields.one "engineVersion" Codec.text).also <|
    (Fields.one "evaluatedAtUnix" Codec.u64).also (Fields.one "gates" HardGateResult.codec.list)

/-- The gates with the hash over them, when they are valid. -/
def gateEvaluation (gates : List HardGateResult) (nowUnix : UInt64) :
    Except VNextSchemaError HardGateEvaluation := do
  let canonical ← canonicalJsonV1 (.object (gateClaims.write (riskEngineVersion, nowUnix, gates)))
  let evaluation : HardGateEvaluation :=
    { gates, evaluatedAtUnix := nowUnix, evaluationHash := sha256Hex canonical }
  evaluation.validate
  pure evaluation

/-- `i32::try_from(count.saturating_mul(weight)).unwrap_or(i32::MAX)`. -/
def penalty (count : UInt32) (weight : Nat) : Int :=
  let product := min (count.toNat * weight) (2 ^ 32 - 1)
  if product < 2 ^ 31 then product else 2 ^ 31 - 1

/-- What `page_readiness` subtracts from a hundred, one after another. -/
def penalties (policy : RiskPolicy) (page : PageAssessment) : List Int :=
  [penalty page.p0Count 100, penalty page.p1Count 30, penalty page.p2Count 8,
    penalty page.detectorConflictCount 15, penalty page.clusterInconsistencyCount 15] ++
  (if !page.completenessPassed then [100] else []) ++
  (if !page.unresolvedVisualRisks.isEmpty then [40] else []) ++
  (if page.ocrUsed && !page.meetsThresholds policy then [50] else [])

/-- `page_readiness`. -/
def pageReadiness (policy : RiskPolicy) (page : PageAssessment) :
    Except (Fault VNextSchemaError) UInt32 := do
  let score ← mode.subAll 32 100 (penalties policy page)
  pure (UInt32.ofNat (max 0 (min score 100)).toNat)

/-- The risk of a page with its readiness. -/
def pageRisk (page : PageAssessment) (readinessScore : UInt32) : PageRisk :=
  { pageIndex := page.pageIndex, p0Count := page.p0Count, p1Count := page.p1Count
    p2Count := page.p2Count, p3Count := page.p3Count, ocrMinPpm := page.ocrMinPpm
    ocrMeanPpm := page.ocrMeanPpm, ocrP10Ppm := page.ocrP10Ppm, coveragePpm := page.coveragePpm
    unknownLongNumberCount := page.unknownLongNumberCount
    unresolvedEntityCounts := page.unresolvedEntityCounts
    visualRisks := page.unresolvedVisualRisks, completenessPassed := page.completenessPassed
    detectorConflictCount := page.detectorConflictCount
    clusterInconsistencyCount := page.clusterInconsistencyCount
    visualReviewRequired := !page.unresolvedVisualRisks.isEmpty, readinessScore
    reasonCodes := page.reasonCodes }

/-- `to_page_risk`. -/
def toPageRisk (policy : RiskPolicy) (page : PageAssessment) :
    Except (Fault VNextSchemaError) PageRisk := do
  let readinessScore ← pageReadiness mode policy page
  pure (pageRisk page readinessScore)

/-- `document_readiness`. -/
def documentReadiness (pages : List PageRisk) (p0 p1 : UInt32) :
    Except (Fault VNextSchemaError) UInt32 :=
  if pages = [] then pure 0
  else do
    let total ← mode.sum 64 (pages.map fun page => page.readinessScore.toNat)
    let average := (toUInt32 (total / pages.length)).getD 0
    pure (if 0 < p0 then 0 else if 0 < p1 then min average 49 else average)

/-- The gates which do not block a document. -/
def reviewGates : List Text :=
  ["no_unresolved_p1".toList, "calibrated_policy".toList,
    "approval_mode_allows_automatic".toList, "organization_policy_allows_automatic".toList]

/-- `route_document`. -/
def routeDocument (gates : HardGateEvaluation) (assessment : DocumentAssessment)
    (policy : RiskPolicy) (automaticPublishAllowed : Bool) (totals : Totals) : DocumentRoute :=
  let safetyGateFailed := gates.gates.any fun gate =>
    !gate.passed && !reviewGates.contains gate.gateId
  if 0 < totals.p0 ∨ safetyGateFailed = true then .blocked
  else if automaticPublishAllowed then .autoApprovalEligible
  else if 0 < totals.p1 ∨ policy.maximumQuickReviewP2 < totals.p2 ∨
      assessment.requestedApprovalRoute = .human ∨ policy.autoApprovalMode = .strict ∨
      policy.autoApprovalMode = .disabled then .fullReviewRequired
  else .quickReviewRequired

/-- The count of P2 findings up to which a document is approved automatically. -/
def RiskPolicy.autoP2Limit (policy : RiskPolicy) : UInt32 :=
  match policy.autoApprovalMode with
  | .balanced => 0
  | .batch | .shadow => policy.maximumQuickReviewP2
  | .strict | .disabled => 0

/-- The counts which automatic approval admits. -/
def Totals.admitted (totals : Totals) (policy : RiskPolicy) : Bool :=
  totals.p0 == 0 && totals.p1 == 0 && decide (totals.p2 ≤ policy.autoP2Limit)

/-- The risk of a document, of its gates and the risks of its pages. -/
def documentRisk (policy : RiskPolicy) (qualification : QualificationSnapshot)
    (assessment : DocumentAssessment) (totals : Totals) (gates : HardGateEvaluation)
    (pageRisks : List PageRisk) (readinessScore : UInt32) : DocumentRisk :=
  let hypotheticalGatesPassed := gates.gates.all fun gate =>
    gate.passed || !gate.blocking || gate.gateId == "approval_mode_allows_automatic".toList
  let automaticPublishAllowed := approvalModeAllowsAutomatic policy assessment &&
    gates.allBlockingGatesPassed && totals.admitted policy
  { route := routeDocument gates assessment policy automaticPublishAllowed totals
    readinessScore, pageRisks
    totalP0 := totals.p0, totalP1 := totals.p1, totalP2 := totals.p2
    hardGateEvaluationHash := gates.evaluationHash
    findingSummaryHash := assessment.findingSummaryHash
    policyId := policy.policyId, policyVersion := policy.policyVersion
    policySha256 := policy.policySha256
    calibrationEvidenceVersion := assessment.calibrationEvidenceVersion
    qualificationReportId := qualification.qualificationReportId
    autoApprovalPolicyMode := policy.autoApprovalMode
    productionAutomaticEnabled := policy.productionAutomaticEnabled
    shadowWouldAutoApprove := policy.autoApprovalMode == .shadow && hypotheticalGatesPassed &&
      totals.admitted policy
    automaticPublishAllowed
    reasonCodes := (gates.gates.filter fun gate => !gate.passed).flatMap
      HardGateResult.reasonCodes }

/-- `evaluate_document`. -/
def evaluateDocument (policy : RiskPolicy) (qualification : QualificationSnapshot)
    (assessment : DocumentAssessment) (nowUnix : UInt64) :
    Except (Fault VNextSchemaError) (DocumentRisk × HardGateEvaluation) := do
  checked (validateInputs policy assessment)
  let totals ← totals mode assessment.pages
  let gates ← checked (gateEvaluation sha256Hex
    (hardGates policy qualification assessment nowUnix totals) nowUnix)
  let pageRisks ← assessment.pages.mapM (toPageRisk mode policy)
  let readinessScore ← documentReadiness mode pageRisks totals.p0 totals.p1
  let risk := documentRisk policy qualification assessment totals gates pageRisks readinessScore
  risk.validate mode gates
  pure (risk, gates)

end Evaluation

end LawyerAssistance.Privacy

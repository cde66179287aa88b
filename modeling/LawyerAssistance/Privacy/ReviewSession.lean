import LawyerAssistance.Privacy.Findings
import LawyerAssistance.Privacy.ResidualScan
import LawyerAssistance.Std.History
import Mathlib.Data.List.Destutter
import Mathlib.Data.List.Infix

/-!
# Review sessions

`review_session.rs`: the findings of a document under review, what is derived from them, and the
actions of the reviewer with their history. An operation computes the next session and puts it in
the place of the session at its end. SHA-256 is a parameter, and so is what arithmetic does on
overflow.
-/

namespace LawyerAssistance.Privacy

attribute [local instance] lawfulBEq_text

/-! ## Types -/

/-- `ReviewSessionError`. -/
inductive ReviewSessionError where
  | invalidInput
  | invalidEvidence
  | revisionConflict
  | findingNotFound
  | clusterInvalid
  | dictionaryEvidenceRequired
  | historyUnavailable
  | rejected
  | riskEvaluationFailed
  deriving DecidableEq

/-- `VisualRiskDecisionV1`. -/
inductive VisualRiskDecision where
  | confirmedRedacted
  | confirmedReviewedNonSensitive
  deriving DecidableEq

/-- The variants of `VisualRiskDecisionV1`. -/
def VisualRiskDecision.variants : Variants VisualRiskDecision where
  name
    | .confirmedRedacted => "confirmed_redacted".toList
    | .confirmedReviewedNonSensitive => "confirmed_reviewed_non_sensitive".toList
  all :=
    [.confirmedRedacted, .confirmedReviewedNonSensitive]
  complete value := by cases value <;> decide
  distinct := by decide

/-- `ReviewActionV1`. -/
inductive ReviewAction where
  | acceptReplacement (findingId : Text) (applyCluster : Bool)
  | changeEntityType (findingId : Text) (entityType : EntityType)
  | changePlaceholder (findingId replacement : Text) (applyCluster : Bool)
  | markNotSensitive (findingId : Text)
  | addToDictionary (findingId : Text) (category : DictionaryCategory) (required : Bool)
  | mergeClusters (clusterIds : List Text)
  | splitCluster (findingId : Text)
  | resolveVisualRisk (pageIndex : UInt32) (riskCode : Text) (decision : VisualRiskDecision)
      (reason : Text)
  | confirmEditedOutput
  | batchAcceptP3
  | rejectPublication
  deriving DecidableEq

/-- `VisualRiskResolutionV1`. -/
structure VisualRiskResolution where
  pageIndex : UInt32
  riskCode : Text
  decision : VisualRiskDecision
  reason : Text
  actorHash : Sha256Hex
  provenanceHash : Sha256Hex
  redactedContentSha256 : Sha256Hex
  resolvedAtUnix : UInt64
  evidenceHash : Sha256Hex
  deriving DecidableEq

/-- `VerifiedReviewActionContextV1`. -/
structure VerifiedReviewActionContext where
  actorHash : Sha256Hex
  occurredAtUnix : UInt64
  verifiedRedactedContentSha256 : Sha256Hex
  provenanceHash : Sha256Hex
  residualScan : IndependentResidualScanReport
  dictionaryRevisionHash : Option Sha256Hex

/-- `ReviewSessionInputV1`. -/
structure ReviewSessionInput where
  redactionId : Text
  caseId : CaseId
  materialId : MaterialId
  documentVersion : UInt64
  detectorRunCompleted : Bool
  redactedContentSha256 : Sha256Hex
  dictionaryRevisionHash : Option Sha256Hex
  findings : List PrivacyFinding
  assessment : DocumentAssessment
  residualScan : IndependentResidualScanReport
  riskPolicy : RiskPolicy
  qualification : QualificationSnapshot
  createdAtUnix : UInt64

/-- `ReviewAnalysisReplacementV1`. -/
structure ReviewAnalysisReplacement where
  findings : List PrivacyFinding
  assessment : DocumentAssessment
  residualScan : IndependentResidualScanReport
  redactedContentSha256 : Sha256Hex
  provenanceHash : Sha256Hex
  actionCode : Text
  occurredAtUnix : UInt64

/-- `ReviewCheckpointV1`. -/
structure ReviewCheckpoint where
  redactedContentSha256 : Sha256Hex
  dictionaryRevisionHash : Option Sha256Hex
  findings : List PrivacyFinding
  assessment : DocumentAssessment
  residualScan : IndependentResidualScanReport
  visualRiskResolutions : List VisualRiskResolution
  rejected : Bool
  deriving DecidableEq

/-- `ReviewSessionV1`. -/
structure ReviewSession where
  schemaVersion : Text
  redactionId : Text
  caseId : CaseId
  materialId : MaterialId
  documentVersion : UInt64
  detectorRunCompleted : Bool
  revision : UInt64
  redactedContentSha256 : Sha256Hex
  dictionaryRevisionHash : Option Sha256Hex
  findings : List PrivacyFinding
  assessment : DocumentAssessment
  residualScan : IndependentResidualScanReport
  visualRiskResolutions : List VisualRiskResolution
  riskPolicy : RiskPolicy
  qualification : QualificationSnapshot
  documentRisk : DocumentRisk
  hardGateEvaluation : HardGateEvaluation
  rejected : Bool
  lastActionCode : Text
  lastReasonCodes : List Text
  undoStack : List ReviewCheckpoint
  redoStack : List ReviewCheckpoint
  deriving DecidableEq

/-- `REVIEW_SESSION_SCHEMA_VERSION`. -/
def reviewSessionSchemaVersion : Text := "privacy-risk-review-session-v1".toList

/-- `MAX_REVIEW_HISTORY`. -/
def maxReviewHistory : Nat := 128

/-- A refusal of a program which does not compute in fixed width. -/
def settled {α : Type} (computed : Except ReviewSessionError α) :
    Except (Fault ReviewSessionError) α :=
  match computed with
  | .ok value => .ok value
  | .error error => .error (.refused error)

/-- `From<VNextSchemaError>`. -/
def evaluated {α : Type} (computed : Except (Fault VNextSchemaError) α) :
    Except (Fault ReviewSessionError) α :=
  match computed with
  | .ok value => .ok value
  | .error .panicked => .error .panicked
  | .error (.refused _) => .error (.refused .riskEvaluationFailed)

/-- `safe_code`. -/
def safeCode (value : Text) (maxBytes : Nat) : Bool :=
  !value.isEmpty && decide (Text.byteLength value ≤ maxBytes) && !value.any Text.isControl

/-! ## Pages -/

/-- The reasons which a scan of residuals gives, as their names begin. -/
def isResidual (reason : Text) : Bool := "residual_".toList.isPrefixOf reason

/-- `reset_page`. -/
def resetPage (page : PageAssessment) : PageAssessment :=
  { page with
    p0Count := 0, p1Count := 0, p2Count := 0, p3Count := 0, unknownLongNumberCount := 0
    unresolvedEntityCounts := fun _ => none, detectorConflictCount := 0
    clusterInconsistencyCount := 0
    reasonCodes := page.reasonCodes.filter fun reason => !isResidual reason }

/-- The pages after a change of the first page with an index, when there is one. -/
def changePage (pageIndex : UInt32) (change : PageAssessment → PageAssessment) :
    List PageAssessment → Option (List PageAssessment)
  | [] => none
  | page :: rest =>
      if page.pageIndex = pageIndex then some (change page :: rest)
      else (changePage pageIndex change rest).map (page :: ·)

/-- A finding which is not resolved. -/
def PrivacyFinding.unresolved (finding : PrivacyFinding) : Bool :=
  finding.resolutionState == .unresolved || finding.resolutionState == .revoked

/-- A cluster whose findings do not have one type and one replacement. -/
def inconsistentCluster (findings : List PrivacyFinding) (cluster : ClusterId) : Bool :=
  decide (1 < ((findings.filter fun finding => finding.clusterId = some cluster).map
    fun finding => (finding.entityType, finding.proposedReplacement)).dedup.length)

/-- The count of the severity of a finding. -/
def countSeverity (finding : PrivacyFinding) (page : PageAssessment) : PageAssessment :=
  match finding.severity with
  | .p0Blocking => { page with p0Count := saturatingNext page.p0Count }
  | .p1High => { page with p1Count := saturatingNext page.p1Count }
  | .p2Medium => { page with p2Count := saturatingNext page.p2Count }
  | .p3Resolved | .informational => { page with p3Count := saturatingNext page.p3Count }

/-- The count of the type of a finding which has a risk. -/
def countEntity (finding : PrivacyFinding) (page : PageAssessment) : PageAssessment :=
  match finding.severity with
  | .p0Blocking | .p1High | .p2Medium =>
      { page with
        unresolvedEntityCounts := Function.update page.unresolvedEntityCounts finding.entityType
          (some (saturatingNext ((page.unresolvedEntityCounts finding.entityType).getD 0))) }
  | .p3Resolved | .informational => page

/-- The count of the conflicts of detectors. -/
def countConflict (finding : PrivacyFinding) (page : PageAssessment) : PageAssessment :=
  if !finding.detectorAgreement ||
      finding.reasonCodes.any (fun reason => decide ("conflict".toList <:+: reason)) then
    { page with detectorConflictCount := saturatingNext page.detectorConflictCount }
  else page

/-- The counts of a page with one finding more. -/
def countFinding (findings : List PrivacyFinding) (finding : PrivacyFinding)
    (page : PageAssessment) : PageAssessment :=
  let counted :=
    if finding.unresolved then countConflict finding (countEntity finding (countSeverity finding page))
    else { page with p3Count := saturatingNext page.p3Count }
  if finding.clusterId.any (inconsistentCluster findings) then
    { counted with clusterInconsistencyCount := saturatingNext counted.clusterInconsistencyCount }
  else counted

/-- The reasons of a page with one more. -/
def pushCode (codes : List Text) (code : Text) : List Text :=
  if codes.contains code then codes else codes ++ [code]

/-- The counts and the reasons of a page with one hit more. -/
def countHit (hit : ResidualHit) (page : PageAssessment) : PageAssessment :=
  { page with
    unknownLongNumberCount :=
      if hit.riskClass = .longDigitSequence then saturatingNext page.unknownLongNumberCount
      else page.unknownLongNumberCount
    reasonCodes := pushCode page.reasonCodes hit.reasonCode }

/-- The pages with the counts of the findings and the hits. -/
def countPages (findings : List PrivacyFinding) (hits : List ResidualHit)
    (pages : List PageAssessment) : Except ReviewSessionError (List PageAssessment) := do
  let pages ← findings.foldlM (fun pages finding =>
    presentOr (changePage finding.pageIndex (countFinding findings finding) pages) .invalidInput)
    (pages.map resetPage)
  let pages ← hits.foldlM (fun pages hit =>
    presentOr (changePage hit.pageIndex (countHit hit) pages) .invalidEvidence) pages
  refuseIf (pages.any fun page => decide (maxReasonCodes < page.reasonCodes.length)) .invalidInput
  pure pages

/-- `deterministic_high_risk`. -/
def deterministicHighRisk : EntityType → Bool
  | .identityNumber | .passportNumber | .phoneNumber | .landlineNumber | .bankAccount
  | .emailAddress | .organizationCode | .businessLicenseNumber | .vehiclePlate | .ipAddress
  | .paymentAccount => true
  | _ => false

section Sessions

variable (sha256Hex : Octets → Sha256Hex)

/-- `validate_residual`. -/
def validateResidual (report : IndependentResidualScanReport) (pageCount : Nat) :
    Except ReviewSessionError Unit := do
  match report.validate sha256Hex with
  | .ok () => refuseIf (report.scannedPageCount.toNat ≠ pageCount) .invalidEvidence
  | .error _ => .error .invalidEvidence

/-- The claims of a resolution. -/
def visualResolutionClaims (pageIndex : UInt32) (riskCode : Text) (decision : VisualRiskDecision)
    (reason : Text) (actorHash provenanceHash redactedContentSha256 : Sha256Hex)
    (resolvedAtUnix : UInt64) : Text :=
  "LawyerAssistance/visual-risk-resolution/v1".toList ++
    '\x00' :: Json.decimal pageIndex.toNat ++ '\x00' :: riskCode ++
    '\x00' :: VisualRiskDecision.variants.name decision ++ '\x00' :: reason ++
    '\x00' :: actorHash.1 ++ '\x00' :: provenanceHash.1 ++
    '\x00' :: redactedContentSha256.1 ++ '\x00' :: Json.decimal resolvedAtUnix.toNat

/-- `visual_resolution_evidence_hash`. -/
def visualResolutionEvidenceHash (pageIndex : UInt32) (riskCode : Text)
    (decision : VisualRiskDecision) (reason : Text)
    (actorHash provenanceHash redactedContentSha256 : Sha256Hex) (resolvedAtUnix : UInt64) :
    Sha256Hex :=
  sha256Hex (utf8 (String.ofList (visualResolutionClaims pageIndex riskCode decision reason
    actorHash provenanceHash redactedContentSha256 resolvedAtUnix)))

namespace ReviewSession

/-- The checks of the findings and the pages before they are counted. -/
def checkFindings (session : ReviewSession) : Except ReviewSessionError Unit := do
  session.findings.forM fun finding => do
    match finding.validate with
    | .ok () => refuseIf (finding.caseId ≠ session.caseId ∨
        finding.materialId ≠ session.materialId ∨
        finding.documentVersion ≠ session.documentVersion) .invalidInput
    | .error _ => .error .invalidInput
  refuseIf (¬ (session.findings.map PrivacyFinding.findingId).Nodup) .invalidInput
  refuseIf (¬ (session.assessment.pages.map PageAssessment.pageIndex).Nodup) .invalidInput

/-- The fields of a detected document which do not have to be resolved by a reviewer. -/
def highRiskResolved (session : ReviewSession) : Bool :=
  session.detectorRunCompleted && session.findings.all fun finding =>
    !finding.unresolved || !deterministicHighRisk finding.entityType

/-- The assessment of a session with counted pages. -/
def withPages (session : ReviewSession) (pages : List PageAssessment) (findings : Octets) :
    DocumentAssessment :=
  { session.assessment with
    pages
    findingSummaryHash := sha256Hex findings
    deterministicHighRiskFieldsResolved := session.highRiskResolved
    independentResidualScanPassed := session.residualScan.passed
    independentResidualScanHash := some session.residualScan.evidenceHash }

variable (mode : Overflow)

/-- `refresh_risk`. -/
def refreshRisk (session : ReviewSession) (nowUnix : UInt64) :
    Except (Fault ReviewSessionError) ReviewSession := do
  refuseIf (nowUnix = 0) (.refused .invalidInput)
  settled (validateResidual sha256Hex session.residualScan session.assessment.pages.length)
  settled session.checkFindings
  let pages ← settled (countPages session.findings session.residualScan.hits
    session.assessment.pages)
  let findings ← evaluated (checked (canonicalJsonV1 (PrivacyFinding.codec.list.write
    session.findings)))
  let assessment := session.withPages sha256Hex pages findings
  let (risk, gates) ← evaluated (evaluateDocument sha256Hex mode session.riskPolicy
    session.qualification assessment nowUnix)
  pure { session with assessment, documentRisk := risk, hardGateEvaluation := gates }

/-- `ReviewSessionV1::new`. -/
def new (input : ReviewSessionInput) : Except (Fault ReviewSessionError) ReviewSession := do
  refuseIf (safeCode input.redactionId 128 = false ∨ input.createdAtUnix = 0 ∨
    input.documentVersion = 0) (.refused .invalidInput)
  settled (validateResidual sha256Hex input.residualScan input.assessment.pages.length)
  let (risk, gates) ← evaluated (evaluateDocument sha256Hex mode input.riskPolicy
    input.qualification input.assessment input.createdAtUnix)
  let session : ReviewSession :=
    { schemaVersion := reviewSessionSchemaVersion, redactionId := input.redactionId
      caseId := input.caseId, materialId := input.materialId
      documentVersion := input.documentVersion
      detectorRunCompleted := input.detectorRunCompleted, revision := 1
      redactedContentSha256 := input.redactedContentSha256
      dictionaryRevisionHash := input.dictionaryRevisionHash
      findings := input.findings, assessment := input.assessment
      residualScan := input.residualScan, visualRiskResolutions := []
      riskPolicy := input.riskPolicy, qualification := input.qualification
      documentRisk := risk, hardGateEvaluation := gates, rejected := false
      lastActionCode := "review_initialized".toList, lastReasonCodes := []
      undoStack := [], redoStack := [] }
  session.refreshRisk sha256Hex mode input.createdAtUnix

/-! ## History -/

/-- `checkpoint`. -/
def checkpoint (session : ReviewSession) : ReviewCheckpoint :=
  { redactedContentSha256 := session.redactedContentSha256
    dictionaryRevisionHash := session.dictionaryRevisionHash
    findings := session.findings, assessment := session.assessment
    residualScan := session.residualScan
    visualRiskResolutions := session.visualRiskResolutions, rejected := session.rejected }

/-- `restore`. -/
def restore (checkpoint : ReviewCheckpoint) (session : ReviewSession) : ReviewSession :=
  { session with
    redactedContentSha256 := checkpoint.redactedContentSha256
    dictionaryRevisionHash := checkpoint.dictionaryRevisionHash
    findings := checkpoint.findings, assessment := checkpoint.assessment
    residualScan := checkpoint.residualScan
    visualRiskResolutions := checkpoint.visualRiskResolutions, rejected := checkpoint.rejected }

/-- `revision.checked_add`, of one. -/
def nextRevision (session : ReviewSession) : Except (Fault ReviewSessionError) UInt64 := do
  refuseIf (session.revision = 0xFFFFFFFFFFFFFFFF) (.refused .invalidInput)
  pure (session.revision + 1)

/-- `require_revision`. -/
def requireRevision (session : ReviewSession) (expected : UInt64) :
    Except (Fault ReviewSessionError) Unit :=
  refuseIf (expected ≠ session.revision) (.refused .revisionConflict)

/-! ## Actions -/

/-- `finding_index`. -/
def findingIndex (session : ReviewSession) (findingId : Text) : Except ReviewSessionError Nat :=
  presentOr (session.findings.findIdx? fun finding => finding.findingId.1 == findingId)
    .findingNotFound

/-- `target_indexes`. -/
def targetIndexes (session : ReviewSession) (findingId : Text) (applyCluster : Bool) :
    Except ReviewSessionError (List Nat) := do
  let index ← session.findingIndex findingId
  if applyCluster then
    let cluster ← presentOr (session.findings[index]?.bind PrivacyFinding.clusterId)
      .clusterInvalid
    pure ((session.findings.zipIdx.filter fun indexed =>
      indexed.1.clusterId == some cluster).map Prod.snd)
  else pure [index]

/-- A session with a change of the findings at some indexes. -/
def changeFindings (session : ReviewSession) (indexes : List Nat)
    (change : PrivacyFinding → Except ReviewSessionError PrivacyFinding) :
    Except ReviewSessionError ReviewSession := do
  let findings ← session.findings.zipIdx.mapM fun (finding, index) =>
    if indexes.contains index then change finding else pure finding
  pure { session with findings }

end ReviewSession

/-- `push_reason`. -/
def pushReason (finding : PrivacyFinding) (reason : Text) :
    Except ReviewSessionError PrivacyFinding := do
  let reasonCodes := pushCode finding.reasonCodes reason
  refuseIf (maxReasonCodes < reasonCodes.length) .invalidInput
  pure { finding with reasonCodes }

/-- `resolve`. -/
def resolve (context : VerifiedReviewActionContext) (resolution : ReviewResolution)
    (severity : FindingSeverity) (reason : String) (finding : PrivacyFinding) :
    Except ReviewSessionError PrivacyFinding :=
  pushReason
    { finding with
      resolutionState := resolution, severity
      humanOverride := some
        { resolution, reasonCode := reason.toList, actorHash := context.actorHash
          resolvedAtUnix := context.occurredAtUnix } }
    reason.toList

/-- `valid_replacement`. -/
def validReplacement (value : Text) : Bool :=
  let value := Text.trim value
  safeCode value 128 &&
    (("\u3010".toList.isPrefixOf value && "\u3011".toList.isSuffixOf value) ||
      ("[".toList.isPrefixOf value && "]".toList.isSuffixOf value))

/-- The order of resolutions. -/
def resolutionBefore (left right : VisualRiskResolution) : Bool :=
  decide (left.pageIndex < right.pageIndex) ||
    (left.pageIndex == right.pageIndex && decide (left.riskCode ≤ right.riskCode))

namespace ReviewSession

/-- `ReviewActionV1::AddToDictionary`. -/
def addToDictionary (session : ReviewSession) (context : VerifiedReviewActionContext)
    (findingId : Text) (category : DictionaryCategory) (required : Bool) :
    Except ReviewSessionError ReviewSession := do
  let dictionaryHash ← presentOr context.dictionaryRevisionHash .dictionaryEvidenceRequired
  let index ← session.findingIndex findingId
  let session ← session.changeFindings [index] fun finding => do
    let finding ← pushReason { finding with caseDictionaryMatch := true }
      (if required then "user_added_required_dictionary_entry"
        else "user_added_dictionary_entry").toList
    pure { finding with
      entityType := if finding.entityType = .custom then category.defaultEntityType
        else finding.entityType }
  pure { session with dictionaryRevisionHash := some dictionaryHash }

/-- `ReviewActionV1::MergeClusters`. -/
def mergeClusters (session : ReviewSession) (context : VerifiedReviewActionContext)
    (clusterIds : List Text) : Except ReviewSessionError ReviewSession := do
  let clusters ← clusterIds.mapM fun value => presentOr (ClusterId.parse value) .clusterInvalid
  let clusters := (clusters.insertionSort fun left right => left.1 ≤ right.1).destutter (· ≠ ·)
  match clusters with
  | target :: _ :: _ =>
      match mergeCluster session.findings clusters target context.actorHash
          context.occurredAtUnix with
      | .ok findings =>
          pure { session with
            findings := findings.map fun finding =>
              if finding.resolutionState = .clusterMerged then
                { finding with severity := .p3Resolved }
              else finding }
      | .error _ => .error .clusterInvalid
  | _ => .error .clusterInvalid

/-- `ReviewActionV1::SplitCluster`. -/
def splitCluster (session : ReviewSession) (context : VerifiedReviewActionContext)
    (findingId : Text) : Except ReviewSessionError ReviewSession := do
  let index ← session.findingIndex findingId
  session.changeFindings [index] fun finding =>
    match splitFindingCluster sha256Hex finding context.actorHash context.occurredAtUnix with
    | .ok finding => .ok { finding with severity := .p3Resolved }
    | .error _ => .error .clusterInvalid

/-- The resolution of a visual risk in a context. -/
def visualRiskResolution (context : VerifiedReviewActionContext) (pageIndex : UInt32)
    (riskCode : Text) (decision : VisualRiskDecision) (reason : Text) : VisualRiskResolution :=
  { pageIndex, riskCode, decision, reason, actorHash := context.actorHash
    provenanceHash := context.provenanceHash
    redactedContentSha256 := context.verifiedRedactedContentSha256
    resolvedAtUnix := context.occurredAtUnix
    evidenceHash := visualResolutionEvidenceHash sha256Hex pageIndex riskCode decision reason
      context.actorHash context.provenanceHash context.verifiedRedactedContentSha256
      context.occurredAtUnix }

/-- `ReviewActionV1::ResolveVisualRisk`. -/
def resolveVisualRisk (session : ReviewSession) (context : VerifiedReviewActionContext)
    (pageIndex : UInt32) (riskCode : Text) (decision : VisualRiskDecision) (reason : Text) :
    Except ReviewSessionError ReviewSession := do
  refuseIf (safeCode riskCode 128 = false ∨ safeCode reason 512 = false ∨
    Text.trim reason ≠ reason) .invalidInput
  let page ← presentOr (session.assessment.pages.find? fun page => page.pageIndex = pageIndex)
    .invalidEvidence
  refuseIf (riskCode ∉ page.unresolvedVisualRisks) .invalidEvidence
  let pages ← presentOr (changePage pageIndex (fun page =>
    { page with unresolvedVisualRisks := page.unresolvedVisualRisks.erase riskCode })
    session.assessment.pages) .invalidEvidence
  pure { session with
    assessment := { session.assessment with pages }
    visualRiskResolutions := (session.visualRiskResolutions ++
      [visualRiskResolution sha256Hex context pageIndex riskCode decision reason]).insertionSort
        fun left right => resolutionBefore left right }

/-- `mutate`, with the code of the action. -/
def mutate (session : ReviewSession) (action : ReviewAction)
    (context : VerifiedReviewActionContext) : Except ReviewSessionError (String × ReviewSession) :=
  match action with
  | .acceptReplacement findingId applyCluster => do
      let indexes ← session.targetIndexes findingId applyCluster
      let next ← session.changeFindings indexes
        (resolve context .accepted .p3Resolved "user_accepted_replacement")
      pure ("accept_replacement", next)
  | .changeEntityType findingId entityType => do
      let index ← session.findingIndex findingId
      let next ← session.changeFindings [index] fun finding =>
        resolve context .modified .p3Resolved "user_changed_entity_type"
          { finding with entityType }
      pure ("change_entity_type", next)
  | .changePlaceholder findingId replacement applyCluster => do
      refuseIf (validReplacement replacement = false) .invalidInput
      let indexes ← session.targetIndexes findingId applyCluster
      let next ← session.changeFindings indexes fun finding =>
        resolve context .modified .p3Resolved "user_changed_placeholder"
          { finding with proposedReplacement := replacement }
      pure ("change_placeholder", next)
  | .markNotSensitive findingId => do
      let index ← session.findingIndex findingId
      let next ← session.changeFindings [index]
        (resolve context .notSensitive .informational "user_marked_not_sensitive")
      pure ("mark_not_sensitive", next)
  | .addToDictionary findingId category required => do
      let next ← session.addToDictionary context findingId category required
      pure ("add_to_dictionary", next)
  | .mergeClusters clusterIds => do
      let next ← session.mergeClusters context clusterIds
      pure ("merge_clusters", next)
  | .splitCluster findingId => do
      let next ← session.splitCluster sha256Hex context findingId
      pure ("split_cluster", next)
  | .resolveVisualRisk pageIndex riskCode decision reason => do
      let next ← session.resolveVisualRisk sha256Hex context pageIndex riskCode decision reason
      pure ("resolve_visual_risk", next)
  | .confirmEditedOutput => pure ("confirm_edited_output", session)
  | .batchAcceptP3 => do
      let findings ← session.findings.mapM fun finding =>
        if finding.severity = .p3Resolved ∧ finding.resolutionState = .unresolved then
          resolve context .accepted .p3Resolved "user_batch_accepted_p3" finding
        else pure finding
      pure ("batch_accept_p3", { session with findings })
  | .rejectPublication => do
      refuseIf (session.rejected = true) .rejected
      pure ("reject_publication", { session with rejected := true })

/-! ## Operations -/

variable (mode : Overflow)

/-- A session which records its checkpoint. What was undone is discarded. -/
def recorded (session : ReviewSession) : ReviewSession :=
  { session with
    undoStack := History.push maxReviewHistory session.undoStack session.checkpoint
    redoStack := [] }

/-- `apply_action`. -/
def applyAction (session : ReviewSession) (expectedRevision : UInt64) (action : ReviewAction)
    (context : VerifiedReviewActionContext) : Except (Fault ReviewSessionError) ReviewSession := do
  session.requireRevision expectedRevision
  refuseIf (session.rejected = true ∧ action ≠ .rejectPublication) (.refused .rejected)
  refuseIf (context.occurredAtUnix = 0) (.refused .invalidInput)
  settled (validateResidual sha256Hex context.residualScan session.assessment.pages.length)
  let (actionCode, next) ← settled (session.recorded.mutate sha256Hex action context)
  let revision ← next.nextRevision
  let next : ReviewSession :=
    { next with
      lastActionCode := actionCode.toList, lastReasonCodes := []
      redactedContentSha256 := context.verifiedRedactedContentSha256
      residualScan := context.residualScan
      assessment :=
        { next.assessment with
          provenanceReceiptable := true, provenanceHash := some context.provenanceHash }
      revision }
  next.refreshRisk sha256Hex mode context.occurredAtUnix

/-- `replace_analysis`. -/
def replaceAnalysis (session : ReviewSession) (expectedRevision : UInt64)
    (replacement : ReviewAnalysisReplacement) :
    Except (Fault ReviewSessionError) ReviewSession := do
  session.requireRevision expectedRevision
  refuseIf (session.rejected = true) (.refused .rejected)
  refuseIf ((replacement.actionCode ≠ "detection_rerun".toList ∧
    replacement.actionCode ≠ "ocr_rerun".toList) ∨ replacement.occurredAtUnix = 0)
    (.refused .invalidInput)
  settled (validateResidual sha256Hex replacement.residualScan replacement.assessment.pages.length)
  let revision ← session.nextRevision
  let next : ReviewSession :=
    { session.recorded with
      findings := replacement.findings
      assessment :=
        { replacement.assessment with
          provenanceReceiptable := true, provenanceHash := some replacement.provenanceHash }
      residualScan := replacement.residualScan, visualRiskResolutions := []
      redactedContentSha256 := replacement.redactedContentSha256
      revision, lastActionCode := replacement.actionCode, lastReasonCodes := [] }
  next.refreshRisk sha256Hex mode replacement.occurredAtUnix

/-- `undo`. -/
def undo (session : ReviewSession) (expectedRevision occurredAtUnix : UInt64) :
    Except (Fault ReviewSessionError) ReviewSession := do
  session.requireRevision expectedRevision
  refuseIf (occurredAtUnix = 0) (.refused .invalidInput)
  let checkpoint ← presentOr session.undoStack.getLast? (.refused .historyUnavailable)
  let revision ← session.nextRevision
  let next : ReviewSession :=
    { session.restore checkpoint with
      undoStack := session.undoStack.dropLast
      redoStack := History.push maxReviewHistory session.redoStack session.checkpoint
      revision, lastActionCode := "undo".toList, lastReasonCodes := [] }
  next.refreshRisk sha256Hex mode occurredAtUnix

/-- `redo`. -/
def redo (session : ReviewSession) (expectedRevision occurredAtUnix : UInt64) :
    Except (Fault ReviewSessionError) ReviewSession := do
  session.requireRevision expectedRevision
  refuseIf (occurredAtUnix = 0) (.refused .invalidInput)
  let checkpoint ← presentOr session.redoStack.getLast? (.refused .historyUnavailable)
  let revision ← session.nextRevision
  let next : ReviewSession :=
    { session.restore checkpoint with
      undoStack := History.push maxReviewHistory session.undoStack session.checkpoint
      redoStack := session.redoStack.dropLast
      revision, lastActionCode := "redo".toList, lastReasonCodes := [] }
  next.refreshRisk sha256Hex mode occurredAtUnix

/-- `bind_publication_context`. -/
def bindPublicationContext (session : ReviewSession) (expectedRevision : UInt64)
    (publicationTargetHash : Sha256Hex) (requestedApprovalRoute : RequestedApprovalRoute)
    (riskPolicy : RiskPolicy) (qualification : QualificationSnapshot) (occurredAtUnix : UInt64) :
    Except (Fault ReviewSessionError) ReviewSession := do
  session.requireRevision expectedRevision
  refuseIf (session.rejected = true) (.refused .rejected)
  refuseIf (occurredAtUnix = 0) (.refused .invalidInput)
  let revision ← session.nextRevision
  let next : ReviewSession :=
    { session with
      assessment :=
        { session.assessment with
          publicationTargetFixed := true, publicationTargetHash := some publicationTargetHash
          requestedApprovalRoute }
      riskPolicy, qualification, revision
      lastActionCode := "bind_publication_context".toList, lastReasonCodes := [] }
  next.refreshRisk sha256Hex mode occurredAtUnix

/-- The calls which change a session. -/
inductive Operation where
  | applyAction (expectedRevision : UInt64) (action : ReviewAction)
      (context : VerifiedReviewActionContext)
  | replaceAnalysis (expectedRevision : UInt64) (replacement : ReviewAnalysisReplacement)
  | undo (expectedRevision occurredAtUnix : UInt64)
  | redo (expectedRevision occurredAtUnix : UInt64)
  | bindPublicationContext (expectedRevision : UInt64) (publicationTargetHash : Sha256Hex)
      (requestedApprovalRoute : RequestedApprovalRoute) (riskPolicy : RiskPolicy)
      (qualification : QualificationSnapshot) (occurredAtUnix : UInt64)

/-- The session which an operation puts in the place of a session when it succeeds. -/
def next (session : ReviewSession) : Operation → Except (Fault ReviewSessionError) ReviewSession
  | .applyAction expectedRevision action context =>
      session.applyAction sha256Hex mode expectedRevision action context
  | .replaceAnalysis expectedRevision replacement =>
      session.replaceAnalysis sha256Hex mode expectedRevision replacement
  | .undo expectedRevision occurredAtUnix =>
      session.undo sha256Hex mode expectedRevision occurredAtUnix
  | .redo expectedRevision occurredAtUnix =>
      session.redo sha256Hex mode expectedRevision occurredAtUnix
  | .bindPublicationContext expectedRevision publicationTargetHash requestedApprovalRoute
      riskPolicy qualification occurredAtUnix =>
      session.bindPublicationContext sha256Hex mode expectedRevision publicationTargetHash
        requestedApprovalRoute riskPolicy qualification occurredAtUnix

/-- An operation on a session: `*self = next` at its end, and nothing before. -/
def call (session : ReviewSession) (operation : Operation) :
    ReviewSession × Except (Fault ReviewSessionError) Unit :=
  match session.next sha256Hex mode operation with
  | .ok next => (next, .ok ())
  | .error fault => (session, .error fault)

end ReviewSession

end Sessions

end LawyerAssistance.Privacy

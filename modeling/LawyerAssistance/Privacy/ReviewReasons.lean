import LawyerAssistance.Privacy.ResidualFinds
import LawyerAssistance.Privacy.ReviewRefresh
import LawyerAssistance.Std.Machine

/-!
# Reasons of pages under review

A refresh resets the reasons of a page which begin with `residual_` and adds those of the hits. The
scan also gives reasons which begin otherwise, and these stay: the reasons of the pages are those
of the current hits as long as no report loses such a hit.
-/

namespace LawyerAssistance.Privacy

attribute [local instance] lawfulBEq_text

/-! ## Current reasons -/

/-- The reasons of the pages which a scan gives are those of the hits on them. -/
def ReasonsCurrent (pages : List PageAssessment) (hits : List ResidualHit) : Prop :=
  ∀ page ∈ pages, ∀ code ∈ scanReasons,
    code ∈ page.reasonCodes ↔ code ∈ hitCodes hits page.pageIndex

/-- The hits have every reason of a scan which a page has and which is not reset. -/
def ReasonsKept (pages : List PageAssessment) (hits : List ResidualHit) : Prop :=
  ∀ page ∈ pages, ∀ code ∈ scanReasons, isResidual code = false → code ∈ page.reasonCodes →
    code ∈ hitCodes hits page.pageIndex

instance (pages : List PageAssessment) (hits : List ResidualHit) :
    Decidable (ReasonsCurrent pages hits) := by
  unfold ReasonsCurrent
  infer_instance

section Reasons

variable {pages others : List PageAssessment} {hits : List ResidualHit} {known codes : List Text}
  {findings : List PrivacyFinding}

theorem mem_pushCodes {code : Text} : code ∈ pushCodes known codes ↔ code ∈ known ∨ code ∈ codes := by
  induction codes generalizing known with
  | nil => simp [pushCodes]
  | cons first rest inductionHypothesis =>
      rw [pushCodes, List.foldl_cons, ← pushCodes, inductionHypothesis, mem_pushCode, or_assoc,
        List.mem_cons]

theorem ReasonsCurrent.kept (current : ReasonsCurrent pages hits) : ReasonsKept pages hits :=
  fun page among code scanned _ held => (current page among code scanned).mp held

/-- Settled pages have current reasons exactly when the hits have what the pages keep. -/
theorem reasonsCurrent_settled :
    ReasonsCurrent (pages.map (settledPage findings hits)) hits ↔ ReasonsKept pages hits := by
  rw [ReasonsCurrent, List.forall_mem_map]
  refine forall₂_congr fun page _ => forall₂_congr fun code _ => ?_
  rw [pageIndex_settledPage, reasonCodes_settledPage, mem_pushCodes, keptCodes, List.mem_filter,
    Bool.not_eq_true']
  constructor
  · intro current plain held
    exact current.mp (.inl ⟨held, plain⟩)
  · intro kept
    exact ⟨fun held => held.elim (fun both => kept both.2 both.1) id, .inr⟩

/-- What pages keep depends on their indices and their reasons. -/
theorem reasonsKept_congr
    (same : pages.map (fun page => (page.pageIndex, page.reasonCodes)) =
      others.map fun page => (page.pageIndex, page.reasonCodes)) :
    ReasonsKept pages hits ↔ ReasonsKept others hits := by
  have pairs (pages : List PageAssessment) : ReasonsKept pages hits ↔
      ∀ pair ∈ pages.map (fun page => (page.pageIndex, page.reasonCodes)),
        ∀ code ∈ scanReasons, isResidual code = false → code ∈ pair.2 →
          code ∈ hitCodes hits pair.1 := by
    rw [List.forall_mem_map]
    rfl
  rw [pairs, pairs, same]

/-- A change which keeps an aspect of a page keeps it on all pages. -/
theorem map_of_changePage {α : Type} {aspect : PageAssessment → α} {pageIndex : UInt32}
    {change : PageAssessment → PageAssessment}
    (keeps : ∀ page, aspect (change page) = aspect page)
    (changed : changePage pageIndex change pages = some others) :
    others.map aspect = pages.map aspect := by
  induction pages generalizing others with
  | nil => cases changed
  | cons page rest inductionHypothesis =>
      rw [changePage] at changed
      split_ifs at changed with here
      · cases changed
        rw [List.map_cons, List.map_cons, keeps]
      · obtain ⟨rest', changedRest, rfl⟩ := Option.map_eq_some_iff.mp changed
        rw [List.map_cons, List.map_cons, inductionHypothesis changedRest]

end Reasons

/-! ## Operations -/

/-- A session with current reasons, now and at every checkpoint. -/
structure ReasonsSettled (session : ReviewSession) : Prop where
  now : ReasonsCurrent session.assessment.pages session.residualScan.hits
  history : ∀ checkpoint ∈ session.undoStack ++ session.redoStack,
    ReasonsCurrent checkpoint.assessment.pages checkpoint.residualScan.hits

namespace ReviewSession

/-- An operation after which no page loses a hit whose reason it keeps. -/
def KeepsReasons (session : ReviewSession) : Operation → Prop
  | .applyAction _ _ context =>
      ReasonsKept session.assessment.pages context.residualScan.hits
  | .replaceAnalysis _ replacement =>
      ReasonsKept replacement.assessment.pages replacement.residualScan.hits
  | .undo _ _ | .redo _ _ | .bindPublicationContext _ _ _ _ _ _ => True

end ReviewSession

section Operations

variable {sha256Hex : Octets → Sha256Hex} {mode : Overflow} {session next final : ReviewSession}
  {nowUnix : UInt64}

theorem reasons_of_refreshRisk (refreshed : session.refreshRisk sha256Hex mode nowUnix = .ok next) :
    (ReasonsCurrent next.assessment.pages next.residualScan.hits ↔
        ReasonsKept session.assessment.pages session.residualScan.hits) ∧
      next.undoStack = session.undoStack ∧ next.redoStack = session.redoStack := by
  obtain ⟨_, _, risk, gates, _, rfl⟩ := refreshRisk_eq_ok.mp refreshed
  exact ⟨reasonsCurrent_settled, rfl, rfl⟩

/-- What an action leaves as it is. -/
structure LeavesReasons (session next : ReviewSession) : Prop where
  reasons : next.assessment.pages.map (fun page => (page.pageIndex, page.reasonCodes)) =
    session.assessment.pages.map fun page => (page.pageIndex, page.reasonCodes)
  undoStack : next.undoStack = session.undoStack
  redoStack : next.redoStack = session.redoStack

/-- What an action leaves as it is, with the revision. -/
structure LeavesHistory (session next : ReviewSession) : Prop
    extends LeavesReasons session next where
  revision : next.revision = session.revision

theorem leavesHistory_of_changeFindings {indexes : List Nat}
    {change : PrivacyFinding → Except ReviewSessionError PrivacyFinding}
    (changed : session.changeFindings indexes change = .ok next) : LeavesHistory session next := by
  obtain ⟨findings, _, same⟩ := bind_eq_ok.mp changed
  cases same
  exact ⟨⟨rfl, rfl, rfl⟩, rfl⟩

theorem leavesHistory_of_addToDictionary {context : VerifiedReviewActionContext} {findingId : Text}
    {category : DictionaryCategory} {required : Bool}
    (added : session.addToDictionary context findingId category required = .ok next) :
    LeavesHistory session next := by
  obtain ⟨dictionaryHash, _, added⟩ := bind_eq_ok.mp added
  obtain ⟨index, _, added⟩ := bind_eq_ok.mp added
  obtain ⟨changed, done, same⟩ := bind_eq_ok.mp added
  cases same
  obtain ⟨⟨reasons, undoStack, redoStack⟩, revision⟩ := leavesHistory_of_changeFindings done
  exact ⟨⟨reasons, undoStack, redoStack⟩, revision⟩

theorem leavesHistory_of_mergeClusters {context : VerifiedReviewActionContext}
    {clusterIds : List Text} (merged : session.mergeClusters context clusterIds = .ok next) :
    LeavesHistory session next := by
  obtain ⟨clusters, _, merged⟩ := bind_eq_ok.mp merged
  dsimp only at merged
  split at merged
  next =>
    split at merged
    next =>
      cases merged
      exact ⟨⟨rfl, rfl, rfl⟩, rfl⟩
    next => cases merged
  next => cases merged

theorem leavesHistory_of_resolveVisualRisk {context : VerifiedReviewActionContext}
    {pageIndex : UInt32} {riskCode reason : Text} {decision : VisualRiskDecision}
    (resolved : session.resolveVisualRisk sha256Hex context pageIndex riskCode decision reason =
      .ok next) : LeavesHistory session next := by
  obtain ⟨_, resolved⟩ := refuseIf_bind_eq_ok.mp resolved
  obtain ⟨page, _, resolved⟩ := bind_eq_ok.mp resolved
  obtain ⟨_, resolved⟩ := refuseIf_bind_eq_ok.mp resolved
  obtain ⟨pages, changed, same⟩ := bind_eq_ok.mp resolved
  cases same
  refine ⟨⟨map_of_changePage ?_ (presentOr_eq_ok.mp changed), rfl, rfl⟩, rfl⟩
  exact fun _ => rfl

/-- An action leaves the reasons of the pages, the history and the revision as they are. -/
theorem leavesHistory_of_mutate {action : ReviewAction} {context : VerifiedReviewActionContext}
    {code : String} (mutated : session.mutate sha256Hex action context = .ok (code, next)) :
    LeavesHistory session next := by
  cases action with
  | acceptReplacement findingId applyCluster =>
      obtain ⟨indexes, _, mutated⟩ := bind_eq_ok.mp mutated
      obtain ⟨_, changed, same⟩ := bind_eq_ok.mp mutated
      cases same
      exact leavesHistory_of_changeFindings changed
  | changeEntityType findingId entityType =>
      obtain ⟨index, _, mutated⟩ := bind_eq_ok.mp mutated
      obtain ⟨_, changed, same⟩ := bind_eq_ok.mp mutated
      cases same
      exact leavesHistory_of_changeFindings changed
  | changePlaceholder findingId replacement applyCluster =>
      obtain ⟨_, mutated⟩ := refuseIf_bind_eq_ok.mp mutated
      obtain ⟨indexes, _, mutated⟩ := bind_eq_ok.mp mutated
      obtain ⟨_, changed, same⟩ := bind_eq_ok.mp mutated
      cases same
      exact leavesHistory_of_changeFindings changed
  | markNotSensitive findingId =>
      obtain ⟨index, _, mutated⟩ := bind_eq_ok.mp mutated
      obtain ⟨_, changed, same⟩ := bind_eq_ok.mp mutated
      cases same
      exact leavesHistory_of_changeFindings changed
  | addToDictionary findingId category required =>
      obtain ⟨_, added, same⟩ := bind_eq_ok.mp mutated
      cases same
      exact leavesHistory_of_addToDictionary added
  | mergeClusters clusterIds =>
      obtain ⟨_, merged, same⟩ := bind_eq_ok.mp mutated
      cases same
      exact leavesHistory_of_mergeClusters merged
  | splitCluster findingId =>
      obtain ⟨_, split, same⟩ := bind_eq_ok.mp mutated
      cases same
      obtain ⟨index, _, changed⟩ := bind_eq_ok.mp split
      exact leavesHistory_of_changeFindings changed
  | resolveVisualRisk pageIndex riskCode decision reason =>
      obtain ⟨_, resolved, same⟩ := bind_eq_ok.mp mutated
      cases same
      exact leavesHistory_of_resolveVisualRisk resolved
  | confirmEditedOutput =>
      cases mutated
      exact ⟨⟨rfl, rfl, rfl⟩, rfl⟩
  | batchAcceptP3 =>
      obtain ⟨findings, _, same⟩ := bind_eq_ok.mp mutated
      cases same
      exact ⟨⟨rfl, rfl, rfl⟩, rfl⟩
  | rejectPublication =>
      obtain ⟨_, same⟩ := refuseIf_bind_eq_ok.mp mutated
      cases same
      exact ⟨⟨rfl, rfl, rfl⟩, rfl⟩

/-- What an operation does to the history. -/
def HistoryWithin (session next : ReviewSession) : Prop :=
  ∀ checkpoint ∈ next.undoStack ++ next.redoStack,
    checkpoint = session.checkpoint ∨ checkpoint ∈ session.undoStack ++ session.redoStack

/-- A value of a stack after a push is the value, or was there before. -/
theorem mem_push {α : Type} {limit : Nat} {stack : List α} {value other : α}
    (among : other ∈ History.push limit stack value) : other = value ∨ other ∈ stack := by
  rw [History.push, List.mem_append, List.mem_singleton] at among
  obtain inStack | same := among
  · split_ifs at inStack
    · exact .inr (List.mem_of_mem_drop inStack)
    · exact .inr inStack
  · exact .inl same

/-- After an operation the reasons are current exactly when it keeps them, or, of the operations
which set the session back, when they were current there. The history has nothing new but the
session before. -/
theorem reasons_of_next {operation : ReviewSession.Operation}
    (stepped : session.next sha256Hex mode operation = .ok next) :
    (ReasonsCurrent next.assessment.pages next.residualScan.hits →
      session.KeepsReasons operation) ∧
    (ReasonsSettled session → session.KeepsReasons operation → ReasonsSettled next) := by
  have settled (started : HistoryWithin session next)
      (now : ReasonsSettled session → session.KeepsReasons operation →
        ReasonsCurrent next.assessment.pages next.residualScan.hits) :
      ReasonsSettled session → session.KeepsReasons operation → ReasonsSettled next := by
    refine fun before keeps => ⟨now before keeps, fun checkpoint among => ?_⟩
    obtain rfl | earlier := started checkpoint among
    · exact before.now
    · exact before.history checkpoint earlier
  cases operation with
  | applyAction expectedRevision action context =>
      obtain ⟨_, _, stepped⟩ := bind_eq_ok.mp stepped
      obtain ⟨_, stepped⟩ := refuseIf_bind_eq_ok.mp stepped
      obtain ⟨_, stepped⟩ := refuseIf_bind_eq_ok.mp stepped
      obtain ⟨_, _, stepped⟩ := bind_eq_ok.mp stepped
      obtain ⟨⟨code, changed⟩, mutated, stepped⟩ := bind_eq_ok.mp stepped
      obtain ⟨revision, _, stepped⟩ := bind_eq_ok.mp stepped
      obtain ⟨current, undoStack, redoStack⟩ := reasons_of_refreshRisk stepped
      have leaves := (leavesHistory_of_mutate (settled_eq_ok.mp mutated)).toLeavesReasons
      have kept := current.trans (reasonsKept_congr leaves.reasons)
      refine ⟨kept.mp, settled ?_ fun _ => kept.mpr⟩
      intro checkpoint among
      rw [undoStack, redoStack, leaves.undoStack, leaves.redoStack, ReviewSession.recorded,
        List.append_nil] at among
      exact (mem_push among).imp_right (List.mem_append_left _)
  | replaceAnalysis expectedRevision replacement =>
      obtain ⟨_, _, stepped⟩ := bind_eq_ok.mp stepped
      obtain ⟨_, stepped⟩ := refuseIf_bind_eq_ok.mp stepped
      obtain ⟨_, stepped⟩ := refuseIf_bind_eq_ok.mp stepped
      obtain ⟨_, _, stepped⟩ := bind_eq_ok.mp stepped
      obtain ⟨revision, _, stepped⟩ := bind_eq_ok.mp stepped
      obtain ⟨current, undoStack, redoStack⟩ := reasons_of_refreshRisk stepped
      refine ⟨current.mp, settled ?_ fun _ => current.mpr⟩
      intro checkpoint among
      rw [undoStack, redoStack, ReviewSession.recorded, List.append_nil] at among
      exact (mem_push among).imp_right (List.mem_append_left _)
  | undo expectedRevision occurredAtUnix =>
      obtain ⟨_, _, stepped⟩ := bind_eq_ok.mp stepped
      obtain ⟨_, stepped⟩ := refuseIf_bind_eq_ok.mp stepped
      obtain ⟨checkpoint, last, stepped⟩ := bind_eq_ok.mp stepped
      obtain ⟨revision, _, stepped⟩ := bind_eq_ok.mp stepped
      obtain ⟨current, undoStack, redoStack⟩ := reasons_of_refreshRisk stepped
      have earlier := List.mem_of_getLast? (presentOr_eq_ok.mp last)
      refine ⟨fun _ => trivial, settled ?_ fun before _ => current.mpr (before.history checkpoint
        (List.mem_append_left _ earlier)).kept⟩
      intro other among
      rw [undoStack, redoStack, List.mem_append] at among
      obtain inPast | inFuture := among
      · exact .inr (List.mem_append_left _ (List.mem_of_mem_dropLast inPast))
      · exact (mem_push inFuture).imp_right (List.mem_append_right _)
  | redo expectedRevision occurredAtUnix =>
      obtain ⟨_, _, stepped⟩ := bind_eq_ok.mp stepped
      obtain ⟨_, stepped⟩ := refuseIf_bind_eq_ok.mp stepped
      obtain ⟨checkpoint, last, stepped⟩ := bind_eq_ok.mp stepped
      obtain ⟨revision, _, stepped⟩ := bind_eq_ok.mp stepped
      obtain ⟨current, undoStack, redoStack⟩ := reasons_of_refreshRisk stepped
      have later := List.mem_of_getLast? (presentOr_eq_ok.mp last)
      refine ⟨fun _ => trivial, settled ?_ fun before _ => current.mpr (before.history checkpoint
        (List.mem_append_right _ later)).kept⟩
      intro other among
      rw [undoStack, redoStack, List.mem_append] at among
      obtain inPast | inFuture := among
      · exact (mem_push inPast).imp_right (List.mem_append_left _)
      · exact .inr (List.mem_append_right _ (List.mem_of_mem_dropLast inFuture))
  | bindPublicationContext expectedRevision publicationTargetHash requestedApprovalRoute
      riskPolicy qualification occurredAtUnix =>
      obtain ⟨_, _, stepped⟩ := bind_eq_ok.mp stepped
      obtain ⟨_, stepped⟩ := refuseIf_bind_eq_ok.mp stepped
      obtain ⟨_, stepped⟩ := refuseIf_bind_eq_ok.mp stepped
      obtain ⟨revision, _, stepped⟩ := bind_eq_ok.mp stepped
      obtain ⟨current, undoStack, redoStack⟩ := reasons_of_refreshRisk stepped
      refine ⟨fun _ => trivial, settled ?_ fun before _ => current.mpr before.now.kept⟩
      intro checkpoint among
      rw [undoStack, redoStack] at among
      exact .inr among

end Operations

/-! ## Runs -/

/-- A session under its operations, which leave it as it is when they fail. -/
def reviewMachine (sha256Hex : Octets → Sha256Hex) (mode : Overflow) :
    Machine ReviewSession ReviewSession.Operation where
  step session operation := some (session.call sha256Hex mode operation).1

/-- Every operation of a run which succeeds keeps the reasons. -/
def KeepsReasonsAlong (sha256Hex : Octets → Sha256Hex) (mode : Overflow) (session : ReviewSession)
    (operations : List ReviewSession.Operation) : Prop :=
  (reviewMachine sha256Hex mode).Along (fun session operation _ =>
    (session.call sha256Hex mode operation).2 = .ok () → session.KeepsReasons operation)
    session operations

section Runs

variable {sha256Hex : Octets → Sha256Hex} {mode : Overflow} {session final : ReviewSession}
  {operations : List ReviewSession.Operation}

/-- Operations which keep the reasons keep the session settled. -/
theorem ReasonsSettled.run (settled : ReasonsSettled session)
    (keeps : KeepsReasonsAlong sha256Hex mode session operations)
    (runs : (reviewMachine sha256Hex mode).run session operations = some final) :
    ReasonsSettled final := by
  induction operations generalizing session with
  | nil =>
      cases runs
      exact settled
  | cons operation rest inductionHypothesis =>
      obtain ⟨middle, step, runsRest⟩ := Machine.run_cons_eq_some _ |>.mp runs
      obtain ⟨keepsHere, keepsRest⟩ := keeps middle step
      refine inductionHypothesis ?_ keepsRest runsRest
      obtain rfl := Option.some.inj step
      rw [ReviewSession.call] at keepsHere ⊢
      cases stepped : session.next sha256Hex mode operation with
      | ok next =>
          rw [stepped] at keepsHere
          exact (reasons_of_next stepped).2 settled (keepsHere rfl)
      | error fault => exact settled

end Runs

/-! ## A run with a bracket which is closed -/

/-- The report over one page, in which no pattern matches. -/
def pageReport (page : String) : IndependentResidualScanReport :=
  reportOf (fun _ _ => []) { pages := [page.toList], dictionaryTerms := [], sourceNames := [] }
    sampleHash

/-- A document of one page without findings. -/
def onePageInput (page : String) : ReviewSessionInput :=
  { redactionId := "redaction-1".toList, caseId := ⟨"case_".toList ++ List.replicate 32 '2', by decide⟩
    materialId := ⟨"mat_".toList ++ List.replicate 32 '3', by decide⟩, documentVersion := 1
    detectorRunCompleted := true, redactedContentSha256 := sampleHash
    dictionaryRevisionHash := none, findings := []
    assessment := { crowdedDocument with pages := [pageOfFindings 0 0] }
    residualScan := pageReport page, riskPolicy := automaticPolicy
    qualification := currentQualification, createdAtUnix := 100 }

end LawyerAssistance.Privacy

import LawyerAssistance.Privacy.ReviewReasons

/-!
# The history of a review

What a reviewer decided is recorded, undone and redone as a bounded history does it. The counts of
the pages are not restored, but computed anew, and they are again what they were.
-/

namespace LawyerAssistance.Privacy

open ReviewSession (Operation)

/-- What a checkpoint keeps of a session, with the counts of its pages. -/
structure Reviewed where
  redactedContentSha256 : Sha256Hex
  dictionaryRevisionHash : Option Sha256Hex
  findings : List PrivacyFinding
  residualScan : IndependentResidualScanReport
  visualRiskResolutions : List VisualRiskResolution
  rejected : Bool
  pages : List (UInt32 × List Text × PageCounts)

/-- What is decided at a checkpoint. -/
def ReviewCheckpoint.reviewed (checkpoint : ReviewCheckpoint) : Reviewed where
  redactedContentSha256 := checkpoint.redactedContentSha256
  dictionaryRevisionHash := checkpoint.dictionaryRevisionHash
  findings := checkpoint.findings
  residualScan := checkpoint.residualScan
  visualRiskResolutions := checkpoint.visualRiskResolutions
  rejected := checkpoint.rejected
  pages := checkpoint.assessment.pages.map fun page =>
    (page.pageIndex, page.unresolvedVisualRisks, page.counts)

/-- The history of a session, from the abstract point of view. -/
def ReviewSession.history (session : ReviewSession) : History Reviewed where
  past := session.undoStack.map ReviewCheckpoint.reviewed
  present := session.checkpoint.reviewed
  future := session.redoStack.map ReviewCheckpoint.reviewed

/-- What an operation does to a history. -/
def ReviewSession.Operation.Moves (before after : History Reviewed) : Operation → Prop
  | .applyAction .. | .replaceAnalysis .. =>
      after = before.record maxReviewHistory after.present
  | .undo .. => before.undo maxReviewHistory = some after
  | .redo .. => before.redo maxReviewHistory = some after
  | .bindPublicationContext .. => after = before

/-! ## Counts -/

/-- The counts of the pages of a checkpoint are those of its findings and hits. -/
def ReviewCheckpoint.Counted (checkpoint : ReviewCheckpoint) : Prop :=
  ∀ page ∈ checkpoint.assessment.pages,
    (settledPage checkpoint.findings checkpoint.residualScan.hits page).counts = page.counts

/-- The pages are counted, now and at every checkpoint. -/
structure ReviewSession.Counted (session : ReviewSession) : Prop where
  now : session.checkpoint.Counted
  history : ∀ checkpoint ∈ session.undoStack ++ session.redoStack, checkpoint.Counted

section Steps

variable {sha256Hex : Octets → Sha256Hex} {mode : Overflow} {session next final : ReviewSession}
  {nowUnix : UInt64}

/-- What a refresh leaves as it is. -/
structure Refreshed (session next : ReviewSession) : Prop where
  undoStack : next.undoStack = session.undoStack
  redoStack : next.redoStack = session.redoStack
  revision : next.revision = session.revision
  counted : next.checkpoint.Counted
  reviewed : session.checkpoint.Counted → next.checkpoint.reviewed = session.checkpoint.reviewed

/-- A refresh counts the pages, and changes nothing when they were counted. -/
theorem refreshed_of_refreshRisk
    (refreshed : session.refreshRisk sha256Hex mode nowUnix = .ok next) :
    Refreshed session next := by
  obtain ⟨_, _, risk, gates, _, rfl⟩ := refreshRisk_eq_ok.mp refreshed
  refine ⟨rfl, rfl, rfl, fun page among => ?_, fun counted => ?_⟩
  · obtain ⟨before, _, rfl⟩ := List.mem_map.mp among
    exact counts_settledPage_again
  · have pages : (settledPages session).map (fun page =>
        (page.pageIndex, page.unresolvedVisualRisks, page.counts)) =
        session.assessment.pages.map fun page =>
          (page.pageIndex, page.unresolvedVisualRisks, page.counts) := by
      rw [settledPages, List.map_map]
      refine List.map_congr_left fun page among => ?_
      have counts : (settledPage session.findings session.residualScan.hits page).counts =
        page.counts := counted page among
      have risks : (settledPage session.findings session.residualScan.hits
          page).unresolvedVisualRisks = page.unresolvedVisualRisks := by
        rw [settledPage_eq _ _ (Eq.refl page.pageIndex)]
        rfl
      rw [Function.comp_apply, counts, risks, pageIndex_settledPage]
    rw [ReviewCheckpoint.reviewed, ReviewCheckpoint.reviewed]
    exact congrArg (Reviewed.mk _ _ _ _ _ _) pages

theorem toNat_of_nextRevision {revision : UInt64} (grown : session.nextRevision = .ok revision) :
    revision.toNat = session.revision.toNat + 1 := by
  obtain ⟨small, grown⟩ := refuseIf_bind_eq_ok.mp grown
  cases grown
  have below : session.revision.toNat ≠ 0xFFFFFFFFFFFFFFFF := fun same =>
    small (UInt64.toNat.inj same)
  have bound := session.revision.toNat_lt
  rw [UInt64.toNat_add]
  exact Nat.mod_eq_of_lt (by change _ + 1 < _; omega)

theorem map_push {stack : List ReviewCheckpoint} {checkpoint : ReviewCheckpoint} :
    (History.push maxReviewHistory stack checkpoint).map ReviewCheckpoint.reviewed =
      History.push maxReviewHistory (stack.map ReviewCheckpoint.reviewed) checkpoint.reviewed := by
  rw [History.push, History.push, List.map_append, List.length_map]
  split_ifs
  · rw [List.map_drop]
    rfl
  · rfl

theorem undo_history {checkpoint : ReviewCheckpoint}
    (last : session.undoStack.getLast? = some checkpoint) :
    session.history.undo maxReviewHistory = some
      { past := session.undoStack.dropLast.map ReviewCheckpoint.reviewed
        present := checkpoint.reviewed
        future := (History.push maxReviewHistory session.redoStack session.checkpoint).map
          ReviewCheckpoint.reviewed } := by
  rw [History.undo, ReviewSession.history, List.getLast?_map, last, map_push, List.map_dropLast]
  rfl

theorem redo_history {checkpoint : ReviewCheckpoint}
    (last : session.redoStack.getLast? = some checkpoint) :
    session.history.redo maxReviewHistory = some
      { past := (History.push maxReviewHistory session.undoStack session.checkpoint).map
          ReviewCheckpoint.reviewed
        present := checkpoint.reviewed
        future := session.redoStack.dropLast.map ReviewCheckpoint.reviewed } := by
  rw [History.redo, ReviewSession.history, List.getLast?_map, last, map_push, List.map_dropLast]
  rfl

/-- A session after a refresh, when the session before it has a revision more and no checkpoint
but those there were. -/
theorem history_of_refreshed {before : ReviewSession} {revision : UInt64}
    {past future : List ReviewCheckpoint} (counted : session.Counted)
    (refreshed : Refreshed before next) (grown : session.nextRevision = .ok revision)
    (shape : before.undoStack = past ∧ before.redoStack = future ∧ before.revision = revision)
    (within : ∀ checkpoint ∈ past ++ future, checkpoint = session.checkpoint ∨
      checkpoint ∈ session.undoStack ++ session.redoStack) :
    next.Counted ∧ next.revision.toNat = session.revision.toNat + 1 ∧
      next.history =
        { past := past.map ReviewCheckpoint.reviewed, present := next.checkpoint.reviewed
          future := future.map ReviewCheckpoint.reviewed } := by
  obtain ⟨rfl, rfl, rfl⟩ := shape
  refine ⟨⟨refreshed.counted, fun checkpoint among => ?_⟩, ?_, ?_⟩
  · rw [refreshed.undoStack, refreshed.redoStack] at among
    obtain rfl | earlier := within checkpoint among
    · exact counted.now
    · exact counted.history checkpoint earlier
  · rw [refreshed.revision, toNat_of_nextRevision grown]
  · rw [ReviewSession.history, refreshed.undoStack, refreshed.redoStack]

/-- An operation which succeeds moves in the history and counts the revision. -/
theorem moves_of_next {operation : Operation} (counted : session.Counted)
    (stepped : session.next sha256Hex mode operation = .ok next) :
    next.Counted ∧ next.revision.toNat = session.revision.toNat + 1 ∧
      operation.Moves session.history next.history := by
  have pushed {past future : List ReviewCheckpoint} (inPast : past ⊆ session.undoStack)
      (inFuture : future ⊆ session.redoStack) : ∀ checkpoint,
        (checkpoint ∈ History.push maxReviewHistory past session.checkpoint ++ future ∨
          checkpoint ∈ past ++ History.push maxReviewHistory future session.checkpoint) →
        checkpoint = session.checkpoint ∨
          checkpoint ∈ session.undoStack ++ session.redoStack := by
    rintro checkpoint (among | among) <;> obtain among | among := List.mem_append.mp among
    · exact (mem_push among).imp_right fun old => List.mem_append_left _ (inPast old)
    · exact .inr (List.mem_append_right _ (inFuture among))
    · exact .inr (List.mem_append_left _ (inPast among))
    · exact (mem_push among).imp_right fun old =>
        List.mem_append_right _ (inFuture old)
  cases operation with
  | applyAction expectedRevision action context =>
      obtain ⟨_, _, stepped⟩ := bind_eq_ok.mp stepped
      obtain ⟨_, stepped⟩ := refuseIf_bind_eq_ok.mp stepped
      obtain ⟨_, stepped⟩ := refuseIf_bind_eq_ok.mp stepped
      obtain ⟨_, _, stepped⟩ := bind_eq_ok.mp stepped
      obtain ⟨⟨code, changed⟩, mutated, stepped⟩ := bind_eq_ok.mp stepped
      obtain ⟨revision, grown, stepped⟩ := bind_eq_ok.mp stepped
      have leaves := leavesHistory_of_mutate (settled_eq_ok.mp mutated)
      have same : changed.nextRevision = session.nextRevision := by
        rw [ReviewSession.nextRevision, leaves.revision]
        rfl
      obtain ⟨counts, next, history⟩ := history_of_refreshed counted
        (refreshed_of_refreshRisk stepped) (same.symm.trans grown)
        ⟨leaves.undoStack, leaves.redoStack, rfl⟩ fun checkpoint among =>
          pushed (List.Subset.refl _) (List.nil_subset _) checkpoint (.inl among)
      exact ⟨counts, next, history.trans (by rw [ReviewSession.recorded, map_push]; rfl)⟩
  | replaceAnalysis expectedRevision replacement =>
      obtain ⟨_, _, stepped⟩ := bind_eq_ok.mp stepped
      obtain ⟨_, stepped⟩ := refuseIf_bind_eq_ok.mp stepped
      obtain ⟨_, stepped⟩ := refuseIf_bind_eq_ok.mp stepped
      obtain ⟨_, _, stepped⟩ := bind_eq_ok.mp stepped
      obtain ⟨revision, grown, stepped⟩ := bind_eq_ok.mp stepped
      obtain ⟨counts, next, history⟩ := history_of_refreshed counted
        (refreshed_of_refreshRisk stepped) grown ⟨rfl, rfl, rfl⟩ fun checkpoint among =>
          pushed (List.Subset.refl _) (List.nil_subset _) checkpoint (.inl among)
      exact ⟨counts, next, history.trans (by rw [ReviewSession.recorded, map_push]; rfl)⟩
  | undo expectedRevision occurredAtUnix =>
      obtain ⟨_, _, stepped⟩ := bind_eq_ok.mp stepped
      obtain ⟨_, stepped⟩ := refuseIf_bind_eq_ok.mp stepped
      obtain ⟨checkpoint, last, stepped⟩ := bind_eq_ok.mp stepped
      obtain ⟨revision, grown, stepped⟩ := bind_eq_ok.mp stepped
      have last := presentOr_eq_ok.mp last
      have refreshed := refreshed_of_refreshRisk stepped
      obtain ⟨counts, next, history⟩ := history_of_refreshed counted refreshed grown
        ⟨rfl, rfl, rfl⟩ fun other among => pushed (List.dropLast_subset _)
          (List.Subset.refl _) other (.inr among)
      have restored := refreshed.reviewed
        (counted.history checkpoint (List.mem_append_left _ (List.mem_of_getLast? last)))
      rw [restored] at history
      exact ⟨counts, next, (undo_history last).trans (congrArg some history.symm)⟩
  | redo expectedRevision occurredAtUnix =>
      obtain ⟨_, _, stepped⟩ := bind_eq_ok.mp stepped
      obtain ⟨_, stepped⟩ := refuseIf_bind_eq_ok.mp stepped
      obtain ⟨checkpoint, last, stepped⟩ := bind_eq_ok.mp stepped
      obtain ⟨revision, grown, stepped⟩ := bind_eq_ok.mp stepped
      have last := presentOr_eq_ok.mp last
      have refreshed := refreshed_of_refreshRisk stepped
      obtain ⟨counts, next, history⟩ := history_of_refreshed counted refreshed grown
        ⟨rfl, rfl, rfl⟩ fun other among => pushed (List.Subset.refl _)
          (List.dropLast_subset _) other (.inl among)
      have restored := refreshed.reviewed
        (counted.history checkpoint (List.mem_append_right _ (List.mem_of_getLast? last)))
      rw [restored] at history
      exact ⟨counts, next, (redo_history last).trans (congrArg some history.symm)⟩
  | bindPublicationContext expectedRevision publicationTargetHash requestedApprovalRoute
      riskPolicy qualification occurredAtUnix =>
      obtain ⟨_, _, stepped⟩ := bind_eq_ok.mp stepped
      obtain ⟨_, stepped⟩ := refuseIf_bind_eq_ok.mp stepped
      obtain ⟨_, stepped⟩ := refuseIf_bind_eq_ok.mp stepped
      obtain ⟨revision, grown, stepped⟩ := bind_eq_ok.mp stepped
      have refreshed := refreshed_of_refreshRisk stepped
      obtain ⟨counts, next, history⟩ := history_of_refreshed counted refreshed grown
        ⟨rfl, rfl, rfl⟩ fun _ among => .inr among
      have restored := refreshed.reviewed counted.now
      rw [restored] at history
      exact ⟨counts, next, history⟩

theorem counted_of_new {input : ReviewSessionInput}
    (started : ReviewSession.new sha256Hex mode input = .ok session) : session.Counted := by
  obtain ⟨_, started⟩ := refuseIf_bind_eq_ok.mp started
  obtain ⟨_, _, started⟩ := bind_eq_ok.mp started
  obtain ⟨⟨risk, gates⟩, _, started⟩ := bind_eq_ok.mp started
  have refreshed := refreshed_of_refreshRisk started
  refine ⟨refreshed.counted, fun checkpoint among => ?_⟩
  rw [refreshed.undoStack, refreshed.redoStack] at among
  cases among

/-- The sessions which are reached from a new one have counted pages. -/
theorem counted_of_reachable {input : ReviewSessionInput}
    (started : ReviewSession.new sha256Hex mode input = .ok session)
    (reachable : (reviewMachine sha256Hex mode).Reachable session final) : final.Counted := by
  refine reachable.invariant ReviewSession.Counted (counted_of_new started) ?_
  intro state operation after counted step
  obtain rfl := Option.some.inj step
  rw [ReviewSession.call]
  cases stepped : state.next sha256Hex mode operation with
  | ok next => exact (moves_of_next counted stepped).1
  | error fault => exact counted

end Steps

/-! ## Runs -/

/-- An operation which decides anew. -/
def ReviewSession.Operation.Decides : Operation → Prop
  | .applyAction .. | .replaceAnalysis .. => True
  | .undo .. | .redo .. | .bindPublicationContext .. => False

section Runs

variable {sha256Hex : Octets → Sha256Hex} {mode : Overflow} {session final : ReviewSession}

theorem recorded_of_run {operations : List Operation} (counted : session.Counted)
    (decides : ∀ operation ∈ operations, operation.Decides)
    (runs : operations.foldlM (ReviewSession.next sha256Hex mode) session = .ok final) :
    final.Counted ∧ ∃ values, values.length = operations.length ∧
      final.history = session.history.recordAll maxReviewHistory values := by
  induction operations generalizing session with
  | nil =>
      cases runs
      exact ⟨counted, [], rfl, rfl⟩
  | cons operation rest inductionHypothesis =>
      obtain ⟨middle, stepped, runs⟩ := bind_eq_ok.mp runs
      obtain ⟨decidesNow, decides⟩ := List.forall_mem_cons.mp decides
      obtain ⟨counts, _, moved⟩ := moves_of_next counted stepped
      obtain ⟨counts, values, length, recorded⟩ := inductionHypothesis counts decides runs
      refine ⟨counts, middle.history.present :: values, congrArg (· + 1) length, ?_⟩
      have now : middle.history =
          session.history.record maxReviewHistory middle.history.present := by
        cases operation with
        | applyAction | replaceAnalysis => exact moved
        | undo | redo | bindPublicationContext => cases decidesNow
      rw [recorded, History.recordAll, History.recordAll, List.foldl_cons, ← now]

theorem undone_of_run {calls : List (UInt64 × UInt64)} (counted : session.Counted)
    (runs : (calls.map fun call => Operation.undo call.1 call.2).foldlM
      (ReviewSession.next sha256Hex mode) session = .ok final) :
    final.Counted ∧
      session.history.undoTimes maxReviewHistory calls.length = some final.history := by
  induction calls generalizing session with
  | nil =>
      cases runs
      exact ⟨counted, rfl⟩
  | cons call rest inductionHypothesis =>
      obtain ⟨middle, stepped, runs⟩ := bind_eq_ok.mp runs
      obtain ⟨counts, _, moved⟩ := moves_of_next counted stepped
      obtain ⟨counts, undone⟩ := inductionHypothesis counts runs
      exact ⟨counts, Option.bind_eq_some_iff.mpr ⟨_, moved, undone⟩⟩

theorem redone_of_run {calls : List (UInt64 × UInt64)} (counted : session.Counted)
    (runs : (calls.map fun call => Operation.redo call.1 call.2).foldlM
      (ReviewSession.next sha256Hex mode) session = .ok final) :
    session.history.redoTimes maxReviewHistory calls.length = some final.history := by
  induction calls generalizing session with
  | nil =>
      cases runs
      rfl
  | cons call rest inductionHypothesis =>
      obtain ⟨middle, stepped, runs⟩ := bind_eq_ok.mp runs
      obtain ⟨counts, _, moved⟩ := moves_of_next counted stepped
      exact Option.bind_eq_some_iff.mpr ⟨_, moved, inductionHypothesis counts runs⟩

/-- Every operation which succeeds counts the revision by one and moves in the history of what was
decided as a bounded history does. Up to 128 decisions which are undone leave what was decided
before them, and what they decided when they are redone. -/
theorem review_sessions_keep_a_history {input : ReviewSessionInput} {first : ReviewSession}
    (started : ReviewSession.new sha256Hex mode input = .ok first)
    (reachable : (reviewMachine sha256Hex mode).Reachable first session) :
    (∀ operation next, session.next sha256Hex mode operation = .ok next →
      next.revision.toNat = session.revision.toNat + 1 ∧
        operation.Moves session.history next.history) ∧
    ∀ (decisions : List Operation) (undos redos : List (UInt64 × UInt64)) changed undone redone,
      (∀ operation ∈ decisions, operation.Decides) →
      decisions.length ≤ maxReviewHistory → undos.length = decisions.length →
      redos.length = decisions.length →
      decisions.foldlM (ReviewSession.next sha256Hex mode) session = .ok changed →
      (undos.map fun call => Operation.undo call.1 call.2).foldlM
        (ReviewSession.next sha256Hex mode) changed = .ok undone →
      (redos.map fun call => Operation.redo call.1 call.2).foldlM
        (ReviewSession.next sha256Hex mode) undone = .ok redone →
      undone.checkpoint.reviewed = session.checkpoint.reviewed ∧
        redone.checkpoint.reviewed = changed.checkpoint.reviewed := by
  have counted := counted_of_reachable started reachable
  refine ⟨fun operation next stepped => (moves_of_next counted stepped).2, ?_⟩
  intro decisions undos redos changed undone redone decides few undoLength redoLength changes
    undoes redoes
  obtain ⟨counted, values, length, recorded⟩ := recorded_of_run counted decides changes
  obtain ⟨counted, undid⟩ := undone_of_run counted undoes
  have redid := redone_of_run counted redoes
  rw [undoLength] at undid
  rw [redoLength] at redid
  constructor
  · obtain ⟨before, same, present⟩ :=
      History.undoTimes_recordAll session.history (length.symm ▸ few)
    rw [← recorded, length, undid] at same
    obtain rfl := Option.some.inj same
    exact present
  · obtain ⟨after, same, present⟩ := History.redoTimes_undoTimes undid few
    rw [redid] at same
    obtain rfl := Option.some.inj same
    exact present

end Runs

/-- The rejection of a page. -/
def rejectPage : Operation :=
  .applyAction 1 .rejectPublication
    { actorHash := sampleHash, occurredAtUnix := 200, verifiedRedactedContentSha256 := sampleHash
      provenanceHash := sampleHash, residualScan := pageReport "[A]"
      dictionaryRevisionHash := none }

/-- A page is rejected, the rejection is undone and redone. -/
theorem rejection_is_restored : ∃ session changed undone redone : ReviewSession,
    session.rejected = false ∧ changed.rejected = true ∧
    undone.checkpoint.reviewed = session.checkpoint.reviewed ∧
    redone.checkpoint.reviewed = changed.checkpoint.reviewed := by
  have runs : (do
      let session ← ReviewSession.new (fun _ => sampleHash) .wraps (onePageInput "[A]")
      let changed ← [rejectPage].foldlM (ReviewSession.next (fun _ => sampleHash) .wraps) session
      let undone ← [Operation.undo 2 300].foldlM
        (ReviewSession.next (fun _ => sampleHash) .wraps) changed
      let _ ← [Operation.redo 3 400].foldlM (ReviewSession.next (fun _ => sampleHash) .wraps) undone
      pure (!session.rejected && changed.rejected)).toOption.any id = true := by
    decide +kernel
  obtain ⟨result, runs, tested⟩ := any_toOption runs
  obtain ⟨session, started, runs⟩ := bind_eq_ok.mp runs
  obtain ⟨changed, rejects, runs⟩ := bind_eq_ok.mp runs
  obtain ⟨undone, undoes, runs⟩ := bind_eq_ok.mp runs
  obtain ⟨redone, redoes, runs⟩ := bind_eq_ok.mp runs
  cases runs
  obtain ⟨before, after⟩ := Bool.and_eq_true_iff.mp tested
  exact ⟨session, changed, undone, redone, (Bool.not_eq_true' _).mp before, after,
    (review_sessions_keep_a_history started (Machine.Reachable.refl session)).2 [rejectPage]
      [(2, 300)] [(3, 400)] changed undone redone (List.forall_mem_singleton.mpr trivial)
      (by decide) rfl rfl rejects undoes redoes⟩

end LawyerAssistance.Privacy

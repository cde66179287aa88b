import LawyerAssistance.Privacy.FindingOrder

/-!
# Evidence of findings

When a finding is resolved without a person: its group has full evidence, and nobody reports
another value at its place. The verdict is folded over the candidates of the group, so each
accumulator has a lemma which says what it holds behind the loop.
-/

namespace LawyerAssistance.Privacy

/-! ## Confidences of a group -/

/-- The greater of two confidences reaches a threshold when one of them does. -/
theorem any_maxConfidence {threshold : ConfidencePpm} (left right : Option ConfidencePpm) :
    (maxConfidence left right).any (fun value => decide (threshold.1 ≤ value.1)) =
      (left.any (fun value => decide (threshold.1 ≤ value.1)) ||
        right.any fun value => decide (threshold.1 ≤ value.1)) := by
  rcases left with _ | left
  · rfl
  rcases right with _ | right
  · exact (Bool.or_false _).symm
  rw [maxConfidence, Option.any_some, Option.any_some, Option.any_some, ← Bool.decide_or]
  refine decide_eq_decide.mpr ?_
  have greater := toNat_greater left right
  generalize (if left.1 ≤ right.1 then right else left) = combined at greater ⊢
  rw [UInt32.le_iff_toNat_le, UInt32.le_iff_toNat_le, UInt32.le_iff_toNat_le, greater]
  exact le_max_iff

/-- The lesser of two confidences is below a threshold when one of them is. -/
theorem any_minConfidence {threshold : ConfidencePpm} (left right : Option ConfidencePpm) :
    (minConfidence left right).any (fun value => decide (value.1 < threshold.1)) =
      (left.any (fun value => decide (value.1 < threshold.1)) ||
        right.any fun value => decide (value.1 < threshold.1)) := by
  rcases left with _ | left
  · rfl
  rcases right with _ | right
  · exact (Bool.or_false _).symm
  rw [minConfidence, Option.any_some, Option.any_some, Option.any_some, ← Bool.decide_or]
  refine decide_eq_decide.mpr ?_
  have lesser := toNat_lesser left right
  generalize (if right.1 < left.1 then right else left) = combined at lesser ⊢
  rw [UInt32.lt_iff_toNat_lt, UInt32.lt_iff_toNat_lt, UInt32.lt_iff_toNat_lt, lesser]
  exact min_lt_iff

/-- A test which a combination of two confidences passes when one of them does is passed by the
confidence of a group when one of its candidates passes it. -/
theorem any_foldl_confidence
    {combine : Option ConfidencePpm → Option ConfidencePpm → Option ConfidencePpm}
    {test : ConfidencePpm → Bool} {confidence : FindingCandidate → Option ConfidencePpm}
    (split : ∀ left right, (combine left right).any test = (left.any test || right.any test))
    (group : List FindingCandidate) (start : Option ConfidencePpm) :
    (group.foldl (fun score candidate => combine score (confidence candidate)) start).any test =
      (start.any test || group.any fun candidate => (confidence candidate).any test) := by
  induction group generalizing start with
  | nil => exact (Bool.or_false _).symm
  | cons first rest inductionHypothesis =>
      rw [List.foldl_cons, inductionHypothesis, split, List.any_cons, Bool.or_assoc]

/-! ## Full evidence -/

/-- What the group of a key needs to be resolved without a person. -/
structure FullEvidence (policy : FindingPolicy) (candidates : List FindingCandidate)
    (key : GroupKey) : Prop where
  passed : ∀ candidate ∈ groupOf candidates key, candidate.validationPassed = true
  replaced : ∀ candidate ∈ groupOf candidates key, candidate.replacementVerified = true
  replacement : ∀ first ∈ groupOf candidates key, ∀ second ∈ groupOf candidates key,
    ∀ replacement replacement', first.proposedReplacement = some replacement →
      second.proposedReplacement = some replacement' → replacement = replacement'
  reference : ∀ first ∈ groupOf candidates key, ∀ second ∈ groupOf candidates key,
    first.privateValueRef = second.privateValueRef
  detectorVersion : ∀ first ∈ groupOf candidates key, ∀ second ∈ groupOf candidates key,
    first.detectorSource = second.detectorSource → first.detectorVersion = second.detectorVersion
  modelVersion : ∀ first ∈ groupOf candidates key, ∀ second ∈ groupOf candidates key,
    ∀ name version version', (name, version) ∈ first.modelVersions.1 →
      (name, version') ∈ second.modelVersions.1 → version = version'
  undisputed : ∀ candidate ∈ candidates, key.sameLocation candidate.key = true →
    candidate.entityType = key.entityType ∧ candidate.valueFingerprint = key.valueFingerprint
  agreement : policy.minimumDetectorAgreement.toNat ≤
    ((groupOf candidates key).map FindingCandidate.detectorSource).toFinset.card
  confident : ∃ candidate ∈ groupOf candidates key, ∃ value,
    candidate.calibratedConfidencePpm = some value ∧ policy.highConfidencePpm.1 ≤ value.1
  legible : ∀ candidate ∈ groupOf candidates key, ∀ value,
    candidate.ocrConfidencePpm = some value → ¬ value.1 < policy.lowOcrConfidencePpm.1

section Evidence

variable {policy : FindingPolicy} {candidates group : List FindingCandidate} {key : GroupKey}
  {first : FindingCandidate} {conflict : Bool}

/-- A place of a candidate of a key has one value exactly when nobody reports another. -/
theorem locationConflict_eq_false (among : ∃ candidate ∈ candidates, candidate.key = key) :
    locationConflict candidates key = false ↔
      ∀ candidate ∈ candidates, key.sameLocation candidate.key = true →
        candidate.entityType = key.entityType ∧
          candidate.valueFingerprint = key.valueFingerprint := by
  obtain ⟨witness, amongCandidates, rfl⟩ := among
  have here : witness.key.sameLocation witness.key = true :=
    decide_eq_true ⟨rfl, rfl, rfl, rfl⟩
  rw [locationConflict, decide_eq_false_iff_not, not_not, ← List.card_toFinset, Finset.card_eq_one]
  constructor
  · rintro ⟨value, single⟩ candidate amongToo located
    have member : ∀ other ∈ candidates, witness.key.sameLocation other.key = true →
        (other.entityType, other.valueFingerprint) = value := by
      intro other amongThem located
      refine Finset.mem_singleton.mp (single ▸ List.mem_toFinset.mpr (List.mem_map.mpr
        ⟨other.key, List.mem_filter.mpr ⟨List.mem_map.mpr ⟨other, amongThem, rfl⟩, located⟩, rfl⟩))
    have same := (member candidate amongToo located).trans
      (member witness amongCandidates here).symm
    exact ⟨congrArg Prod.fst same, congrArg Prod.snd same⟩
  · intro undisputed
    refine ⟨(witness.entityType, witness.valueFingerprint), Finset.ext fun value => ?_⟩
    rw [List.mem_toFinset, Finset.mem_singleton, List.mem_map]
    constructor
    · rintro ⟨other, amongKeys, rfl⟩
      obtain ⟨amongKeys, located⟩ := List.mem_filter.mp amongKeys
      obtain ⟨candidate, amongThem, rfl⟩ := List.mem_map.mp amongKeys
      obtain ⟨sameType, sameValue⟩ := undisputed candidate amongThem located
      exact Prod.ext sameType sameValue
    · rintro rfl
      exact ⟨witness.key, List.mem_filter.mpr
        ⟨List.mem_map.mpr ⟨witness, amongCandidates, rfl⟩, here⟩, rfl⟩

/-- A list of texts has at most one text exactly when any two of them are the same. -/
theorem not_one_lt_dedup {values : List Text} :
    ¬ 1 < values.dedup.length ↔ ∀ value ∈ values, ∀ other ∈ values, value = other := by
  rw [not_lt, ← List.card_toFinset, Finset.card_le_one]
  simp only [List.mem_toFinset]

/-- The detectors and the models of a group do not contradict each other. -/
theorem gatherEvidence_conflict (among : first ∈ group) :
    (gatherEvidence first group conflict).conflict = false ↔
      conflict = false ∧
      (∀ candidate ∈ group, ∀ other ∈ group,
        candidate.detectorSource = other.detectorSource →
          candidate.detectorVersion = other.detectorVersion) ∧
      (∀ candidate ∈ group, ∀ other ∈ group, ∀ name version version',
        (name, version) ∈ candidate.modelVersions.1 → (name, version') ∈ other.modelVersions.1 →
          version = version') ∧
      (∀ candidate ∈ group, ∀ other ∈ group,
        candidate.privateValueRef = other.privateValueRef) ∧
      ∀ candidate ∈ group, ∀ other ∈ group, ∀ replacement replacement',
        candidate.proposedReplacement = some replacement →
          other.proposedReplacement = some replacement' → replacement = replacement' := by
  have single : SingleValued ([] : List (Text × Text)) := nofun
  simp only [gatherEvidence, Bool.or_eq_false_iff, and_assoc, decide_eq_false_iff_not,
    overwrites_eq_false single, List.nil_append, not_one_lt_dedup, List.any_eq_false,
    decide_eq_true_eq, not_not]
  refine and_congr_right fun _ => and_congr ?_ (and_congr ?_ (and_congr ?_ ?_))
  · constructor
    · intro agree candidate amongGroup other amongToo same
      exact agree _ (List.mem_map_of_mem amongGroup) _ (List.mem_map_of_mem amongToo) same
    · intro agree entry amongEntries entry' amongEntries' same
      obtain ⟨candidate, amongGroup, rfl⟩ := List.mem_map.mp amongEntries
      obtain ⟨other, amongToo, rfl⟩ := List.mem_map.mp amongEntries'
      exact agree candidate amongGroup other amongToo same
  · constructor
    · intro agree candidate amongGroup other amongToo name version version' here there
      exact agree (name, version) (List.mem_flatMap.mpr ⟨candidate, amongGroup, here⟩)
        (name, version') (List.mem_flatMap.mpr ⟨other, amongToo, there⟩) rfl
    · rintro agree ⟨name, version⟩ amongEntries ⟨name', version'⟩ amongEntries' same
      obtain rfl : name = name' := same
      obtain ⟨candidate, amongGroup, here⟩ := List.mem_flatMap.mp amongEntries
      obtain ⟨other, amongToo, there⟩ := List.mem_flatMap.mp amongEntries'
      exact agree candidate amongGroup other amongToo name version version' here there
  · constructor
    · intro agree candidate amongGroup other amongToo
      exact (agree candidate amongGroup).trans (agree other amongToo).symm
    · exact fun agree candidate amongGroup => agree candidate amongGroup first among
  · constructor
    · intro agree candidate amongGroup other amongToo replacement replacement' here there
      exact agree _ (List.mem_filterMap.mpr ⟨candidate, amongGroup, here⟩) _
        (List.mem_filterMap.mpr ⟨other, amongToo, there⟩)
    · intro agree replacement amongThem replacement' amongToo
      obtain ⟨candidate, amongGroup, here⟩ := List.mem_filterMap.mp amongThem
      obtain ⟨other, amongGroup', there⟩ := List.mem_filterMap.mp amongToo
      exact agree candidate amongGroup other amongGroup' replacement replacement' here there

/-- A group has a confidence which reaches the high threshold when one of its candidates has. -/
theorem gatherEvidence_confident :
    (gatherEvidence first group conflict).confident policy = true ↔
      ∃ candidate ∈ group, ∃ value, candidate.calibratedConfidencePpm = some value ∧
        policy.highConfidencePpm.1 ≤ value.1 := by
  rw [GroupEvidence.confident, gatherEvidence, any_foldl_confidence any_maxConfidence,
    Option.any_none, Bool.false_or, List.any_eq_true]
  refine exists_congr fun candidate => and_congr_right fun _ => ?_
  rw [Option.any_eq_true_iff_get]
  cases candidate.calibratedConfidencePpm <;> simp

/-- A group is legible when none of its candidates is recognized below the low threshold. -/
theorem gatherEvidence_legible :
    (gatherEvidence first group conflict).lowOcr policy = false ↔
      ∀ candidate ∈ group, ∀ value, candidate.ocrConfidencePpm = some value →
        ¬ value.1 < policy.lowOcrConfidencePpm.1 := by
  rw [GroupEvidence.lowOcr, gatherEvidence, any_foldl_confidence any_minConfidence,
    Option.any_none, Bool.false_or, List.any_eq_false]
  refine forall_congr' fun candidate => forall_congr' fun _ => ?_
  cases candidate.ocrConfidencePpm <;> simp

/-- The verdict on a group, behind the loop, is that it has full evidence. -/
theorem gatherEvidence_verified
    (among : first ∈ sortOn FindingCandidate.detector (groupOf candidates key)) :
    (gatherEvidence first (sortOn FindingCandidate.detector (groupOf candidates key))
        (locationConflict candidates key)).verified policy = true ↔
      FullEvidence policy candidates key := by
  have mem : ∀ candidate, candidate ∈ sortOn FindingCandidate.detector (groupOf candidates key) ↔
      candidate ∈ groupOf candidates key := fun _ => perm_sortOn.mem_iff
  have present : ∃ candidate ∈ candidates, candidate.key = key := by
    obtain ⟨amongCandidates, same⟩ := List.mem_filter.mp ((mem first).mp among)
    exact ⟨first, amongCandidates, of_decide_eq_true same⟩
  have agreement : (sortedSet ((sortOn FindingCandidate.detector (groupOf candidates key)).map
      FindingCandidate.detectorSource)).length =
      ((groupOf candidates key).map FindingCandidate.detectorSource).toFinset.card := by
    rw [sortedSet_perm (perm_sortOn.map _), ← List.toFinset_card_of_nodup nodup_sortedSet]
    refine congrArg Finset.card (Finset.ext fun source => ?_)
    rw [List.mem_toFinset, mem_sortedSet, List.mem_toFinset]
  have passed : (gatherEvidence first (sortOn FindingCandidate.detector (groupOf candidates key))
      (locationConflict candidates key)).validationPassed = true ↔
      ∀ candidate ∈ groupOf candidates key, candidate.validationPassed = true := by
    rw [gatherEvidence, List.all_eq_true]
    exact forall_congr' fun candidate => by rw [mem]
  have replaced : (gatherEvidence first (sortOn FindingCandidate.detector (groupOf candidates key))
      (locationConflict candidates key)).replacementVerified = true ↔
      ∀ candidate ∈ groupOf candidates key, candidate.replacementVerified = true := by
    rw [gatherEvidence, List.all_eq_true]
    exact forall_congr' fun candidate => by rw [mem]
  rw [GroupEvidence.verified, GroupEvidence.agreement, Bool.and_eq_true, Bool.and_eq_true,
    Bool.and_eq_true, Bool.and_eq_true, Bool.and_eq_true, Bool.not_eq_true', Bool.not_eq_true',
    passed, replaced, gatherEvidence_conflict among, locationConflict_eq_false present,
    gatherEvidence_confident, gatherEvidence_legible, decide_eq_true_eq, gatherEvidence, agreement]
  simp only [mem]
  constructor
  · rintro ⟨⟨⟨⟨passed, replaced⟩, ⟨undisputed, detectors, models, references, replacements⟩,
      enough⟩, confident⟩, legible⟩
    exact ⟨passed, replaced, replacements, references, detectors, models, undisputed, enough,
      confident, legible⟩
  · intro full
    exact ⟨⟨⟨⟨full.passed, full.replaced⟩, ⟨full.undisputed, full.detectorVersion,
      full.modelVersion, full.reference, full.replacement⟩, full.agreement⟩, full.confident⟩,
      full.legible⟩

end Evidence

/-! ## Severities -/

section Severities

variable {policy : FindingPolicy} {entityType : EntityType} {evidence : GroupEvidence}

/-- A verified group is without conflict and passed its validation, so no other branch is in front
of its own. -/
theorem severity_eq_resolved :
    (evidence.severity policy entityType).1 = .p3Resolved ↔ evidence.verified policy = true := by
  rw [GroupEvidence.severity]
  split_ifs with conflict failed verified risk
  · refine iff_of_false nofun fun verified => ?_
    rw [GroupEvidence.verified, GroupEvidence.agreement, conflict] at verified
    simp at verified
  · refine iff_of_false nofun fun verified => ?_
    rw [GroupEvidence.verified, (Bool.not_eq_true' _).mp failed] at verified
    simp at verified
  · exact iff_of_true rfl verified
  · exact iff_of_false nofun verified
  · exact iff_of_false nofun verified

theorem severity_cases :
    (evidence.severity policy entityType).1 ∈
      [FindingSeverity.p0Blocking, .p1High, .p2Medium, .p3Resolved] := by
  rw [GroupEvidence.severity]
  split_ifs <;> simp

end Severities

section Counts

variable {findings : List PrivacyFinding} {severity : FindingSeverity} {count : UInt32}

theorem countSeverity_eq_ok (counted : FindingEngine.countSeverity findings severity = .ok count) :
    count.toNat = (findings.filter fun finding => decide (finding.severity = severity)).length := by
  rw [FindingEngine.countSeverity, checkedCount] at counted
  obtain ⟨fits, counted⟩ := refuseIf_bind_eq_ok.mp counted
  cases counted
  rw [UInt32.toNat_ofNat']
  exact Nat.mod_eq_of_lt (Nat.lt_of_not_le fits)

/-- Findings each of which is of one of four severities are as many as those of each severity. -/
theorem length_eq_counts (known : ∀ finding ∈ findings,
      finding.severity ∈ [FindingSeverity.p0Blocking, .p1High, .p2Medium, .p3Resolved]) :
    (findings.filter fun finding => decide (finding.severity = .p0Blocking)).length +
      (findings.filter fun finding => decide (finding.severity = .p1High)).length +
      (findings.filter fun finding => decide (finding.severity = .p2Medium)).length +
      (findings.filter fun finding => decide (finding.severity = .p3Resolved)).length =
      findings.length := by
  induction findings with
  | nil => rfl
  | cons first rest inductionHypothesis =>
      have behind := inductionHypothesis fun finding among =>
        known finding (List.mem_cons_of_mem _ among)
      have here := known first List.mem_cons_self
      simp only [List.mem_cons, List.not_mem_nil, or_false] at here
      rcases here with here | here | here | here <;>
        simp only [List.filter_cons, here, decide_true, reduceCtorEq, decide_false, if_true,
          Bool.false_eq_true, if_false, List.length_cons] <;> omega

end Counts

/-! ## Batches -/

section Batches

variable {sha256Hex : Octets → Sha256Hex} {caseId : CaseId} {materialId : MaterialId}
  {documentVersion : UInt64} {policy : FindingPolicy} {candidates : List FindingCandidate}
  {key : GroupKey} {finding : PrivacyFinding} {batch : FindingBatch}

/-- The verdict on the group of a key. -/
theorem mergeGroup_verdict
    (merged : mergeGroup sha256Hex caseId materialId documentVersion key (groupOf candidates key)
      (locationConflict candidates key) policy = .ok finding) :
    stableFindingId sha256Hex caseId materialId documentVersion key = .ok finding.findingId ∧
      finding.severity ∈ [FindingSeverity.p0Blocking, .p1High, .p2Medium, .p3Resolved] ∧
      (finding.severity = .p3Resolved ↔ FullEvidence policy candidates key) ∧
      (finding.resolutionState = .accepted ↔ FullEvidence policy candidates key) := by
  obtain ⟨first, found, merged⟩ := bind_eq_ok.mp merged
  have among := List.mem_of_mem_head? (presentOr_eq_ok.mp found)
  have verdict : _ ↔ FullEvidence policy candidates key := gatherEvidence_verified among
  obtain ⟨_, _, merged⟩ := bind_eq_ok.mp merged
  obtain ⟨findingId, identified, merged⟩ := bind_eq_ok.mp merged
  obtain ⟨_, _, merged⟩ := bind_eq_ok.mp merged
  obtain ⟨_, _, merged⟩ := bind_eq_ok.mp merged
  cases merged
  refine ⟨identified, severity_cases, severity_eq_resolved.trans verdict, ?_⟩
  refine Iff.trans ?_ verdict
  dsimp only
  split_ifs with verified
  · exact iff_of_true rfl verified
  · exact iff_of_false nofun verified

/-- The counts of a batch are those of its findings. -/
theorem buildFindings_counts
    (built : buildFindings sha256Hex caseId materialId documentVersion candidates policy =
      .ok batch) :
    FindingEngine.countSeverity batch.findings .p0Blocking = .ok batch.p0Count ∧
      FindingEngine.countSeverity batch.findings .p1High = .ok batch.p1Count ∧
      FindingEngine.countSeverity batch.findings .p2Medium = .ok batch.p2Count ∧
      FindingEngine.countSeverity batch.findings .p3Resolved = .ok batch.p3Count := by
  obtain ⟨_, _, built⟩ := bind_eq_ok.mp built
  obtain ⟨_, built⟩ := refuseIf_bind_eq_ok.mp built
  obtain ⟨_, built⟩ := refuseIf_bind_eq_ok.mp built
  obtain ⟨_, _, built⟩ := bind_eq_ok.mp built
  obtain ⟨_, _, built⟩ := bind_eq_ok.mp built
  obtain ⟨_, _, built⟩ := bind_eq_ok.mp built
  obtain ⟨_, blocking, built⟩ := bind_eq_ok.mp built
  obtain ⟨_, high, built⟩ := bind_eq_ok.mp built
  obtain ⟨_, medium, built⟩ := bind_eq_ok.mp built
  obtain ⟨_, resolved, built⟩ := bind_eq_ok.mp built
  obtain ⟨_, _, built⟩ := bind_eq_ok.mp built
  cases built
  exact ⟨blocking, high, medium, resolved⟩

/-- A finding is that of the group of a key, and it is resolved, and accepted, exactly when its
group has full evidence. -/
structure ResolvedOnEvidence (sha256Hex : Octets → Sha256Hex) (caseId : CaseId)
    (materialId : MaterialId) (documentVersion : UInt64) (policy : FindingPolicy)
    (candidates : List FindingCandidate) (key : GroupKey) (finding : PrivacyFinding) : Prop where
  identified :
    stableFindingId sha256Hex caseId materialId documentVersion key = .ok finding.findingId
  page : finding.pageIndex = key.pageIndex
  block : finding.blockId = key.blockId
  start : finding.startOffset = key.startOffset
  ends : finding.endOffset = key.endOffset
  entity : finding.entityType = key.entityType
  resolved : finding.severity = .p3Resolved ↔ FullEvidence policy candidates key
  accepted : finding.resolutionState = .accepted ↔ FullEvidence policy candidates key

/-- The findings of a batch are those of the groups of its candidates, one for each: a finding is
resolved exactly when its group has full evidence. The counts of the batch add up to its findings. -/
theorem findings_are_resolved_on_full_evidence (sha256Hex : Octets → Sha256Hex)
    (built : buildFindings sha256Hex caseId materialId documentVersion candidates policy =
      .ok batch) :
    (∃ keys : List GroupKey, keys.Nodup ∧
      (∀ key, key ∈ keys ↔ ∃ candidate ∈ candidates, candidate.key = key) ∧
      List.Forall₂ (ResolvedOnEvidence sha256Hex caseId materialId documentVersion policy
        candidates) keys batch.findings) ∧
    batch.p0Count.toNat + batch.p1Count.toNat + batch.p2Count.toNat + batch.p3Count.toNat =
      batch.findings.length := by
  have pairs := mapM_eq_ok (buildFindings_eq_ok built)
  refine ⟨⟨_, nodup_sortedSet, fun key => mem_sortedSet.trans List.mem_map, ?_⟩, ?_⟩
  · refine pairs.imp fun key finding merged => ?_
    obtain ⟨identified, _, resolved, accepted⟩ := mergeGroup_verdict merged
    obtain ⟨page, block, start, ends, entity⟩ := mergeGroup_place merged
    exact ⟨identified, page, block, start, ends, entity, resolved, accepted⟩
  · obtain ⟨blocking, high, medium, resolved⟩ := buildFindings_counts built
    rw [countSeverity_eq_ok blocking, countSeverity_eq_ok high, countSeverity_eq_ok medium,
      countSeverity_eq_ok resolved]
    refine length_eq_counts fun finding among => ?_
    obtain ⟨key, _, merged⟩ := exists_of_forall₂_right pairs among
    exact (mergeGroup_verdict merged).2.1

end Batches

/-- A detector reports a value on full evidence: its finding is resolved. -/
theorem findings_are_resolved_on_full_evidence_sample : ∃ batch,
    buildFindings (fun _ => reportHash) reportCase reportMaterial 1 [reportedCandidate]
      reportPolicy = .ok batch ∧ batch.p3Count = 1 ∧
    (∃ keys : List GroupKey, keys.Nodup ∧
      (∀ key, key ∈ keys ↔ ∃ candidate ∈ [reportedCandidate], candidate.key = key) ∧
      List.Forall₂ (ResolvedOnEvidence (fun _ => reportHash) reportCase reportMaterial 1
        reportPolicy [reportedCandidate]) keys batch.findings) ∧
    batch.p0Count.toNat + batch.p1Count.toNat + batch.p2Count.toNat + batch.p3Count.toNat =
      batch.findings.length := by
  have accepted : (buildFindings (fun _ => reportHash) reportCase reportMaterial 1
      [reportedCandidate] reportPolicy).toOption.any (fun batch => batch.p3Count == 1) = true := by
    decide +kernel
  obtain ⟨batch, built, resolved⟩ := any_toOption accepted
  exact ⟨batch, built, eq_of_beq resolved,
    findings_are_resolved_on_full_evidence (fun _ => reportHash) built⟩

end LawyerAssistance.Privacy

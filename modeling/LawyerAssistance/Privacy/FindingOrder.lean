import LawyerAssistance.Privacy.FindingEngine

/-!
# The order of candidates

What the findings of a batch owe to the order in which the detectors report: the geometry, the
reference, the evidence hashes and the model versions of a group are taken from one of the
candidates which tie in the order of the detectors. A batch does not depend on the order exactly
when those candidates agree.
-/

namespace LawyerAssistance.Privacy

/-! ## Confidences -/

theorem confidence_ext {first second : ConfidencePpm} (same : first.1.toNat = second.1.toNat) :
    first = second :=
  Subtype.ext (UInt32.toNat_inj.mp same)

theorem toNat_greater (left right : ConfidencePpm) :
    (if left.1 ≤ right.1 then right else left).1.toNat = max left.1.toNat right.1.toNat := by
  split_ifs with less
  · exact (max_eq_right (UInt32.le_iff_toNat_le.mp less)).symm
  · exact (max_eq_left (Nat.le_of_not_le fun le => less (UInt32.le_iff_toNat_le.mpr le))).symm

theorem toNat_lesser (left right : ConfidencePpm) :
    (if right.1 < left.1 then right else left).1.toNat = min left.1.toNat right.1.toNat := by
  split_ifs with less
  · exact (min_eq_right (Nat.le_of_lt (UInt32.lt_iff_toNat_lt.mp less))).symm
  · exact (min_eq_left (Nat.le_of_not_lt fun lt => less (UInt32.lt_iff_toNat_lt.mpr lt))).symm

theorem maxConfidence_right_comm (score first second : Option ConfidencePpm) :
    maxConfidence (maxConfidence score first) second =
      maxConfidence (maxConfidence score second) first := by
  rcases score with _ | score <;> rcases first with _ | first <;> rcases second with _ | second <;>
    try rfl
  · refine congrArg some (confidence_ext ?_)
    rw [toNat_greater, toNat_greater, max_comm]
  · refine congrArg some (confidence_ext ?_)
    rw [toNat_greater, toNat_greater, toNat_greater, toNat_greater, max_right_comm]

theorem minConfidence_right_comm (score first second : Option ConfidencePpm) :
    minConfidence (minConfidence score first) second =
      minConfidence (minConfidence score second) first := by
  rcases score with _ | score <;> rcases first with _ | first <;> rcases second with _ | second <;>
    try rfl
  · refine congrArg some (confidence_ext ?_)
    rw [toNat_lesser, toNat_lesser, min_comm]
  · refine congrArg some (confidence_ext ?_)
    rw [toNat_lesser, toNat_lesser, toNat_lesser, toNat_lesser, min_right_comm]

/-! ## Groups -/

/-- What a finding has of the first candidate of its group. -/
def FindingCandidate.origin (candidate : FindingCandidate) :
    Option (Option FindingGeometry × PrivateValueRef) :=
  some (candidate.geometry, candidate.privateValueRef)

/-- The candidates of a group which tie agree on what its finding has of one of them. -/
structure TiesAgree (group : List FindingCandidate) : Prop where
  origin : LeastAgree (fun first second => first.detector ≤ second.detector)
    FindingCandidate.origin group
  normalization : LeastAgree (fun first second => first.detector ≤ second.detector)
    FindingCandidate.normalizationEvidenceHash group
  confusable : LeastAgree (fun first second => first.detector ≤ second.detector)
    FindingCandidate.confusableEvidenceHash group
  models : ∀ name, LeastAgree (fun first second => second.detector ≤ first.detector)
    (fun candidate => lastValue candidate.modelVersions.1 name) group

section Groups

variable {group others : List FindingCandidate} {first second : FindingCandidate}

/-- The versions of detectors do not depend on the order. -/
theorem detectorVersions_perm (perm : others.Perm group) :
    SortedMap.ofList (detectorEntries (sortOn FindingCandidate.detector others)) =
      SortedMap.ofList (detectorEntries (sortOn FindingCandidate.detector group)) := by
  refine ofList_eq_iff.mpr fun source => ?_
  rw [lastValue, lastValue, detectorEntries, detectorEntries, lastSome_map, lastSome_map]
  refine lastSome_sortOn_perm ?_ perm
  intro first second least least'
  have same : first.detector = second.detector :=
    le_antisymm (least'.least first least.mem least.picks) (least.least second least'.mem least'.picks)
  exact congrArg (valueAt source) (toLex.injective same)

/-- The versions of models do not depend on the order when the candidates which tie agree. -/
theorem modelVersions_perm (agree : TiesAgree group) (perm : others.Perm group) :
    SortedMap.ofList (modelEntries (sortOn FindingCandidate.detector others)) =
      SortedMap.ofList (modelEntries (sortOn FindingCandidate.detector group)) := by
  refine ofList_eq_iff.mpr fun name => ?_
  rw [lastValue, lastValue, modelEntries, modelEntries, lastSome_flatMap, lastSome_flatMap]
  exact lastSome_sortOn_perm (agree.models name) perm

/-- The evidence of two groups which differ in their order. -/
theorem gatherEvidence_perm {conflict : Bool} (perm : others.Perm group)
    (geometry : first.geometry = second.geometry)
    (reference : first.privateValueRef = second.privateValueRef)
    (detectors : SortedMap.ofList (detectorEntries others) =
      SortedMap.ofList (detectorEntries group))
    (models : SortedMap.ofList (modelEntries others) = SortedMap.ofList (modelEntries group))
    (normalization : others.findSome? FindingCandidate.normalizationEvidenceHash =
      group.findSome? FindingCandidate.normalizationEvidenceHash)
    (confusable : others.findSome? FindingCandidate.confusableEvidenceHash =
      group.findSome? FindingCandidate.confusableEvidenceHash) :
    gatherEvidence first others conflict = gatherEvidence second group conflict := by
  have replacements := perm.filterMap FindingCandidate.proposedReplacement
  have overwritesDetectors : overwrites [] (detectorEntries others) =
      overwrites [] (detectorEntries group) := overwrites_eq fun _ => (perm.map _).mem_iff
  have overwritesModels : overwrites [] (modelEntries others) =
      overwrites [] (modelEntries group) := overwrites_eq fun _ => (perm.flatMap_right _).mem_iff
  have scores {combine : Option ConfidencePpm → Option ConfidencePpm → Option ConfidencePpm}
      (comm : ∀ score left right, combine (combine score left) right =
        combine (combine score right) left) (score : FindingCandidate → Option ConfidencePpm) :
      others.foldl (fun total candidate => combine total (score candidate)) none =
        group.foldl (fun total candidate => combine total (score candidate)) none :=
    perm.foldl_eq' (fun _ _ _ _ total => comm total _ _) none
  rw [gatherEvidence, gatherEvidence, geometry, reference, sortedSet_perm (perm.map _), detectors,
    models, sortedSet_perm replacements, overwritesDetectors, overwritesModels, perm.any_eq,
    replacements.dedup.length_eq, perm.any_eq, scores maxConfidence_right_comm,
    scores maxConfidence_right_comm, scores minConfidence_right_comm,
    scores minConfidence_right_comm, normalization, confusable, perm.all_eq, perm.all_eq]

end Groups

/-! ## Merges -/

section Merges

variable {sha256Hex : Octets → Sha256Hex} {caseId : CaseId} {materialId : MaterialId}
  {documentVersion : UInt64} {key : GroupKey} {policy : FindingPolicy} {conflict : Bool}
  {group others : List FindingCandidate} {finding : PrivacyFinding}

/-- The finding of a group does not depend on the order when the candidates which tie agree. -/
theorem mergeGroup_perm (agree : TiesAgree group) (perm : others.Perm group) :
    mergeGroup sha256Hex caseId materialId documentVersion key others conflict policy =
      mergeGroup sha256Hex caseId materialId documentVersion key group conflict policy := by
  have sorted : (sortOn FindingCandidate.detector others).Perm
      (sortOn FindingCandidate.detector group) :=
    (perm_sortOn.trans perm).trans perm_sortOn.symm
  have origin := findSome?_sortOn_perm agree.origin perm
  have normalization := findSome?_sortOn_perm agree.normalization perm
  have confusable := findSome?_sortOn_perm agree.confusable perm
  have detectors := detectorVersions_perm perm
  have models := modelVersions_perm agree perm
  rw [mergeGroup, mergeGroup]
  revert sorted origin normalization confusable detectors models
  generalize sortOn FindingCandidate.detector others = left
  generalize sortOn FindingCandidate.detector group = right
  intro sorted origin normalization confusable detectors models
  cases left with
  | nil =>
      rw [List.nil_perm.mp sorted]
  | cons first rest =>
      cases right with
      | nil => exact absurd sorted.symm (List.not_perm_nil_cons _ _)
      | cons second rest' =>
          have parts : (first.geometry, first.privateValueRef) =
              (second.geometry, second.privateValueRef) := Option.some.inj origin
          rw [List.head?_cons, List.head?_cons, presentOr, presentOr, ok_bind, ok_bind,
            gatherEvidence_perm sorted (congrArg Prod.fst parts) (congrArg Prod.snd parts)
              detectors models normalization confusable]

/-- What a finding has of its evidence. -/
theorem mergeEvidence_eq_ok {evidence : GroupEvidence}
    (merged : mergeEvidence sha256Hex caseId materialId documentVersion key policy evidence =
      .ok finding) :
    finding.geometry = evidence.geometry ∧ finding.privateValueRef = evidence.privateValueRef ∧
      finding.modelVersions = evidence.modelVersions ∧
      finding.normalizationEvidenceHash = evidence.normalizationHash ∧
      finding.confusableEvidenceHash = evidence.confusableHash := by
  obtain ⟨_, _, merged⟩ := bind_eq_ok.mp merged
  obtain ⟨_, _, merged⟩ := bind_eq_ok.mp merged
  obtain ⟨_, _, merged⟩ := bind_eq_ok.mp merged
  obtain ⟨_, _, merged⟩ := bind_eq_ok.mp merged
  cases merged
  exact ⟨rfl, rfl, rfl, rfl, rfl⟩

/-- What a finding has of its group. -/
theorem mergeGroup_eq_ok
    (merged : mergeGroup sha256Hex caseId materialId documentVersion key group conflict policy =
      .ok finding) :
    (sortOn FindingCandidate.detector group).findSome? FindingCandidate.origin =
        some (finding.geometry, finding.privateValueRef) ∧
      finding.modelVersions =
        SortedMap.ofList (modelEntries (sortOn FindingCandidate.detector group)) ∧
      finding.normalizationEvidenceHash = (sortOn FindingCandidate.detector group).findSome?
        FindingCandidate.normalizationEvidenceHash ∧
      finding.confusableEvidenceHash = (sortOn FindingCandidate.detector group).findSome?
        FindingCandidate.confusableEvidenceHash := by
  obtain ⟨first, found, merged⟩ := bind_eq_ok.mp merged
  have head := presentOr_eq_ok.mp found
  obtain ⟨geometry, reference, models, normalization, confusable⟩ := mergeEvidence_eq_ok merged
  refine ⟨?_, models, normalization, confusable⟩
  obtain ⟨rest, sorted⟩ := List.head?_eq_some_iff.mp head
  rw [sorted, geometry, reference, List.findSome?_cons]
  rfl

/-- Where the finding of a group is. -/
theorem mergeGroup_place
    (merged : mergeGroup sha256Hex caseId materialId documentVersion key group conflict policy =
      .ok finding) :
    finding.pageIndex = key.pageIndex ∧ finding.blockId = key.blockId ∧
      finding.startOffset = key.startOffset ∧ finding.endOffset = key.endOffset ∧
      finding.entityType = key.entityType := by
  obtain ⟨_, _, merged⟩ := bind_eq_ok.mp merged
  obtain ⟨_, _, merged⟩ := bind_eq_ok.mp merged
  obtain ⟨_, _, merged⟩ := bind_eq_ok.mp merged
  obtain ⟨_, _, merged⟩ := bind_eq_ok.mp merged
  obtain ⟨_, _, merged⟩ := bind_eq_ok.mp merged
  cases merged
  exact ⟨rfl, rfl, rfl, rfl, rfl⟩

end Merges

/-! ## Batches -/

/-- A pair in order, with what is behind its first part in order. -/
theorem toLex_le_of_le {α β γ : Type} [LinearOrder α] [LinearOrder β] [LinearOrder γ] {first second : α}
    {rest rest' : β} {image image' : γ} (less : toLex (first, rest) ≤ toLex (second, rest'))
    (mono : rest ≤ rest' → image ≤ image') : toLex (first, image) ≤ toLex (second, image') := by
  rw [Prod.Lex.toLex_le_toLex] at less ⊢
  exact less.imp_right fun both => ⟨both.1, mono both.2⟩

section Batches

variable {sha256Hex : Octets → Sha256Hex} {caseId : CaseId} {materialId : MaterialId}
  {documentVersion : UInt64} {policy : FindingPolicy} {candidates others : List FindingCandidate}
  {findings : List PrivacyFinding} {batch : FindingBatch}

/-- Findings of groups in order are in order. -/
theorem place_le_of_le {first second : GroupKey} {finding finding' : PrivacyFinding}
    (less : first ≤ second)
    (here : finding.pageIndex = first.pageIndex ∧ finding.blockId = first.blockId ∧
      finding.startOffset = first.startOffset ∧ finding.endOffset = first.endOffset ∧
      finding.entityType = first.entityType)
    (there : finding'.pageIndex = second.pageIndex ∧ finding'.blockId = second.blockId ∧
      finding'.startOffset = second.startOffset ∧ finding'.endOffset = second.endOffset ∧
      finding'.entityType = second.entityType) : finding.place ≤ finding'.place := by
  obtain ⟨page, block, start, ends, entity⟩ := here
  obtain ⟨page', block', start', ends', entity'⟩ := there
  have ranked : first.rank ≤ second.rank := less
  rw [PrivacyFinding.place, PrivacyFinding.place, page, block, start, ends, entity, page', block',
    start', ends', entity']
  rw [GroupKey.rank, GroupKey.rank] at ranked
  refine toLex_le_of_le ranked fun ranked => toLex_le_of_le ranked fun ranked =>
    toLex_le_of_le ranked fun ranked => toLex_le_of_le ranked fun ranked => ?_
  rw [Prod.Lex.toLex_le_toLex] at ranked
  obtain less | ⟨same, _⟩ := ranked
  · exact le_of_lt less
  · exact le_of_eq same

/-- The findings of groups are in order: the sort behind them changes nothing. -/
theorem sortOn_mergeGroups
    (merged : mergeGroups sha256Hex caseId materialId documentVersion candidates policy =
      .ok findings) : sortOn PrivacyFinding.place findings = findings := by
  have pairs := mapM_eq_ok merged
  have sorted : (sortedSet (candidates.map FindingCandidate.key)).Pairwise (· < ·) :=
    pairwise_sortedSet
  refine List.Pairwise.insertionSort_eq ?_
  clear merged
  revert pairs sorted
  generalize sortedSet (candidates.map FindingCandidate.key) = keys
  intro pairs sorted
  induction pairs with
  | nil => exact List.Pairwise.nil
  | @cons first finding rest findings here others inductionHypothesis =>
      obtain ⟨firstLess, sorted⟩ := List.pairwise_cons.mp sorted
      refine List.pairwise_cons.mpr ⟨fun finding' among => ?_, inductionHypothesis sorted⟩
      obtain ⟨second, amongKeys, there⟩ := exists_of_forall₂_right others among
      exact place_le_of_le (le_of_lt (firstLess second amongKeys)) (mergeGroup_place here)
        (mergeGroup_place there)

/-- What a batch is built of. -/
theorem buildFindings_eq_ok
    (built : buildFindings sha256Hex caseId materialId documentVersion candidates policy =
      .ok batch) :
    mergeGroups sha256Hex caseId materialId documentVersion candidates policy =
      .ok batch.findings := by
  obtain ⟨_, _, built⟩ := bind_eq_ok.mp built
  obtain ⟨_, built⟩ := refuseIf_bind_eq_ok.mp built
  obtain ⟨_, built⟩ := refuseIf_bind_eq_ok.mp built
  obtain ⟨_, _, built⟩ := bind_eq_ok.mp built
  obtain ⟨findings, merged, built⟩ := bind_eq_ok.mp built
  rw [sortOn_mergeGroups merged] at built
  obtain ⟨_, _, built⟩ := bind_eq_ok.mp built
  obtain ⟨_, _, built⟩ := bind_eq_ok.mp built
  obtain ⟨_, _, built⟩ := bind_eq_ok.mp built
  obtain ⟨_, _, built⟩ := bind_eq_ok.mp built
  obtain ⟨_, _, built⟩ := bind_eq_ok.mp built
  obtain ⟨_, _, built⟩ := bind_eq_ok.mp built
  cases built
  exact merged

/-- The candidates of a group. -/
def groupOf (candidates : List FindingCandidate) (key : GroupKey) : List FindingCandidate :=
  candidates.filter fun candidate => decide (candidate.key = key)

/-- Candidates which agree, in every group, on what its finding has of one of them. -/
def OrderFree (candidates : List FindingCandidate) : Prop :=
  ∀ key, TiesAgree (groupOf candidates key)

/-- A batch does not depend on the order of candidates which agree. -/
theorem buildFindings_perm (agree : OrderFree candidates) (perm : others.Perm candidates) :
    buildFindings sha256Hex caseId materialId documentVersion others policy =
      buildFindings sha256Hex caseId materialId documentVersion candidates policy := by
  have checks : others.forM FindingCandidate.validate = candidates.forM FindingCandidate.validate := by
    have fails : ∀ candidate : FindingCandidate, candidate.validate = .ok ⟨⟩ ∨
        candidate.validate = .error .invalidCandidate := by
      intro candidate
      rw [FindingCandidate.validate, refuseIf]
      split_ifs
      · exact .inr rfl
      · exact .inl rfl
    exact forM_perm fails perm
  have keys := perm.map FindingCandidate.key
  have merges : mergeGroups sha256Hex caseId materialId documentVersion others policy =
      mergeGroups sha256Hex caseId materialId documentVersion candidates policy := by
    rw [mergeGroups, mergeGroups, sortedSet_perm keys]
    congr 1
    funext key
    have conflicts : locationConflict others key = locationConflict candidates key := by
      rw [locationConflict, locationConflict, ((keys.filter _).map _).dedup.length_eq]
    rw [conflicts]
    exact mergeGroup_perm (agree key) (perm.filter _)
  rw [buildFindings, buildFindings, checks, merges, perm.length_eq]

/-- The findings of two orders of candidates with one batch are merged of the same groups. -/
theorem mergeGroup_of_same_batch {key : GroupKey} {candidate : FindingCandidate}
    (built : buildFindings sha256Hex caseId materialId documentVersion candidates policy = .ok batch)
    (builtToo : buildFindings sha256Hex caseId materialId documentVersion others policy = .ok batch)
    (perm : others.Perm candidates) (among : candidate ∈ groupOf candidates key) :
    ∃ finding,
      mergeGroup sha256Hex caseId materialId documentVersion key (groupOf candidates key)
        (locationConflict candidates key) policy = .ok finding ∧
      mergeGroup sha256Hex caseId materialId documentVersion key (groupOf others key)
        (locationConflict others key) policy = .ok finding := by
  have pairs := mapM_eq_ok (buildFindings_eq_ok built)
  have pairs' := mapM_eq_ok (buildFindings_eq_ok builtToo)
  rw [sortedSet_perm (perm.map FindingCandidate.key)] at pairs'
  obtain ⟨amongCandidates, same⟩ := List.mem_filter.mp among
  have member : key ∈ sortedSet (candidates.map FindingCandidate.key) :=
    mem_sortedSet.mpr (List.mem_map.mpr ⟨candidate, amongCandidates, of_decide_eq_true same⟩)
  clear built builtToo
  revert pairs pairs' member
  generalize sortedSet (candidates.map FindingCandidate.key) = keys
  generalize batch.findings = findings
  intro pairs pairs' member
  induction pairs with
  | nil => cases member
  | @cons first finding rest findings here others inductionHypothesis =>
      cases pairs' with
      | cons there others' =>
          obtain rfl | inRest := List.mem_cons.mp member
          · exact ⟨finding, here, there⟩
          · exact inductionHypothesis others' inRest

/-- A candidate in front of all others is what a sort puts first of those which tie with it. -/
theorem findSome?_groupOf_front {β : Type} {pick : FindingCandidate → Option β} {key : GroupKey}
    {chosen : FindingCandidate}
    (least : Least (fun first second => first.detector ≤ second.detector) pick
      (groupOf candidates key) chosen) :
    (sortOn FindingCandidate.detector
      (groupOf (chosen :: candidates.erase chosen) key)).findSome? pick = pick chosen := by
  obtain ⟨picked, found⟩ := Option.isSome_iff_exists.mp least.picks
  have grouped : groupOf (chosen :: candidates.erase chosen) key =
      chosen :: groupOf (candidates.erase chosen) key :=
    List.filter_cons_of_pos (List.mem_filter.mp least.mem).2
  rw [grouped, found]
  refine findSome?_sortOn_cons (fun other among some => least.least other ?_ some) found
  exact List.mem_filter.mpr ⟨List.mem_of_mem_erase (List.mem_filter.mp among).1,
    (List.mem_filter.mp among).2⟩

/-- A candidate behind all others is what a sort puts last of those which tie with it. -/
theorem lastSome_groupOf_back {β : Type} {pick : FindingCandidate → Option β} {key : GroupKey}
    {chosen : FindingCandidate}
    (greatest : Least (fun first second => second.detector ≤ first.detector) pick
      (groupOf candidates key) chosen) :
    lastSome pick (sortOn FindingCandidate.detector
      (groupOf (candidates.erase chosen ++ [chosen]) key)) = pick chosen := by
  obtain ⟨picked, found⟩ := Option.isSome_iff_exists.mp greatest.picks
  have single : groupOf [chosen] key = [chosen] :=
    List.filter_cons_of_pos (List.mem_filter.mp greatest.mem).2
  have grouped : groupOf (candidates.erase chosen ++ [chosen]) key =
      groupOf (candidates.erase chosen) key ++ [chosen] := by
    rw [groupOf, List.filter_append, ← groupOf, ← groupOf, single]
  rw [grouped, found]
  refine lastSome_sortOn_concat (fun other among some => greatest.least other ?_ some) found
  exact List.mem_filter.mpr ⟨List.mem_of_mem_erase (List.mem_filter.mp among).1,
    (List.mem_filter.mp among).2⟩

/-- A batch which does not depend on the order has groups in which the candidates which tie agree:
each of them could be the first or the last. -/
theorem orderFree_of_perm
    (built : buildFindings sha256Hex caseId materialId documentVersion candidates policy = .ok batch)
    (same : ∀ others : List FindingCandidate, others.Perm candidates →
      buildFindings sha256Hex caseId materialId documentVersion others policy = .ok batch) :
    OrderFree candidates := by
  intro key
  have front {β : Type} {pick : FindingCandidate → Option β} {field : PrivacyFinding → Option β}
      (read : ∀ {others finding conflict}, mergeGroup sha256Hex caseId materialId documentVersion key
        others conflict policy = .ok finding →
        (sortOn FindingCandidate.detector others).findSome? pick = field finding) :
      LeastAgree (fun first second => first.detector ≤ second.detector) pick
        (groupOf candidates key) := by
    have reads : ∀ chosen, Least (fun first second => first.detector ≤ second.detector) pick
        (groupOf candidates key) chosen → pick chosen =
          (sortOn FindingCandidate.detector (groupOf candidates key)).findSome? pick := by
      intro chosen least
      have perm : (chosen :: candidates.erase chosen).Perm candidates :=
        (List.perm_cons_erase (List.mem_filter.mp least.mem).1).symm
      obtain ⟨finding, merged, merged'⟩ :=
        mergeGroup_of_same_batch built (same _ perm) perm least.mem
      rw [read merged, ← read merged', findSome?_groupOf_front least]
    exact fun first second least least' => (reads first least).trans (reads second least').symm
  refine ⟨front (fun merged => (mergeGroup_eq_ok merged).1),
    front fun merged => (mergeGroup_eq_ok merged).2.2.1.symm,
    front fun merged => (mergeGroup_eq_ok merged).2.2.2.symm, fun name => ?_⟩
  have reads : ∀ chosen, Least (fun first second => second.detector ≤ first.detector)
      (fun candidate : FindingCandidate => lastValue candidate.modelVersions.1 name)
      (groupOf candidates key) chosen → lastValue chosen.modelVersions.1 name =
        lastValue (modelEntries (sortOn FindingCandidate.detector (groupOf candidates key))) name := by
    intro chosen greatest
    have perm : (candidates.erase chosen ++ [chosen]).Perm candidates :=
      (List.perm_append_singleton _ _).trans
        (List.perm_cons_erase (List.mem_filter.mp greatest.mem).1).symm
    obtain ⟨finding, merged, merged'⟩ :=
      mergeGroup_of_same_batch built (same _ perm) perm greatest.mem
    have models := (mergeGroup_eq_ok merged).2.1.symm.trans (mergeGroup_eq_ok merged').2.1
    rw [ofList_eq_iff.mp models name, lastValue, lastValue, modelEntries, lastSome_flatMap]
    exact (lastSome_groupOf_back greatest).symm
  exact fun first second least least' => (reads first least).trans (reads second least').symm

/-- The batch of a list of candidates is that of every permutation of it exactly when, in every
group, the candidates which tie agree on what its finding has of one of them. -/
theorem finding_batches_depend_on_ties (sha256Hex : Octets → Sha256Hex)
    (built : buildFindings sha256Hex caseId materialId documentVersion candidates policy =
      .ok batch) :
    (∀ others : List FindingCandidate, others.Perm candidates →
      buildFindings sha256Hex caseId materialId documentVersion others policy = .ok batch) ↔
    OrderFree candidates :=
  ⟨orderFree_of_perm built, fun agree _ perm => (buildFindings_perm agree perm).trans built⟩

end Batches

/-- A report without evidence of a normalization. -/
def plainCandidate : FindingCandidate :=
  { reportedCandidate with
    normalizationEvidenceHash := none, detectorVersion := "1.0.1".toList }

/-- Two detectors report a value: their order does not matter. -/
theorem finding_batches_depend_on_ties_sample : ∃ batch,
    buildFindings (fun _ => reportHash) reportCase reportMaterial 1
      [reportedCandidate, plainCandidate] reportPolicy = .ok batch ∧
    ((∀ others : List FindingCandidate, others.Perm [reportedCandidate, plainCandidate] →
      buildFindings (fun _ => reportHash) reportCase reportMaterial 1 others reportPolicy =
        .ok batch) ↔ OrderFree [reportedCandidate, plainCandidate]) := by
  have accepted : (buildFindings (fun _ => reportHash) reportCase reportMaterial 1
      [reportedCandidate, plainCandidate] reportPolicy).toOption.any (fun _ => true) = true := by
    decide +kernel
  obtain ⟨batch, built, _⟩ := any_toOption accepted
  exact ⟨batch, built, finding_batches_depend_on_ties (fun _ => reportHash) built⟩

/-- A report of the same detector on the same value, with other evidence. -/
def otherCandidate : FindingCandidate :=
  { reportedCandidate with
    normalizationEvidenceHash := some ⟨List.replicate 64 'e', by decide⟩ }

/-- One detector reports a value twice, with different evidence: the batches differ with the order
of the reports. -/
theorem reports_of_one_detector_are_ordered :
    ∃ batch other, buildFindings (fun _ => reportHash) reportCase reportMaterial 1
        [reportedCandidate, otherCandidate] reportPolicy = .ok batch ∧
      buildFindings (fun _ => reportHash) reportCase reportMaterial 1
        [otherCandidate, reportedCandidate] reportPolicy = .ok other ∧
      batch.findings ≠ other.findings := by
  have first : (buildFindings (fun _ => reportHash) reportCase reportMaterial 1
      [reportedCandidate, otherCandidate] reportPolicy).toOption.any (fun batch =>
        batch.findings.map PrivacyFinding.normalizationEvidenceHash ==
          [reportedCandidate.normalizationEvidenceHash]) = true := by decide +kernel
  have second : (buildFindings (fun _ => reportHash) reportCase reportMaterial 1
      [otherCandidate, reportedCandidate] reportPolicy).toOption.any (fun batch =>
        batch.findings.map PrivacyFinding.normalizationEvidenceHash ==
          [otherCandidate.normalizationEvidenceHash]) = true := by decide +kernel
  obtain ⟨batch, built, evidence⟩ := any_toOption first
  obtain ⟨other, builtToo, evidence'⟩ := any_toOption second
  refine ⟨batch, other, built, builtToo, fun same => ?_⟩
  rw [same, eq_of_beq evidence'] at evidence
  exact absurd evidence (by decide)

end LawyerAssistance.Privacy

import LawyerAssistance.Privacy.FindingOrder
import LawyerAssistance.Privacy.ReviewSession

/-!
# The identifiers of findings

A group has a type, and the identifier of its finding does not cover it: the identifiers of a batch
are different exactly when no value has two types at one place, and a review of a batch accepts its
identifiers exactly then.
-/

namespace LawyerAssistance.Privacy

/-! ## Materials -/

theorem nul_notMem_decimal (value : Nat) : '\x00' ∉ Json.decimal value := by
  intro among
  have digit := Nat.isDigit_of_mem_toDigits (by decide) (by decide) among
  exact absurd digit (by decide)

theorem decimal_injective {first second : Nat} (same : Json.decimal first = Json.decimal second) :
    first = second := by
  have digits : Nat.toDigits 10 first = Nat.toDigits 10 second := same
  rw [← Nat.ofDigitChars_ten_toDigits (n := first), digits, Nat.ofDigitChars_ten_toDigits]

/-- Two keys of one value at one place. -/
def GroupKey.SameValue (key other : GroupKey) : Prop :=
  key.pageIndex = other.pageIndex ∧ key.blockId = other.blockId ∧
    key.startOffset = other.startOffset ∧ key.endOffset = other.endOffset ∧
    key.valueFingerprint = other.valueFingerprint

section Materials

variable {caseId : CaseId} {materialId : MaterialId} {documentVersion : UInt64}
  {key other : GroupKey}

/-- What the material of a finding has of its group. -/
def GroupKey.material (key : GroupKey) : Text :=
  Json.decimal key.pageIndex.toNat ++ '\x00' :: (key.blockId ++
    '\x00' :: (Json.decimal key.startOffset.toNat ++
      '\x00' :: (Json.decimal key.endOffset.toNat ++ '\x00' :: key.valueFingerprint.1)))

theorem append_separated {α : Type} {separator : α} {a b c d e f g h i : List α} :
    a ++ separator :: b ++ separator :: c ++ separator :: d ++ separator :: e ++ separator :: f ++
        separator :: g ++ separator :: h ++ separator :: i =
      (a ++ separator :: b ++ separator :: c ++ separator :: d) ++ separator ::
        (e ++ separator :: (f ++ separator :: (g ++ separator :: (h ++ separator :: i)))) := by
  simp only [List.append_assoc, List.cons_append]

/-- The material of a finding is that of its document and that of its group. -/
theorem findingMaterial_eq_append :
    findingMaterial caseId materialId documentVersion key =
      ("LawyerAssistance/finding/v1".toList ++ '\x00' :: caseId.1 ++ '\x00' :: materialId.1 ++
        '\x00' :: Json.decimal documentVersion.toNat) ++ '\x00' :: key.material :=
  append_separated

/-- Groups of one material are of one value at one place. -/
theorem sameValue_of_material (plain : '\x00' ∉ key.blockId) (plain' : '\x00' ∉ other.blockId)
    (same : key.material = other.material) : key.SameValue other := by
  rw [GroupKey.material, GroupKey.material] at same
  obtain ⟨pages, same⟩ := append_cons_inj_of_notMem_left (nul_notMem_decimal _)
    (nul_notMem_decimal _) same
  obtain ⟨blocks, same⟩ := append_cons_inj_of_notMem_left plain plain' same
  obtain ⟨starts, same⟩ := append_cons_inj_of_notMem_left (nul_notMem_decimal _)
    (nul_notMem_decimal _) same
  obtain ⟨ends, fingerprints⟩ := append_cons_inj_of_notMem_left (nul_notMem_decimal _)
    (nul_notMem_decimal _) same
  exact ⟨UInt32.toNat_inj.mp (decimal_injective pages), blocks,
    UInt32.toNat_inj.mp (decimal_injective starts), UInt32.toNat_inj.mp (decimal_injective ends),
    Subtype.ext fingerprints⟩

/-- Two groups have one material exactly when they are of one value at one place. -/
theorem findingMaterial_eq (plain : '\x00' ∉ key.blockId) (plain' : '\x00' ∉ other.blockId) :
    findingMaterial caseId materialId documentVersion key =
      findingMaterial caseId materialId documentVersion other ↔ key.SameValue other := by
  rw [findingMaterial_eq_append, findingMaterial_eq_append, List.append_cancel_left_eq,
    List.cons_inj_right]
  refine ⟨sameValue_of_material plain plain', fun same => ?_⟩
  obtain ⟨pages, blocks, starts, ends, fingerprints⟩ := same
  rw [GroupKey.material, GroupKey.material, pages, blocks, starts, ends, fingerprints]

end Materials

/-! ## Batches -/

section Batches

variable {sha256Hex : Octets → Sha256Hex} {caseId : CaseId} {materialId : MaterialId}
  {documentVersion : UInt64} {policy : FindingPolicy} {candidates : List FindingCandidate}
  {batch : FindingBatch}

/-- The digest of a finding, as its identifier has it. -/
def findingDigest (sha256Hex : Octets → Sha256Hex) (caseId : CaseId) (materialId : MaterialId)
    (documentVersion : UInt64) (key : GroupKey) : Text :=
  (textDigest sha256Hex (findingMaterial caseId materialId documentVersion key)).take 32

/-- No two findings which candidates can have share a digest without sharing what it is of. -/
def DigestsDiffer (sha256Hex : Octets → Sha256Hex) (caseId : CaseId) (materialId : MaterialId)
    (documentVersion : UInt64) (candidates : List FindingCandidate) : Prop :=
  ∀ first ∈ candidates, ∀ second ∈ candidates,
    findingDigest sha256Hex caseId materialId documentVersion first.key =
      findingDigest sha256Hex caseId materialId documentVersion second.key →
    findingMaterial caseId materialId documentVersion first.key =
      findingMaterial caseId materialId documentVersion second.key

/-- No value has two types at one place. -/
def OneTypeEach (candidates : List FindingCandidate) : Prop :=
  ∀ first ∈ candidates, ∀ second ∈ candidates, first.key.SameValue second.key →
    first.entityType = second.entityType

/-- A finding has the digest of its group, is of its document and is valid. -/
theorem mergeGroup_identified {key : GroupKey} {group : List FindingCandidate} {conflict : Bool}
    {finding : PrivacyFinding}
    (merged : mergeGroup sha256Hex caseId materialId documentVersion key group conflict policy =
      .ok finding) :
    finding.findingId.1 = "fnd_".toList ++
        findingDigest sha256Hex caseId materialId documentVersion key ∧
      finding.caseId = caseId ∧ finding.materialId = materialId ∧
      finding.documentVersion = documentVersion ∧ finding.validate = .ok () := by
  obtain ⟨_, _, merged⟩ := bind_eq_ok.mp merged
  obtain ⟨_, _, merged⟩ := bind_eq_ok.mp merged
  obtain ⟨findingId, identified, merged⟩ := bind_eq_ok.mp merged
  obtain ⟨_, _, merged⟩ := bind_eq_ok.mp merged
  obtain ⟨_, checked, merged⟩ := bind_eq_ok.mp merged
  cases merged
  refine ⟨?_, rfl, rfl, rfl, mapError_eq_ok.mp checked⟩
  have parsed := presentOr_eq_ok.mp identified
  rw [FindingId.parse] at parsed
  split_ifs at parsed
  rw [← Option.some.inj parsed]
  rfl

/-- A candidate of a batch has a block without NUL. -/
theorem nul_notMem_blockId
    (built : buildFindings sha256Hex caseId materialId documentVersion candidates policy =
      .ok batch) : ∀ candidate ∈ candidates, '\x00' ∉ candidate.blockId := by
  intro candidate among nul
  obtain ⟨_, _, built⟩ := bind_eq_ok.mp built
  obtain ⟨_, built⟩ := refuseIf_bind_eq_ok.mp built
  obtain ⟨_, built⟩ := refuseIf_bind_eq_ok.mp built
  obtain ⟨_, checked, _⟩ := bind_eq_ok.mp built
  have valid := refuseIf_eq_ok.mp (forM_eq_ok.mp checked candidate among)
  have plain : safeToken candidate.blockId 256 = true := by
    by_contra unsafeToken
    exact valid (.inr (.inl (Bool.eq_false_of_not_eq_true unsafeToken)))
  rw [safeToken, Bool.and_eq_true] at plain
  have control : candidate.blockId.any Text.isControl = true :=
    List.any_eq_true.mpr ⟨'\x00', nul, by decide⟩
  rw [control] at plain
  exact absurd plain.2 (by decide)

/-- The identifiers of a batch are different exactly when no value has two types at one place. -/
theorem nodup_findingId_iff
    (built : buildFindings sha256Hex caseId materialId documentVersion candidates policy = .ok batch)
    (differ : DigestsDiffer sha256Hex caseId materialId documentVersion candidates) :
    (batch.findings.map PrivacyFinding.findingId).Nodup ↔ OneTypeEach candidates := by
  have pairs := mapM_eq_ok (buildFindings_eq_ok built)
  have identifiers : batch.findings.map (fun finding => finding.findingId.1) =
      (sortedSet (candidates.map FindingCandidate.key)).map fun key =>
        "fnd_".toList ++ findingDigest sha256Hex caseId materialId documentVersion key := by
    revert pairs
    generalize sortedSet (candidates.map FindingCandidate.key) = keys
    generalize batch.findings = findings
    intro pairs
    induction pairs with
    | nil => rfl
    | cons merged _ inductionHypothesis =>
        rw [List.map_cons, List.map_cons, inductionHypothesis, (mergeGroup_identified merged).1]
  have plain := nul_notMem_blockId built
  have texts : (batch.findings.map PrivacyFinding.findingId).Nodup ↔
      (batch.findings.map fun finding => finding.findingId.1).Nodup := by
    rw [← List.nodup_map_iff Subtype.val_injective, List.map_map]
    rfl
  rw [texts, identifiers, List.nodup_map_iff_inj_on nodup_sortedSet]
  constructor
  · intro injective first among second among' same
    have material : findingMaterial caseId materialId documentVersion first.key =
        findingMaterial caseId materialId documentVersion second.key :=
      (findingMaterial_eq (plain first among) (plain second among')).mpr same
    have keys := injective first.key (mem_sortedSet.mpr (List.mem_map_of_mem among)) second.key
      (mem_sortedSet.mpr (List.mem_map_of_mem among')) (by rw [findingDigest, findingDigest, material])
    exact congrArg GroupKey.entityType keys
  · intro each key among other among' same
    obtain ⟨first, inCandidates, rfl⟩ := List.mem_map.mp (mem_sortedSet.mp among)
    obtain ⟨second, inCandidates', rfl⟩ := List.mem_map.mp (mem_sortedSet.mp among')
    have value : first.key.SameValue second.key :=
      (findingMaterial_eq (plain first inCandidates) (plain second inCandidates')).mp
        (differ first inCandidates second inCandidates' (List.append_cancel_left same))
    have types := each first inCandidates second inCandidates' value
    obtain ⟨pages, blocks, starts, ends, fingerprints⟩ := value
    rw [FindingCandidate.key, FindingCandidate.key, GroupKey.mk.injEq]
    exact ⟨pages, blocks, starts, ends, types, fingerprints⟩

/-- A review accepts the identifiers of a batch of its document exactly when they are different. -/
theorem checkFindings_of_batch
    (built : buildFindings sha256Hex caseId materialId documentVersion candidates policy = .ok batch)
    {session : ReviewSession} (findings : session.findings = batch.findings)
    (sameCase : session.caseId = caseId) (sameMaterial : session.materialId = materialId)
    (sameVersion : session.documentVersion = documentVersion)
    (pages : (session.assessment.pages.map PageAssessment.pageIndex).Nodup) :
    session.checkFindings = .ok () ↔ (batch.findings.map PrivacyFinding.findingId).Nodup := by
  have pairs := mapM_eq_ok (buildFindings_eq_ok built)
  rw [ReviewSession.checkFindings, bind_eq_ok, ← findings]
  constructor
  · rintro ⟨_, _, rest⟩
    exact not_not.mp (refuseIf_bind_eq_ok.mp rest).1
  · intro nodup
    refine ⟨⟨⟩, forM_eq_ok.mpr fun finding among => ?_, refuseIf_bind_eq_ok.mpr
      ⟨not_not.mpr nodup, refuseIf_eq_ok.mpr (not_not.mpr pages)⟩⟩
    rw [findings] at among
    obtain ⟨key, _, merged⟩ := exists_of_forall₂_right pairs among
    obtain ⟨_, ofCase, ofMaterial, ofVersion, valid⟩ := mergeGroup_identified merged
    rw [valid]
    refine refuseIf_eq_ok.mpr ?_
    rw [ofCase, ofMaterial, ofVersion, sameCase, sameMaterial, sameVersion]
    simp

/-- The identifiers of an accepted batch are different, and a review of it with its pages accepts
them, exactly when no value has two types at one place. -/
theorem finding_ids_differ_by_value (sha256Hex : Octets → Sha256Hex)
    (built : buildFindings sha256Hex caseId materialId documentVersion candidates policy = .ok batch)
    (differ : DigestsDiffer sha256Hex caseId materialId documentVersion candidates) :
    ((batch.findings.map PrivacyFinding.findingId).Nodup ↔ OneTypeEach candidates) ∧
    ∀ session : ReviewSession, session.findings = batch.findings → session.caseId = caseId →
      session.materialId = materialId → session.documentVersion = documentVersion →
      (session.assessment.pages.map PageAssessment.pageIndex).Nodup →
      (session.checkFindings = .ok () ↔ OneTypeEach candidates) := by
  have identifiers := nodup_findingId_iff built differ
  refine ⟨identifiers, fun session findings sameCase sameMaterial sameVersion pages => ?_⟩
  rw [checkFindings_of_batch built findings sameCase sameMaterial sameVersion pages, identifiers]

end Batches

/-- A report on another place. -/
def laterCandidate : FindingCandidate :=
  { reportedCandidate with startOffset := 20, endOffset := 28 }

/-- A hash which tells the two reports apart. -/
def tellApart (bytes : Octets) : Sha256Hex :=
  if bytes = utf8 (String.ofList
      (findingMaterial reportCase reportMaterial 1 reportedCandidate.key)) then reportHash
  else ⟨List.replicate 64 'e', Eq.refl true⟩

theorem tellApart_eq (bytes : Octets) : tellApart bytes =
    if bytes = (findingMaterial reportCase reportMaterial 1 reportedCandidate.key).flatMap
      String.utf8EncodeChar then reportHash else ⟨List.replicate 64 'e', by decide⟩ := by
  rw [tellApart, utf8_ofList]

/-- Two values at two places have two identifiers. -/
theorem finding_ids_differ_by_value_sample : ∃ batch,
    buildFindings tellApart reportCase reportMaterial 1 [reportedCandidate, laterCandidate]
      reportPolicy = .ok batch ∧
    ((batch.findings.map PrivacyFinding.findingId).Nodup ↔
      OneTypeEach [reportedCandidate, laterCandidate]) := by
  have accepted : (buildFindings tellApart reportCase reportMaterial 1
      [reportedCandidate, laterCandidate] reportPolicy).toOption.any (fun _ => true) = true := by
    simp only [buildFindings, mergeGroups, mergeGroup, mergeEvidence, findingProvenanceHash, batchOf,
      stableFindingId, stableClusterId, textDigest, canonicalJsonV1, tellApart_eq, utf8_ofList]
    decide +kernel
  have apart : (findingDigest tellApart reportCase reportMaterial 1 reportedCandidate.key ==
      findingDigest tellApart reportCase reportMaterial 1 laterCandidate.key) = false := by
    simp only [findingDigest, textDigest, tellApart_eq, utf8_ofList]
    decide
  have differ : DigestsDiffer tellApart reportCase reportMaterial 1
      [reportedCandidate, laterCandidate] := by
    intro first among second among' same
    rw [List.mem_pair] at among among'
    obtain rfl | rfl := among <;> obtain rfl | rfl := among'
    · rfl
    · exact absurd same (beq_eq_false_iff_ne.mp apart)
    · exact absurd same.symm (beq_eq_false_iff_ne.mp apart)
    · rfl
  obtain ⟨batch, built, _⟩ := any_toOption accepted
  exact ⟨batch, built, (finding_ids_differ_by_value tellApart built differ).1⟩

/-- A report of another type on the same value. -/
def retypedCandidate : FindingCandidate :=
  { reportedCandidate with entityType := .bankAccount }

/-- One value is reported with two types: both findings have one identifier. -/
theorem two_types_share_an_identifier : ∃ batch,
    buildFindings (fun _ => reportHash) reportCase reportMaterial 1
      [reportedCandidate, retypedCandidate] reportPolicy = .ok batch ∧
    DigestsDiffer (fun _ => reportHash) reportCase reportMaterial 1
      [reportedCandidate, retypedCandidate] ∧
    ¬ (batch.findings.map PrivacyFinding.findingId).Nodup := by
  have accepted : (buildFindings (fun _ => reportHash) reportCase reportMaterial 1
      [reportedCandidate, retypedCandidate] reportPolicy).toOption.any
        (fun batch => !decide (batch.findings.map PrivacyFinding.findingId).Nodup) = true := by
    decide
  have plain : '\x00' ∉ reportedCandidate.key.blockId := by decide
  have plain' : '\x00' ∉ retypedCandidate.key.blockId := by decide
  have differ : DigestsDiffer (fun _ => reportHash) reportCase reportMaterial 1
      [reportedCandidate, retypedCandidate] := by
    intro first among second among' _
    rw [List.mem_pair] at among among'
    obtain rfl | rfl := among <;> obtain rfl | rfl := among'
    · rfl
    · exact (findingMaterial_eq plain plain').mpr ⟨rfl, rfl, rfl, rfl, rfl⟩
    · exact (findingMaterial_eq plain' plain).mpr ⟨rfl, rfl, rfl, rfl, rfl⟩
    · rfl
  obtain ⟨batch, built, same⟩ := any_toOption accepted
  rw [Bool.not_eq_true', decide_eq_false_iff_not] at same
  exact ⟨batch, built, differ, same⟩

end LawyerAssistance.Privacy

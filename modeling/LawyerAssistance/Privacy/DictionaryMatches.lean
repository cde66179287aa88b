import LawyerAssistance.Privacy.AliasRuns
import LawyerAssistance.Privacy.Deterministic
import Mathlib.Data.List.Destutter

/-!
# Matches of the case dictionary

`case_dictionary.rs`: the terms of a dictionary and where they occur in a text. The candidates of
the matches are the occurrences which a scan from the left finds; their replacement is an alias in
lenticular brackets, and the finding engine admits replacements in square brackets only.
-/

namespace LawyerAssistance.Privacy

/-! ## Records -/

/-- `CASE_DICTIONARY_SCHEMA_VERSION`. -/
def caseDictionarySchemaVersion : Text := "case-dictionary-v1".toList

/-- `CASE_DICTIONARY_DETECTOR_VERSION`. -/
def caseDictionaryDetectorVersion : Text := "case-dictionary-exact-v1".toList

/-- `MAX_DICTIONARY_VARIANTS`. -/
def maxDictionaryVariants : Nat := 32

/-- `CaseDictionaryRecordV1`. -/
structure CaseDictionaryRecord where
  schemaVersion : Text
  entryId : Text
  caseId : CaseId
  category : DictionaryCategory
  entityType : EntityType
  required : Bool
  stableAlias : Text
  valueFingerprint : Sha256Hex
  privateValueRef : PrivateValueRef
  revision : UInt64
  deriving DecidableEq

/-- `CaseDictionaryRecordV1::validate`. -/
def CaseDictionaryRecord.validate (record : CaseDictionaryRecord) : Except CaseDictionaryError Unit :=
  refuseIf (record.schemaVersion ≠ caseDictionarySchemaVersion ∨
    validOpaqueId "dict_".toList record.entryId = false ∨ record.revision = 0 ∨
    record.privateValueRef.objectVersion = 0 ∨ validAlias record.stableAlias = false) .invalidRecord

section Build

variable (sha256Hex : Octets → Sha256Hex)

/-- What the identifier of an entry is made of. -/
def entryMaterial (caseId : CaseId) (fingerprint : Sha256Hex) : Text :=
  "case-dictionary-entry-v1".toList ++ '\x00' :: caseId.1 ++ '\x00' :: fingerprint.1

/-- `build_dictionary_record`: what it leaves of the ledger, and what it returns. -/
def buildDictionaryRecord (caseId : CaseId) (category : DictionaryCategory) (required : Bool)
    (revision : UInt64) (binding : StoredPrivateValueBinding) (ledger : CaseAliasLedger) :
    CaseAliasLedger × Except CaseDictionaryError CaseDictionaryRecord :=
  if ledger.caseId ≠ caseId ∨ revision = 0 then (ledger, .error .invalidRecord)
  else
    let (next, assigned) := ledger.assign sha256Hex category binding.valueFingerprint
    (next, do
      let stableAlias ← assigned
      let record : CaseDictionaryRecord := {
        schemaVersion := caseDictionarySchemaVersion
        entryId := "dict_".toList ++
          (textDigest sha256Hex (entryMaterial caseId binding.valueFingerprint)).take 32
        caseId, category, entityType := category.defaultEntityType, required, stableAlias
        valueFingerprint := binding.valueFingerprint
        privateValueRef := binding.privateValueRef, revision }
      record.validate
      pure record)

end Build

/-! ## Matches -/

/-- `ResolvedCaseDictionaryTermV1`. -/
structure ResolvedDictionaryTerm where
  record : CaseDictionaryRecord
  primaryValue : Text
  variants : List Text

/-- The value of a term and its variants. -/
def ResolvedDictionaryTerm.values (term : ResolvedDictionaryTerm) : List Text :=
  term.primaryValue :: term.variants

/-- `DictionaryMatch`, with the record of its term. -/
structure DictionaryMatch where
  start : Nat
  stop : Nat
  record : CaseDictionaryRecord

/-- The order of matches: by start, the longer before, then by entry. -/
def DictionaryMatch.rank (found : DictionaryMatch) : Nat ×ₗ Natᵒᵈ ×ₗ Text :=
  toLex (found.start, toLex (OrderDual.toDual found.stop, found.record.entryId))

/-- The matches of a value of a term. -/
def matchValue (text : Text) (record : CaseDictionaryRecord) (value : Text) :
    Except CaseDictionaryError (List DictionaryMatch) := do
  refuseIf (Text.trim value = [] ∨ 512 < Text.byteLength value ∨
    value.any Text.isControl = true) .invalidSecret
  pure ((Text.matchIndices value 0 0 text).map fun start =>
    { start, stop := start + Text.byteLength value, record })

/-- The matches of a term. -/
def matchTerm (text : Text) (context : DetectionContext) (term : ResolvedDictionaryTerm) :
    Except CaseDictionaryError (List DictionaryMatch) := do
  term.record.validate
  refuseIf (term.record.caseId ≠ context.caseId ∨ Text.trim term.primaryValue = [] ∨
    512 < Text.byteLength term.primaryValue ∨ maxDictionaryVariants < term.variants.length)
    .invalidSecret
  gather (matchValue text term.record) term.values

/-- The candidate of a match at offsets. -/
def candidateAt (sha256Hex : Octets → Sha256Hex) (context : DetectionContext)
    (record : CaseDictionaryRecord) (startOffset endOffset : UInt32) : FindingCandidate where
  pageIndex := context.pageIndex
  blockId := context.blockId
  startOffset := startOffset
  endOffset := endOffset
  geometry := none
  entityType := record.entityType
  detectorSource := "case_dictionary".toList
  detectorVersion := caseDictionaryDetectorVersion
  modelVersions := ⟨[], Codec.pairwise_nil_entries⟩
  rawScorePpm := some ⟨1000000, by decide⟩
  calibratedConfidencePpm := some ⟨1000000, by decide⟩
  ocrConfidencePpm := context.ocrConfidencePpm
  layoutConfidencePpm := context.layoutConfidencePpm
  normalizationEvidenceHash := some (sha256Hex (utf8 "dictionary-exact-normalization-v1"))
  confusableEvidenceHash := none
  caseDictionaryMatch := true
  valueFingerprint := record.valueFingerprint
  proposedReplacement := some record.stableAlias
  privateValueRef := record.privateValueRef
  validationPassed := true
  automaticReplacementAllowed := true
  replacementVerified := false

/-- The candidate of a match. -/
def candidateOf (sha256Hex : Octets → Sha256Hex) (context : DetectionContext)
    (found : DictionaryMatch) : Except CaseDictionaryError FindingCandidate := do
  let startOffset ← offsetOr .invalidSecret found.start
  let endOffset ← offsetOr .invalidSecret found.stop
  pure (candidateAt sha256Hex context found.record startOffset endOffset)

/-- `match_case_dictionary`. -/
def matchCaseDictionary (sha256Hex : Octets → Sha256Hex) (text : Text) (context : DetectionContext)
    (terms : List ResolvedDictionaryTerm) : Except CaseDictionaryError (List FindingCandidate) := do
  refuseIf (maxDictionaryEntries < terms.length) .entryLimitExceeded
  let matched ← gather (matchTerm text context) terms
  ((sortOn DictionaryMatch.rank matched).destutter fun last next => last.rank ≠ next.rank).mapM
    (candidateOf sha256Hex context)

/-! ## Exact matches -/

/-- An occurrence of a value of a term which a scan from the left finds. -/
def Occurs (text : Text) (terms : List ResolvedDictionaryTerm) (found : DictionaryMatch) : Prop :=
  ∃ term ∈ terms, ∃ value ∈ term.values, found.record = term.record ∧
    found.start ∈ Text.matchIndices value 0 0 text ∧
    found.stop = found.start + Text.byteLength value

/-- Matches which are the occurrences of the terms, in order and once each. -/
structure ExactMatches (text : Text) (terms : List ResolvedDictionaryTerm)
    (matched : List DictionaryMatch) : Prop where
  ordered : matched.Pairwise fun first second => first.rank < second.rank
  occur : ∀ found ∈ matched, Occurs text terms found
  complete : ∀ found, Occurs text terms found → ∃ other ∈ matched, other.rank = found.rank
  slices : ∀ found ∈ matched, ∃ value, Text.slice text found.start found.stop = some value

section Exact

variable {text : Text} {context : DetectionContext} {term : ResolvedDictionaryTerm}
  {terms : List ResolvedDictionaryTerm} {matched : List DictionaryMatch}

/-- The value of a match is not empty. -/
theorem matchValue_eq_ok {record : CaseDictionaryRecord} {value : Text}
    (found : matchValue text record value = .ok matched) :
    value ≠ [] ∧ matched = (Text.matchIndices value 0 0 text).map fun start =>
      { start, stop := start + Text.byteLength value, record } := by
  obtain ⟨valid, found⟩ := refuseIf_bind_eq_ok.mp found
  cases found
  refine ⟨?_, rfl⟩
  rintro rfl
  exact valid (.inl rfl)

/-- The matches of a term. -/
theorem matchTerm_eq_ok (found : matchTerm text context term = .ok matched) :
    term.record.validate = .ok () ∧ (∀ value ∈ term.values, value ≠ []) ∧
      ∀ other, other ∈ matched ↔ ∃ value ∈ term.values, other.record = term.record ∧
        other.start ∈ Text.matchIndices value 0 0 text ∧
        other.stop = other.start + Text.byteLength value := by
  obtain ⟨_, valid, found⟩ := bind_eq_ok.mp found
  obtain ⟨_, found⟩ := refuseIf_bind_eq_ok.mp found
  refine ⟨valid, fun value among => ?_, fun other => ⟨fun among => ?_, ?_⟩⟩
  · obtain ⟨_, visited, _⟩ := gather_visits found among
    exact (matchValue_eq_ok visited).1
  · obtain ⟨value, amongValues, list, visited, inList⟩ := mem_gather found among
    rw [(matchValue_eq_ok visited).2] at inList
    obtain ⟨start, index, rfl⟩ := List.mem_map.mp inList
    exact ⟨value, amongValues, rfl, index, rfl⟩
  · rintro ⟨value, amongValues, record, index, stop⟩
    obtain ⟨list, visited, inside⟩ := gather_visits found amongValues
    refine inside other ?_
    rw [(matchValue_eq_ok visited).2]
    refine List.mem_map.mpr ⟨other.start, index, ?_⟩
    obtain ⟨start, stop', record'⟩ := other
    dsimp only at record stop
    rw [stop, record]

/-- An element, or one of the same rank, is kept when repetitions are dropped. -/
theorem exists_mem_destutter {α κ : Type} [DecidableEq κ] {rank : α → κ} {values : List α} {value : α}
    (among : value ∈ values) :
    ∃ other ∈ values.destutter fun last next => rank last ≠ rank next, rank other = rank value := by
  have kept : ∀ (first : α) (rest : List α), value ∈ first :: rest →
      ∃ other ∈ rest.destutter' (fun last next => rank last ≠ rank next) first,
        rank other = rank value := by
    intro first rest
    induction rest generalizing first with
    | nil =>
        intro among
        rw [List.mem_singleton.mp among]
        exact ⟨first, List.mem_singleton_self _, rfl⟩
    | cons second rest inductionHypothesis =>
        intro among
        rw [List.destutter'_cons]
        split_ifs with differ
        · obtain rfl | among := List.mem_cons.mp among
          · exact ⟨value, List.mem_cons_self, rfl⟩
          · obtain ⟨other, inside, same⟩ := inductionHypothesis second among
            exact ⟨other, List.mem_cons_of_mem _ inside, same⟩
        · obtain rfl | among := List.mem_cons.mp among
          · exact ⟨value, List.mem_destutter' _ _ _, rfl⟩
          · obtain rfl | among := List.mem_cons.mp among
            · exact ⟨first, List.mem_destutter' _ _ _, not_not.mp differ⟩
            · exact inductionHypothesis first (List.mem_cons_of_mem _ among)
  cases values with
  | nil => cases among
  | cons first rest => exact kept first rest among

/-- A chain of two relations. -/
theorem isChain_and {α : Type} {first second : α → α → Prop} {values : List α}
    (one : values.IsChain first) (other : values.IsChain second) :
    values.IsChain fun left right => first left right ∧ second left right := by
  induction values with
  | nil => exact List.isChain_nil
  | cons value rest inductionHypothesis =>
      rw [List.isChain_cons] at one other ⊢
      exact ⟨fun next among => ⟨one.1 next among, other.1 next among⟩,
        inductionHypothesis one.2 other.2⟩

/-- Without repetitions, values which ascend ascend strictly. -/
theorem pairwise_lt_destutter {α κ : Type} [LinearOrder κ] (rank : α → κ) {values : List α}
    [DecidableRel fun last next => rank last ≠ rank next]
    (ascending : values.Pairwise fun first second => rank first ≤ rank second) :
    (values.destutter fun last next => rank last ≠ rank next).Pairwise
      fun first second => rank first < rank second := by
  have differ := List.isChain_destutter (fun last next => rank last ≠ rank next) values
  have below := ascending.sublist
    (List.destutter_sublist (fun last next => rank last ≠ rank next) values)
  have chain : List.IsChain (fun first second => rank first < rank second)
      (values.destutter fun last next => rank last ≠ rank next) :=
    (isChain_and below.isChain differ).imp fun _ _ both => lt_of_le_of_ne both.1 both.2
  have : IsTrans α fun first second => rank first < rank second := ⟨fun _ _ _ => lt_trans⟩
  exact chain.pairwise

/-- The matches of a dictionary are exact. -/
theorem exactMatches_of_gather (found : gather (matchTerm text context) terms = .ok matched) :
    ExactMatches text terms
      ((sortOn DictionaryMatch.rank matched).destutter fun last next => last.rank ≠ next.rank) := by
  have kept : ∀ {other}, other ∈ (sortOn DictionaryMatch.rank matched).destutter
      (fun last next => last.rank ≠ next.rank) → other ∈ matched := fun among =>
    perm_sortOn.mem_iff.mp ((List.destutter_sublist
      (fun last next : DictionaryMatch => last.rank ≠ next.rank) _).subset among)
  have occur : ∀ other ∈ matched, Occurs text terms other := by
    intro other among
    obtain ⟨term, amongTerms, list, visited, inList⟩ := mem_gather found among
    obtain ⟨value, amongValues, record, index, stop⟩ := ((matchTerm_eq_ok visited).2.2 other).mp inList
    exact ⟨term, amongTerms, value, amongValues, record, index, stop⟩
  constructor
  · exact pairwise_lt_destutter DictionaryMatch.rank pairwise_sortOn
  · exact fun other among => occur other (kept among)
  · rintro other ⟨term, amongTerms, value, amongValues, record, index, stop⟩
    obtain ⟨list, visited, inside⟩ := gather_visits found amongTerms
    have among := inside other (((matchTerm_eq_ok visited).2.2 other).mpr
      ⟨value, amongValues, record, index, stop⟩)
    exact exists_mem_destutter (perm_sortOn.mem_iff.mpr among)
  · intro other among
    obtain ⟨term, amongTerms, value, amongValues, _, index, stop⟩ := occur other (kept among)
    obtain ⟨list, visited, _⟩ := gather_visits found amongTerms
    obtain ⟨before, after, same, place⟩ :=
      Text.exists_of_mem_matchIndices ((matchTerm_eq_ok visited).2.1 value amongValues) index
    exact ⟨value, Text.slice_eq_some.mpr ⟨before, after, same, by omega, stop⟩⟩

end Exact

/-! ## Admission -/

section Admission

variable {sha256Hex : Octets → Sha256Hex} {text : Text} {context : DetectionContext}
  {terms : List ResolvedDictionaryTerm} {candidates : List FindingCandidate}
  {policy : FindingPolicy}

/-- A candidate is that of a match. -/
def IsCandidateOf (sha256Hex : Octets → Sha256Hex) (context : DetectionContext)
    (found : DictionaryMatch) (candidate : FindingCandidate) : Prop :=
  ∃ startOffset endOffset, startOffset.toNat = found.start ∧ endOffset.toNat = found.stop ∧
    candidate = candidateAt sha256Hex context found.record startOffset endOffset

/-- The finding engine admits candidates, and every occurrence of a term has a finding. -/
def Admitted (sha256Hex : Octets → Sha256Hex) (text : Text) (context : DetectionContext)
    (terms : List ResolvedDictionaryTerm) (candidates : List FindingCandidate)
    (policy : FindingPolicy) : Prop :=
  ∃ batch, buildFindings sha256Hex context.caseId context.materialId context.documentVersion
      candidates policy = .ok batch ∧
    ∀ found, Occurs text terms found → ∃ finding ∈ batch.findings,
      finding.startOffset.toNat = found.start ∧ finding.endOffset.toNat = found.stop ∧
      finding.entityType = found.record.entityType ∧ finding.caseDictionaryMatch = true

/-- No value of a term is in a text. -/
def NothingOccurs (text : Text) (terms : List ResolvedDictionaryTerm) : Prop :=
  ∀ term ∈ terms, ∀ value ∈ term.values, ¬ value <:+: text

/-- The candidate which is made of a match is that of the match. -/
theorem candidateOf_eq_ok {found : DictionaryMatch} {candidate : FindingCandidate}
    (made : candidateOf sha256Hex context found = .ok candidate) :
    IsCandidateOf sha256Hex context found candidate := by
  obtain ⟨startOffset, start, made⟩ := bind_eq_ok.mp made
  obtain ⟨endOffset, stop, made⟩ := bind_eq_ok.mp made
  cases made
  exact ⟨startOffset, endOffset, offsetOr_eq_ok start, offsetOr_eq_ok stop, rfl⟩

/-- The candidates of a dictionary are those of exact matches, and the records are valid. -/
theorem exactMatches_of_matchCaseDictionary
    (matched : matchCaseDictionary sha256Hex text context terms = .ok candidates) :
    (∀ term ∈ terms, term.record.validate = .ok () ∧ ∀ value ∈ term.values, value ≠ []) ∧
      ∃ found, ExactMatches text terms found ∧
        List.Forall₂ (IsCandidateOf sha256Hex context) found candidates := by
  obtain ⟨_, matched⟩ := refuseIf_bind_eq_ok.mp matched
  obtain ⟨found, gathered, matched⟩ := bind_eq_ok.mp matched
  refine ⟨fun term among => ?_, _, exactMatches_of_gather gathered,
    (mapM_eq_ok matched).imp fun _ _ => candidateOf_eq_ok⟩
  obtain ⟨list, visited, _⟩ := gather_visits gathered among
  exact ⟨(matchTerm_eq_ok visited).1, (matchTerm_eq_ok visited).2.1⟩

/-- A value of a term is in a text exactly when a scan finds it. -/
theorem exists_occurs_iff
    (nonempty : ∀ term ∈ terms, ∀ value ∈ term.values, value ≠ []) :
    (∃ found, Occurs text terms found) ↔ ¬ NothingOccurs text terms := by
  constructor
  · rintro ⟨found, term, among, value, amongValues, _, index, _⟩ nothing
    have unseen : Text.matchIndices value 0 0 text = [] := (Text.matchIndices_eq_nil
      (nonempty term among value amongValues)).mpr (nothing term among value amongValues)
    rw [unseen] at index
    cases index
  · intro something
    simp only [NothingOccurs, not_forall, not_not] at something
    obtain ⟨term, among, value, amongValues, inside⟩ := something
    have seen : Text.matchIndices value 0 0 text ≠ [] := fun unseen =>
      (Text.matchIndices_eq_nil (nonempty term among value amongValues)).mp unseen inside
    obtain ⟨start, index⟩ := List.exists_mem_of_ne_nil _ seen
    exact ⟨⟨start, start + Text.byteLength value, term.record⟩, term, among, value, amongValues,
      rfl, index, rfl⟩

/-- The replacement of a record begins with a bracket which the finding engine refuses. -/
theorem validReplacement_stableAlias {record : CaseDictionaryRecord}
    (valid : record.validate = .ok ()) :
    FindingEngine.validReplacement record.stableAlias = false := by
  have passed := refuseIf_eq_ok.mp valid
  simp only [not_or, Bool.not_eq_false] at passed
  have lenticular : record.stableAlias.head? = some '\u3010' := by
    have checks := passed.2.2.2.2
    simp only [validAlias, Bool.and_eq_true, beq_iff_eq] at checks
    exact checks.1.1.1
  simp only [FindingEngine.validReplacement, lenticular]
  simp

/-- The finding engine refuses the candidate of a valid record. -/
theorem validate_candidateAt {record : CaseDictionaryRecord} {startOffset endOffset : UInt32}
    (valid : record.validate = .ok ()) :
    (candidateAt sha256Hex context record startOffset endOffset).validate ≠ .ok () := by
  intro accepted
  have passed := refuseIf_eq_ok.mp accepted
  simp only [not_or] at passed
  refine passed.2.2.2.2.2.2.2.1 ?_
  simp only [candidateAt, Option.any_some, validReplacement_stableAlias valid, Bool.not_false]

theorem buildFindings_nil (sha256Hex : Octets → Sha256Hex) (caseId : CaseId)
    (materialId : MaterialId) {documentVersion : UInt64} (valid : policy.validate = .ok ()) (positive : documentVersion ≠ 0) :
    ∃ batch, buildFindings sha256Hex caseId materialId documentVersion [] policy = .ok batch := by
  rw [buildFindings, valid, ok_bind, refuseIf, if_neg positive, ok_bind]
  exact ⟨_, rfl⟩

/-- The candidates of a dictionary are exact, and the finding engine admits them exactly when there
are none: under every policy it refuses the replacement of a record, which is in lenticular
brackets. -/
theorem dictionary_candidates_are_admitted_iff_none (sha256Hex : Octets → Sha256Hex)
    (matched : matchCaseDictionary sha256Hex text context terms = .ok candidates) :
    (∃ found, ExactMatches text terms found ∧
      List.Forall₂ (IsCandidateOf sha256Hex context) found candidates) ∧
    ((∀ policy : FindingPolicy, policy.validate = .ok () →
        Admitted sha256Hex text context terms candidates policy) ↔
      context.documentVersion ≠ 0 ∧ NothingOccurs text terms) := by
  obtain ⟨valid, found, exact, pairs⟩ := exactMatches_of_matchCaseDictionary matched
  have occurs_iff : (∃ found, Occurs text terms found) ↔ ¬ NothingOccurs text terms :=
    exists_occurs_iff fun term among => (valid term among).2
  refine ⟨⟨found, exact, pairs⟩, fun admitted => ?_, ?_⟩
  · obtain ⟨batch, built, _⟩ := admitted reportPolicy (by decide)
    obtain ⟨_, _, built⟩ := bind_eq_ok.mp built
    obtain ⟨positive, built⟩ := refuseIf_bind_eq_ok.mp built
    obtain ⟨_, built⟩ := refuseIf_bind_eq_ok.mp built
    obtain ⟨_, checked, _⟩ := bind_eq_ok.mp built
    refine ⟨positive, not_not.mp (mt occurs_iff.mpr ?_)⟩
    rintro ⟨first, occurs⟩
    obtain ⟨other, among, _⟩ := exact.complete first occurs
    obtain ⟨candidate, amongCandidates, startOffset, endOffset, _, _, same⟩ :=
      exists_of_forall₂_left pairs among
    obtain ⟨term, amongTerms, _, _, record, _⟩ := exact.occur other among
    have validRecord : other.record.validate = .ok () := record ▸ (valid term amongTerms).1
    exact validate_candidateAt validRecord (same ▸ forM_eq_ok.mp checked candidate amongCandidates)
  · rintro ⟨positive, nothing⟩ policy validPolicy
    have unseen : ∀ first, ¬ Occurs text terms first := fun first occurs =>
      occurs_iff.mp ⟨first, occurs⟩ nothing
    obtain rfl : found = [] := List.eq_nil_iff_forall_not_mem.mpr fun first among =>
      unseen first (exact.occur first among)
    cases pairs
    obtain ⟨batch, built⟩ := buildFindings_nil sha256Hex context.caseId context.materialId
      validPolicy positive
    exact ⟨batch, built, fun first occurs => absurd occurs (unseen first)⟩

/-- The context of a page. -/
def pageContext : DetectionContext where
  caseId := reportCase
  materialId := reportMaterial
  documentVersion := 1
  pageIndex := 0
  blockId := "page-1".toList
  ocrConfidencePpm := none
  layoutConfidencePpm := none

/-- A party, as the record of the first one is built. -/
def partyRecord : CaseDictionaryRecord where
  schemaVersion := caseDictionarySchemaVersion
  entryId := "dict_".toList ++ List.replicate 32 'd'
  caseId := reportCase
  category := .party
  entityType := .personName
  required := true
  stableAlias := aliasText .party 0
  valueFingerprint := reportHash
  privateValueRef := reportedCandidate.privateValueRef
  revision := 1

/-- A party with a variant of its name. -/
def partyTerm : ResolvedDictionaryTerm where
  record := partyRecord
  primaryValue := "subject-one".toList
  variants := ["subject-1".toList]

/-- A text without the party has no candidates, and they are admitted. -/
theorem dictionary_candidates_are_admitted_iff_none_sample :
    matchCaseDictionary (fun _ => reportHash) "nobody".toList pageContext [partyTerm] = .ok [] ∧
    ∀ policy : FindingPolicy, policy.validate = .ok () →
      Admitted (fun _ => reportHash) "nobody".toList pageContext [partyTerm] [] policy := by
  have matched : matchCaseDictionary (fun _ => reportHash) "nobody".toList pageContext
      [partyTerm] = .ok [] := by decide
  refine ⟨matched, (dictionary_candidates_are_admitted_iff_none (fun _ => reportHash)
    matched).2.mpr ⟨by decide, ?_⟩⟩
  intro term among value amongValues
  cases List.mem_singleton.mp among
  revert value
  decide

/-- The record of a party is built from the empty ledger, its matches have candidates, and no policy
admits them. -/
theorem dictionary_candidate_is_refused :
    ∃ ledger candidates, CaseAliasLedger.empty (fun _ => reportHash) reportCase = .ok ledger ∧
      (buildDictionaryRecord (fun _ => reportHash) reportCase .party true 1
        ⟨reportHash, reportedCandidate.privateValueRef, "[unused]".toList⟩ ledger).2 = .ok partyRecord ∧
      matchCaseDictionary (fun _ => reportHash) "subject-one and subject-1".toList pageContext
        [partyTerm] = .ok candidates ∧
      candidates.map (fun candidate => (candidate.startOffset, candidate.endOffset)) =
        [(0, 11), (16, 25)] ∧
      reportPolicy.validate = .ok () ∧
      ∀ batch, buildFindings (fun _ => reportHash) reportCase reportMaterial 1 candidates
        reportPolicy ≠ .ok batch := by
  have emptied : (CaseAliasLedger.empty (fun _ => reportHash) reportCase).toOption.any
      (fun ledger => (buildDictionaryRecord (fun _ => reportHash) reportCase .party true 1
        ⟨reportHash, reportedCandidate.privateValueRef, "[unused]".toList⟩ ledger).2.toOption.any (· == partyRecord)) =
      true := by decide
  have seen : (matchCaseDictionary (fun _ => reportHash) "subject-one and subject-1".toList
      pageContext [partyTerm]).toOption.any (fun candidates =>
        candidates.map (fun candidate => (candidate.startOffset, candidate.endOffset)) ==
          [(0, 11), (16, 25)] &&
        (buildFindings (fun _ => reportHash) reportCase reportMaterial 1 candidates
          reportPolicy).toOption.isNone) = true := by decide
  obtain ⟨ledger, made, registered⟩ := any_toOption emptied
  obtain ⟨candidates, matched, both⟩ := any_toOption seen
  obtain ⟨offsets, refused⟩ := Bool.and_eq_true_iff.mp both
  refine ⟨ledger, candidates, made, ?_, matched, eq_of_beq offsets, by decide, fun batch built => ?_⟩
  · obtain ⟨record, built, same⟩ := any_toOption registered
    rw [built, eq_of_beq same]
  · rw [built] at refused
    cases refused

end Admission

end LawyerAssistance.Privacy

import LawyerAssistance.Privacy.Schema
import LawyerAssistance.Std.Occurrences
import Mathlib.Data.Fintype.Pi

/-!
# The independent residual scan

`residual_scan.rs`: what is still found in the redacted pages, as hits with a reason each, and the
report over them with its evidence hash. The matcher of regular expressions and SHA-256 are
parameters.
-/

namespace LawyerAssistance.Privacy

/-! ## Reports -/

/-- `ResidualRiskClassV1`. -/
inductive ResidualRiskClass where
  | dictionarySubject
  | identityLike
  | longDigitSequence
  | emailLike
  | phoneLike
  | ipLike
  | suspectedPerson
  | suspectedOrganization
  | addressLike
  | sourceName
  | localPath
  | ocrConfusable
  | brokenPlaceholder
  | aliasInconsistency
  deriving DecidableEq

/-- The variants of `ResidualRiskClassV1`. -/
def ResidualRiskClass.variants : Variants ResidualRiskClass where
  name
    | .dictionarySubject => "dictionary_subject".toList
    | .identityLike => "identity_like".toList
    | .longDigitSequence => "long_digit_sequence".toList
    | .emailLike => "email_like".toList
    | .phoneLike => "phone_like".toList
    | .ipLike => "ip_like".toList
    | .suspectedPerson => "suspected_person".toList
    | .suspectedOrganization => "suspected_organization".toList
    | .addressLike => "address_like".toList
    | .sourceName => "source_name".toList
    | .localPath => "local_path".toList
    | .ocrConfusable => "ocr_confusable".toList
    | .brokenPlaceholder => "broken_placeholder".toList
    | .aliasInconsistency => "alias_inconsistency".toList
  all :=
    [.dictionarySubject, .identityLike, .longDigitSequence, .emailLike, .phoneLike, .ipLike,
    .suspectedPerson, .suspectedOrganization, .addressLike, .sourceName, .localPath,
    .ocrConfusable, .brokenPlaceholder, .aliasInconsistency]
  complete value := by cases value <;> decide
  distinct := by decide

instance : Fintype ResidualRiskClass :=
  Fintype.ofList ResidualRiskClass.variants.all ResidualRiskClass.variants.complete

/-- `ResidualHitV1`. -/
structure ResidualHit where
  pageIndex : UInt32
  startOffset : UInt32
  endOffset : UInt32
  riskClass : ResidualRiskClass
  entityType : Option EntityType
  blocking : Bool
  reasonCode : Text
  deriving DecidableEq

/-- `IndependentResidualScanReportV1`. -/
structure IndependentResidualScanReport where
  schemaVersion : Text
  passed : Bool
  hits : List ResidualHit
  counts : ResidualRiskClass → Option UInt32
  scannedPageCount : UInt32
  evidenceHash : Sha256Hex
  deriving DecidableEq

/-- `IndependentResidualError`. -/
inductive IndependentResidualError where
  | invalidInput
  | patternUnavailable
  | hitLimitExceeded
  | evidenceFailed
  deriving DecidableEq

/-- `INDEPENDENT_RESIDUAL_SCAN_VERSION`. -/
def independentResidualScanVersion : Text := "independent-residual-scan-v2".toList

/-- `MAX_RESIDUAL_HITS`. -/
def maxResidualHits : Nat := 100000

/-- The codec of hits. -/
def ResidualHit.codec : Codec ResidualHit :=
  Fields.record
    ((Fields.one "pageIndex" Codec.u32).also <|
      (Fields.one "startOffset" Codec.u32).also <|
      (Fields.one "endOffset" Codec.u32).also <|
      (Fields.one "riskClass" (Codec.variants ResidualRiskClass.variants)).also <|
      (Fields.one "entityType" (Codec.variants EntityType.variants).option).also <|
      (Fields.one "blocking" Codec.bool).also (Fields.one "reasonCode" Codec.text))
    (by decide)
    (fun (pageIndex, startOffset, endOffset, riskClass, entityType, blocking, reasonCode) =>
      { pageIndex, startOffset, endOffset, riskClass, entityType, blocking, reasonCode })
    (fun hit => (hit.pageIndex, hit.startOffset, hit.endOffset, hit.riskClass, hit.entityType,
      hit.blocking, hit.reasonCode))
    (fun _ => rfl)

/-- The fields of a report which its hash covers. -/
def residualClaims : Fields (Text × Bool × List ResidualHit × (ResidualRiskClass → Option UInt32) ×
    UInt32) :=
  (Fields.one "schemaVersion" Codec.text).also <|
    (Fields.one "passed" Codec.bool).also <|
    (Fields.one "hits" ResidualHit.codec.list).also <|
    (Fields.one "counts" (Codec.enumMap ResidualRiskClass.variants Codec.u32)).also
      (Fields.one "scannedPageCount" Codec.u32)

/-- How many hits there are of each class. -/
def countHits (hits : List ResidualHit) : ResidualRiskClass → Option UInt32 :=
  hits.foldl
    (fun counts hit => Function.update counts hit.riskClass
      (some (saturatingNext ((counts hit.riskClass).getD 0))))
    fun _ => none

section Hash

variable (sha256Hex : Octets → Sha256Hex)

/-- The hash over the fields of a report. -/
def residualEvidence (passed : Bool) (hits : List ResidualHit)
    (counts : ResidualRiskClass → Option UInt32) (scannedPageCount : UInt32) :
    Except IndependentResidualError Sha256Hex :=
  match canonicalJsonV1 (.object (residualClaims.write
    (independentResidualScanVersion, passed, hits, counts, scannedPageCount))) with
  | .ok canonical => .ok (sha256Hex canonical)
  | .error _ => .error .evidenceFailed

/-- `IndependentResidualScanReportV1::validate`. -/
def IndependentResidualScanReport.validate (report : IndependentResidualScanReport) :
    Except IndependentResidualError Unit := do
  refuseIf (report.schemaVersion ≠ independentResidualScanVersion ∨ report.scannedPageCount = 0 ∨
    maxResidualHits < report.hits.length ∨
    report.hits.any (fun hit =>
      hit.startOffset ≥ hit.endOffset || hit.pageIndex ≥ report.scannedPageCount ||
      hit.reasonCode.isEmpty || 128 < Text.byteLength hit.reasonCode ||
      hit.reasonCode.any Text.isControl)) .evidenceFailed
  refuseIf (countHits report.hits ≠ report.counts ∨
    report.passed ≠ report.hits.all fun hit => !hit.blocking) .evidenceFailed
  let expected ← residualEvidence sha256Hex report.passed report.hits report.counts
    report.scannedPageCount
  refuseIf (expected ≠ report.evidenceHash) .evidenceFailed

end Hash

/-! ## Scanning -/

/-- `ResidualDictionaryTermV1`. -/
structure ResidualDictionaryTerm where
  entityType : EntityType
  primaryValue : Text
  variants : List Text
  expectedAlias : Text

/-- `IndependentResidualScanInputV1`. -/
structure IndependentResidualScanInput where
  pages : List Text
  dictionaryTerms : List ResidualDictionaryTerm
  sourceNames : List Text

/-- `Pattern`. -/
structure Pattern where
  riskClass : ResidualRiskClass
  entityType : Option EntityType
  expression : Text
  reason : Text
  blocking : Bool

/-- `PATTERNS`. -/
def patterns : List Pattern :=
  [{ riskClass := .identityLike, entityType := some .identityNumber, blocking := true,
      expression :=
        "(?i)(?:^|[^0-9A-Z])[1-9][0-9]\x7b16\x7d[0-9X](?:$|[^0-9A-Z])".toList,
      reason := "residual_identity_like".toList },
   { riskClass := .longDigitSequence, entityType := none, blocking := true,
      expression :=
        "(?:^|[^0-9])[0-9](?:[ -]?[0-9])\x7b7,24\x7d(?:$|[^0-9])".toList,
      reason := "residual_long_digit_sequence".toList },
   { riskClass := .emailLike, entityType := some .emailAddress, blocking := true,
      expression :=
        "(?i)[A-Z0-9._%+-]\x7b1,64\x7d@[A-Z0-9.-]\x7b1,190\x7d\\.[A-Z]\x7b2,24\x7d".toList,
      reason := "residual_email_like".toList },
   { riskClass := .phoneLike, entityType := some .phoneNumber, blocking := true,
      expression :=
        ("(?:^|[^0-9])(?:1[3-9][0-9]\x7b9\x7d|0[0-9]\x7b2,3\x7d[ -]?[0-9]\x7b7,8\x7d)(?:" ++
      "$|[^0-9])").toList,
      reason := "residual_phone_like".toList },
   { riskClass := .ipLike, entityType := some .ipAddress, blocking := true,
      expression :=
        "(?:^|[^0-9.])[0-9]\x7b1,3\x7d(?:\\.[0-9]\x7b1,3\x7d)\x7b3\x7d(?:$|[^0-9.])".toList,
      reason := "residual_ip_like".toList },
   { riskClass := .localPath, entityType := none, blocking := true,
      expression :=
        ("(?i)(?:[A-Z]:[\\\\/](?:[^\\s<>:\\\"|?*]+[\\\\/])+|/(?:Users|home|var|tmp)/[^\\" ++
      "s]+)").toList,
      reason := "residual_local_path".toList },
   { riskClass := .suspectedOrganization, entityType := some .organizationName, blocking := false,
      expression :=
        ("[\\x\x7b4e00\x7d-\\x\x7b9fff\x7d]\x7b2,40\x7d(?:\\x\x7b516c\x7d\\x\x7b53f8\x7d" ++
      "|\\x\x7b6cd5\x7d\\x\x7b9662\x7d|\\x\x7b68c0\x7d\\x\x7b5bdf\x7d\\x\x7b9662\x7d|" ++
      "\\x\x7b5f8b\x7d\\x\x7b5e08\x7d\\x\x7b4e8b\x7d\\x\x7b52a1\x7d\\x\x7b6240\x7d|\\" ++
      "x\x7b59d4\x7d\\x\x7b5458\x7d\\x\x7b4f1a\x7d|\\x\x7b5c40\x7d)").toList,
      reason := "residual_suspected_organization".toList },
   { riskClass := .addressLike, entityType := some .address, blocking := false,
      expression :=
        ("[\\x\x7b4e00\x7d-\\x\x7b9fff\x7dA-Za-z0-9]\x7b6,100\x7d(?:\\x\x7b7701\x7d|\\x" ++
      "\x7b5e02\x7d|\\x\x7b533a\x7d|\\x\x7b53bf\x7d|\\x\x7b8857\x7d\\x\x7b9053\x7d|\\" ++
      "x\x7b8def\x7d|\\x\x7b8857\x7d|\\x\x7b5df7\x7d|\\x\x7b5f04\x7d|\\x\x7b53f7\x7d|" ++
      "\\x\x7b5ba4\x7d)").toList,
      reason := "residual_address_like".toList }]

/-- `push_hit`. -/
def pushHit (pageIndex : UInt32) (start stop : Nat) (riskClass : ResidualRiskClass)
    (entityType : Option EntityType) (blocking : Bool) (reasonCode : Text)
    (hits : List ResidualHit) : Except IndependentResidualError (List ResidualHit) := do
  refuseIf (maxResidualHits ≤ hits.length ∨ stop ≤ start) .hitLimitExceeded
  let startOffset ← presentOr (toUInt32 start) .invalidInput
  let endOffset ← presentOr (toUInt32 stop) .invalidInput
  let hit : ResidualHit :=
    { pageIndex, startOffset, endOffset, riskClass, entityType, blocking, reasonCode }
  pure (hits ++ [hit])

/-- The hits of the patterns on a page. -/
def scanPatterns (findIter : Text → Text → List (Nat × Nat)) (page : Text) (pageIndex : UInt32)
    (hits : List ResidualHit) : Except IndependentResidualError (List ResidualHit) :=
  patterns.foldlM (fun hits pattern =>
    (findIter pattern.expression page).foldlM (fun hits matched =>
      pushHit pageIndex matched.1 matched.2 pattern.riskClass pattern.entityType pattern.blocking
        pattern.reason hits) hits) hits

/-- `scan_dictionary`. -/
def scanDictionary (page : Text) (pageIndex : UInt32) (terms : List ResidualDictionaryTerm)
    (hits : List ResidualHit) : Except IndependentResidualError (List ResidualHit) :=
  terms.foldlM (fun hits term => do
    refuseIf (Text.trim term.primaryValue = [] ∨ 512 < Text.byteLength term.primaryValue ∨
      32 < term.variants.length ∨ Text.trim term.expectedAlias = []) .invalidInput
    (term.primaryValue :: term.variants).foldlM (fun hits value =>
      (Text.matchIndices value 0 0 page).foldlM (fun hits start =>
        pushHit pageIndex start (start + Text.byteLength value) .dictionarySubject
          (some term.entityType) true "residual_dictionary_subject".toList hits) hits) hits) hits

/-- The last part of a name of a file. -/
def leafName (name : Text) : Text :=
  Text.trim (name.reverse.takeWhile fun character => character != '/' && character != '\\').reverse

/-- `scan_source_names`. -/
def scanSourceNames (page : Text) (pageIndex : UInt32) (sourceNames : List Text)
    (hits : List ResidualHit) : Except IndependentResidualError (List ResidualHit) :=
  sourceNames.foldlM (fun hits name =>
    let leaf := leafName name
    if Text.byteLength leaf < 3 ∨ 512 < Text.byteLength leaf ∨ leaf.any Text.isControl = true then
      pure hits
    else
      (Text.matchIndices leaf 0 0 page).foldlM (fun hits start =>
        pushHit pageIndex start (start + Text.byteLength leaf) .sourceName none true
          "residual_source_name".toList hits) hits) hits

/-- `scan_placeholders`: brackets which are not closed. -/
def scanDelimiters (page : Text) (pageIndex : UInt32) (hits : List ResidualHit) :
    Except IndependentResidualError (List ResidualHit) :=
  if page.count '[' ≠ page.count ']' ∨ page.count '\u3010' ≠ page.count '\u3011' then
    pushHit pageIndex 0 (min (Text.byteLength page) 1) .brokenPlaceholder none true
      "placeholder_delimiter_unbalanced".toList hits
  else pure hits

/-- `scan_placeholders`: aliases which more than one term has. -/
def scanAliases (page : Text) (pageIndex : UInt32) (terms : List ResidualDictionaryTerm)
    (hits : List ResidualHit) : Except IndependentResidualError (List ResidualHit) :=
  let aliases := (terms.map ResidualDictionaryTerm.expectedAlias).dedup
  if aliases.length ≠ terms.length then
    pushHit pageIndex 0 (min (Text.byteLength page) 1) .aliasInconsistency none true
      "dictionary_alias_not_unique".toList hits
  else pure hits

/-- `scan_placeholders`. -/
def scanPlaceholders (page : Text) (pageIndex : UInt32) (terms : List ResidualDictionaryTerm)
    (hits : List ResidualHit) : Except IndependentResidualError (List ResidualHit) := do
  let hits ← scanDelimiters page pageIndex hits
  scanAliases page pageIndex terms hits

/-- The characters of a text with their byte positions. -/
def charIndices (offset : Nat) : Text → List (Nat × Char)
  | [] => []
  | character :: rest => (offset, character) :: charIndices (offset + character.utf8Size) rest

/-- `scan_confusables`. -/
def scanConfusables (page : Text) (pageIndex : UInt32) (hits : List ResidualHit) :
    Except IndependentResidualError (List ResidualHit) :=
  (charIndices 0 page).foldlM (fun hits (start, character) =>
    if ('\uff10' ≤ character ∧ character ≤ '\uff19') ∨ character = '\uff38' ∨
        character = '\uff58' then
      pushHit pageIndex start (start + character.utf8Size) .ocrConfusable none false
        "ocr_confusable_requires_review".toList hits
    else pure hits) hits

/-- The order of hits: by page, by position, then by class. -/
def hitOrder (left right : ResidualHit) : Ordering :=
  (compare left.pageIndex.toNat right.pageIndex.toNat).then <|
    (compare left.startOffset.toNat right.startOffset.toNat).then <|
    (compare left.endOffset.toNat right.endOffset.toNat).then <|
    compare (ResidualRiskClass.variants.all.idxOf left.riskClass)
      (ResidualRiskClass.variants.all.idxOf right.riskClass)

/-- `Vec::dedup`. -/
def dedupAdjacent {α : Type} [DecidableEq α] : List α → List α
  | first :: second :: rest =>
      if first = second then dedupAdjacent (second :: rest)
      else first :: dedupAdjacent (second :: rest)
  | items => items

/-- The hits of one page. -/
def scanPage (findIter : Text → Text → List (Nat × Nat)) (input : IndependentResidualScanInput)
    (hits : List ResidualHit) (indexed : Text × Nat) :
    Except IndependentResidualError (List ResidualHit) := do
  let pageIndex ← presentOr (toUInt32 indexed.2) .invalidInput
  let hits ← scanPatterns findIter indexed.1 pageIndex hits
  let hits ← scanDictionary indexed.1 pageIndex input.dictionaryTerms hits
  let hits ← scanSourceNames indexed.1 pageIndex input.sourceNames hits
  let hits ← scanPlaceholders indexed.1 pageIndex input.dictionaryTerms hits
  scanConfusables indexed.1 pageIndex hits

/-- `scan_independent_residuals`. -/
def scanIndependentResiduals (sha256Hex : Octets → Sha256Hex)
    (findIter : Text → Text → List (Nat × Nat)) (input : IndependentResidualScanInput) :
    Except IndependentResidualError IndependentResidualScanReport := do
  refuseIf (input.pages = [] ∨ 100000 < input.pages.length ∨ 4096 < input.dictionaryTerms.length ∨
    256 < input.sourceNames.length) .invalidInput
  let hits ← input.pages.zipIdx.foldlM (scanPage findIter input) []
  let hits := dedupAdjacent (hits.insertionSort fun left right => hitOrder left right ≠ .gt)
  let counts := countHits hits
  let scannedPageCount ← presentOr (toUInt32 input.pages.length) .invalidInput
  let passed := hits.all fun hit => !hit.blocking
  let evidenceHash ← residualEvidence sha256Hex passed hits counts scannedPageCount
  pure { schemaVersion := independentResidualScanVersion, passed, hits, counts, scannedPageCount,
         evidenceHash }

/-! ## Hits of a report -/

/-- The reason of a page which is redacted with an alias of more than one term. -/
def sharedAlias : Text := "dictionary_alias_not_unique".toList

/-- Aliases are shared when there are fewer of them than terms. -/
theorem length_dedup_ne_iff {aliases : List Text} :
    aliases.dedup.length ≠ aliases.length ↔ ¬ aliases.Nodup := by
  rw [not_iff_not]
  constructor
  · intro same
    rw [← (List.dedup_sublist aliases).eq_of_length same]
    exact List.nodup_dedup aliases
  · intro distinct
    rw [distinct.dedup]

/-- Removing repetitions keeps what occurs. -/
theorem mem_dedupAdjacent {α : Type} [DecidableEq α] {items : List α} {item : α} :
    item ∈ dedupAdjacent items ↔ item ∈ items := by
  fun_induction dedupAdjacent items with
  | case1 first rest inductionHypothesis =>
      rw [inductionHypothesis, List.mem_cons (a := item) (l := first :: rest)]
      exact ⟨.inr, fun among => among.elim (fun same => same ▸ List.mem_cons_self) id⟩
  | case2 first second rest different inductionHypothesis =>
      rw [List.mem_cons, inductionHypothesis, List.mem_cons (l := second :: rest)]
  | case3 items => rfl

end LawyerAssistance.Privacy

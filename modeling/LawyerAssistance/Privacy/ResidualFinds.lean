import LawyerAssistance.Privacy.ResidualScan
import LawyerAssistance.Std.Slices

/-!
# What a residual scan finds

The scanners push what they find on a page one after another, so a scan is one pass over the finds
of all pages. It returns a report exactly when its input is admitted, every find has a range which
can be pushed and the finds are not too many.
-/

namespace LawyerAssistance.Privacy

/-! ## Finds -/

/-- What a scanner finds on a page. -/
structure Find where
  start : Nat
  stop : Nat
  riskClass : ResidualRiskClass
  entityType : Option EntityType
  blocking : Bool
  reasonCode : Text
  deriving DecidableEq

/-- The hit of a find on a page. -/
def Find.hit (pageIndex : UInt32) (find : Find) : ResidualHit :=
  { pageIndex, startOffset := UInt32.ofNat find.start, endOffset := UInt32.ofNat find.stop
    riskClass := find.riskClass, entityType := find.entityType, blocking := find.blocking
    reasonCode := find.reasonCode }

/-- A find with a range which is not empty and ends within 32 bits. -/
structure Find.Pushable (find : Find) : Prop where
  nonempty : find.start < find.stop
  fits : find.stop < 2 ^ 32

/-- Push the finds of a page one after another. -/
def pushAll (pageIndex : UInt32) (finds : List Find) (hits : List ResidualHit) :
    Except IndependentResidualError (List ResidualHit) :=
  finds.foldlM (fun hits find => pushHit pageIndex find.start find.stop find.riskClass
    find.entityType find.blocking find.reasonCode hits) hits

/-- A find of a value which a dictionary or a name has. -/
def Find.ofValue (value : Text) (riskClass : ResidualRiskClass) (entityType : Option EntityType)
    (reasonCode : String) (start : Nat) : Find :=
  { start, stop := start + Text.byteLength value, riskClass, entityType, blocking := true
    reasonCode := reasonCode.toList }

/-- What the patterns find on a page. -/
def patternFinds (findIter : Text → Text → List (Nat × Nat)) (page : Text) : List Find :=
  patterns.flatMap fun pattern => (findIter pattern.expression page).map fun matched =>
    { start := matched.1, stop := matched.2, riskClass := pattern.riskClass
      entityType := pattern.entityType, blocking := pattern.blocking, reasonCode := pattern.reason }

/-- The values of a term. -/
def ResidualDictionaryTerm.values (term : ResidualDictionaryTerm) : List Text :=
  term.primaryValue :: term.variants

/-- What the dictionary finds on a page. -/
def dictionaryFinds (page : Text) (terms : List ResidualDictionaryTerm) : List Find :=
  terms.flatMap fun term => term.values.flatMap fun value => (Text.matchIndices value 0 0 page).map
    (Find.ofValue value .dictionarySubject (some term.entityType) "residual_dictionary_subject")

/-- A name of a file which is looked for. -/
def isScannedLeaf (leaf : Text) : Bool :=
  !(decide (Text.byteLength leaf < 3) || decide (512 < Text.byteLength leaf) ||
    leaf.any Text.isControl)

/-- The names of the sources which are looked for. -/
def scannedLeaves (sourceNames : List Text) : List Text :=
  (sourceNames.map leafName).filter isScannedLeaf

/-- What the names of the sources find on a page. -/
def sourceFinds (page : Text) (sourceNames : List Text) : List Find :=
  (scannedLeaves sourceNames).flatMap fun leaf => (Text.matchIndices leaf 0 0 page).map
    (Find.ofValue leaf .sourceName none "residual_source_name")

/-- A find which stands for a whole page. -/
def Find.ofPage (page : Text) (riskClass : ResidualRiskClass) (reasonCode : String) : Find :=
  { start := 0, stop := min (Text.byteLength page) 1, riskClass, entityType := none
    blocking := true, reasonCode := reasonCode.toList }

/-- A page with as many opening brackets as closing ones. -/
def Balanced (page : Text) : Prop :=
  page.count '[' = page.count ']' ∧ page.count '\u3010' = page.count '\u3011'

instance (page : Text) : Decidable (Balanced page) := inferInstanceAs (Decidable (_ ∧ _))

/-- What is found on a page with brackets which are not closed. -/
def delimiterFinds (page : Text) : List Find :=
  if Balanced page then []
  else [.ofPage page .brokenPlaceholder "placeholder_delimiter_unbalanced"]

/-- Terms with an alias each. -/
def DistinctAliases (terms : List ResidualDictionaryTerm) : Prop :=
  (terms.map ResidualDictionaryTerm.expectedAlias).Nodup

instance (terms : List ResidualDictionaryTerm) : Decidable (DistinctAliases terms) :=
  inferInstanceAs (Decidable (List.Nodup _))

/-- What is found on a page when terms share an alias. -/
def aliasFinds (page : Text) (terms : List ResidualDictionaryTerm) : List Find :=
  if DistinctAliases terms then []
  else [.ofPage page .aliasInconsistency "dictionary_alias_not_unique"]

/-- A character which a reader of scans takes for another one. -/
def isConfusable (character : Char) : Bool :=
  (decide ('\uff10' ≤ character) && decide (character ≤ '\uff19')) || character == '\uff38' ||
    character == '\uff58'

/-- The characters of a page which have to be reviewed. -/
def confusableFinds (page : Text) : List Find :=
  ((charIndices 0 page).filter fun indexed => isConfusable indexed.2).map fun (start, character) =>
    { start, stop := start + character.utf8Size, riskClass := .ocrConfusable, entityType := none
      blocking := false, reasonCode := "ocr_confusable_requires_review".toList }

/-- What is found on a page. -/
def pageFinds (findIter : Text → Text → List (Nat × Nat)) (input : IndependentResidualScanInput)
    (page : Text) : List Find :=
  patternFinds findIter page ++ (dictionaryFinds page input.dictionaryTerms ++
    (sourceFinds page input.sourceNames ++ (delimiterFinds page ++
      (aliasFinds page input.dictionaryTerms ++ confusableFinds page))))

/-! ## Scans as lists of finds -/

section Pushing

variable {pageIndex : UInt32} {finds others : List Find} {hits result : List ResidualHit}

theorem pushAll_append : pushAll pageIndex (finds ++ others) hits =
    pushAll pageIndex finds hits >>= pushAll pageIndex others :=
  List.foldlM_append

/-- A find is pushed when its range allows it and there is room. -/
theorem pushHit_eq_ok {find : Find} :
    pushHit pageIndex find.start find.stop find.riskClass find.entityType find.blocking
        find.reasonCode hits = .ok result ↔
      find.Pushable ∧ hits.length < maxResidualHits ∧ result = hits ++ [find.hit pageIndex] := by
  have offset {value : Nat} {found : UInt32} : toUInt32 value = some found ↔
      value < 2 ^ 32 ∧ UInt32.ofNat value = found := by
    rw [toUInt32]
    split_ifs with fits
    · rw [Option.some_inj]
      exact (and_iff_right fits).symm
    · exact ⟨nofun, fun found => absurd found.1 fits⟩
  rw [pushHit, refuseIf_bind_eq_ok, not_or, Nat.not_le, Nat.not_le]
  constructor
  · rintro ⟨⟨room, nonempty⟩, pushed⟩
    obtain ⟨startOffset, first, pushed⟩ := bind_eq_ok.mp pushed
    obtain ⟨endOffset, last, pushed⟩ := bind_eq_ok.mp pushed
    cases pushed
    obtain ⟨_, rfl⟩ := offset.mp (presentOr_eq_ok.mp first)
    obtain ⟨fits, rfl⟩ := offset.mp (presentOr_eq_ok.mp last)
    exact ⟨⟨nonempty, fits⟩, room, rfl⟩
  · rintro ⟨⟨nonempty, fits⟩, room, rfl⟩
    refine ⟨⟨room, nonempty⟩, bind_eq_ok.mpr ⟨_, presentOr_eq_ok.mpr
      (offset.mpr ⟨nonempty.trans fits, rfl⟩), bind_eq_ok.mpr ⟨_, presentOr_eq_ok.mpr
      (offset.mpr ⟨fits, rfl⟩), rfl⟩⟩⟩

/-- Finds are pushed when each can be and there is room for all of them. -/
theorem pushAll_eq_ok (room : hits.length ≤ maxResidualHits) :
    pushAll pageIndex finds hits = .ok result ↔
      (∀ find ∈ finds, find.Pushable) ∧ hits.length + finds.length ≤ maxResidualHits ∧
        result = hits ++ finds.map (Find.hit pageIndex) := by
  induction finds generalizing hits with
  | nil =>
      rw [pushAll, List.foldlM_nil, List.map_nil, List.append_nil]
      constructor
      · intro same
        cases same
        exact ⟨nofun, room, rfl⟩
      · rintro ⟨_, _, rfl⟩
        rfl
  | cons find rest inductionHypothesis =>
      rw [pushAll, List.foldlM_cons, bind_eq_ok, List.forall_mem_cons]
      constructor
      · rintro ⟨middle, first, others⟩
        obtain ⟨pushable, less, rfl⟩ := pushHit_eq_ok.mp first
        have roomBehind : (hits ++ [find.hit pageIndex]).length ≤ maxResidualHits := by
          rw [List.length_append, List.length_singleton]
          omega
        obtain ⟨each, fits, rfl⟩ := (inductionHypothesis roomBehind).mp others
        rw [List.length_append, List.length_singleton] at fits
        refine ⟨⟨pushable, each⟩, ?_, by rw [List.map_cons, List.append_assoc]; rfl⟩
        rw [List.length_cons]
        omega
      · rintro ⟨⟨pushable, each⟩, fits, rfl⟩
        rw [List.length_cons] at fits
        have grown : (hits ++ [find.hit pageIndex]).length = hits.length + 1 := by
          rw [List.length_append, List.length_singleton]
        refine ⟨_, pushHit_eq_ok.mpr ⟨pushable, by omega, rfl⟩,
          (inductionHypothesis (by omega)).mpr ⟨each, by omega, ?_⟩⟩
        rw [List.map_cons, List.append_assoc]
        rfl

end Pushing

section Scanners

variable {findIter : Text → Text → List (Nat × Nat)} {page : Text} {pageIndex : UInt32}
  {terms : List ResidualDictionaryTerm} {sourceNames : List Text} {hits result : List ResidualHit}

theorem scanPatterns_eq : scanPatterns findIter page pageIndex hits =
    pushAll pageIndex (patternFinds findIter page) hits := by
  simp only [scanPatterns, pushAll, patternFinds, foldlM_flatMap, List.foldlM_map]

/-- What the scan of a dictionary requires of a term. -/
structure ResidualDictionaryTerm.Admitted (term : ResidualDictionaryTerm) : Prop where
  valued : Text.trim term.primaryValue ≠ []
  short : Text.byteLength term.primaryValue ≤ 512
  few : term.variants.length ≤ 32
  named : Text.trim term.expectedAlias ≠ []

/-- A dictionary is scanned when its terms are admitted. -/
theorem scanDictionary_eq_ok : scanDictionary page pageIndex terms hits = .ok result ↔
    (∀ term ∈ terms, term.Admitted) ∧
      pushAll pageIndex (dictionaryFinds page terms) hits = .ok result := by
  have values (term : ResidualDictionaryTerm) (hits : List ResidualHit) :
      (term.primaryValue :: term.variants).foldlM (fun hits value =>
        (Text.matchIndices value 0 0 page).foldlM (fun hits start =>
          pushHit pageIndex start (start + Text.byteLength value) .dictionarySubject
            (some term.entityType) true "residual_dictionary_subject".toList hits) hits) hits =
      pushAll pageIndex (dictionaryFinds page [term]) hits := by
    simp only [pushAll, dictionaryFinds, List.flatMap_singleton, foldlM_flatMap, List.foldlM_map]
    rfl
  induction terms generalizing hits with
  | nil => exact (and_iff_right (by simp)).symm
  | cons term rest inductionHypothesis =>
      have parts : dictionaryFinds page (term :: rest) =
          dictionaryFinds page [term] ++ dictionaryFinds page rest := by
        simp only [dictionaryFinds, List.flatMap_cons, List.flatMap_nil, List.append_nil]
      rw [scanDictionary, List.foldlM_cons, List.forall_mem_cons, parts, pushAll_append,
        bind_eq_ok, bind_eq_ok]
      constructor
      · rintro ⟨middle, first, others⟩
        obtain ⟨admitted, pushed⟩ := refuseIf_bind_eq_ok.mp first
        obtain ⟨each, pushedRest⟩ := inductionHypothesis.mp others
        rw [values] at pushed
        rw [not_or, not_or, not_or, Nat.not_lt, Nat.not_lt] at admitted
        obtain ⟨valued, short, few, named⟩ := admitted
        exact ⟨⟨⟨valued, short, few, named⟩, each⟩, middle, pushed, pushedRest⟩
      · rintro ⟨⟨⟨valued, short, few, named⟩, each⟩, middle, pushed, pushedRest⟩
        refine ⟨middle, refuseIf_bind_eq_ok.mpr ⟨?_, ?_⟩, inductionHypothesis.mpr
          ⟨each, pushedRest⟩⟩
        · rw [not_or, not_or, not_or, Nat.not_lt, Nat.not_lt]
          exact ⟨valued, short, few, named⟩
        · rw [values]
          exact pushed

theorem scanSourceNames_eq : scanSourceNames page pageIndex sourceNames hits =
    pushAll pageIndex (sourceFinds page sourceNames) hits := by
  induction sourceNames generalizing hits with
  | nil => rfl
  | cons name rest inductionHypothesis =>
      rw [scanSourceNames, List.foldlM_cons]
      by_cases scanned : isScannedLeaf (leafName name) = true
      · have kept : sourceFinds page (name :: rest) =
            (Text.matchIndices (leafName name) 0 0 page).map (Find.ofValue (leafName name)
              .sourceName none "residual_source_name") ++ sourceFinds page rest := by
          rw [sourceFinds, scannedLeaves, List.map_cons, List.filter_cons_of_pos scanned,
            List.flatMap_cons]
          rfl
        have plain : ¬ (Text.byteLength (leafName name) < 3 ∨
            512 < Text.byteLength (leafName name) ∨ (leafName name).any Text.isControl = true) := by
          simpa [isScannedLeaf, and_assoc] using scanned
        rw [kept, pushAll_append, pushAll, List.foldlM_map]
        dsimp only
        rw [if_neg plain]
        exact congrArg _ (funext fun _ => inductionHypothesis)
      · have skipped : sourceFinds page (name :: rest) = sourceFinds page rest := by
          rw [sourceFinds, scannedLeaves, List.map_cons, List.filter_cons_of_neg scanned]
          rfl
        have refused : Text.byteLength (leafName name) < 3 ∨
            512 < Text.byteLength (leafName name) ∨ (leafName name).any Text.isControl = true := by
          simpa [isScannedLeaf, or_assoc, or_iff_not_imp_left] using scanned
        rw [skipped]
        dsimp only
        rw [if_pos refused]
        exact inductionHypothesis

theorem scanDelimiters_eq : scanDelimiters page pageIndex hits =
    pushAll pageIndex (delimiterFinds page) hits := by
  rw [scanDelimiters, delimiterFinds]
  by_cases balanced : Balanced page
  · rw [if_pos balanced, if_neg (by simpa [Balanced, not_or] using balanced)]
    rfl
  · rw [if_neg balanced, if_pos (by simpa only [Balanced, not_and_or] using balanced), pushAll,
      List.foldlM_cons]
    exact (bind_pure _).symm

theorem scanAliases_eq : scanAliases page pageIndex terms hits =
    pushAll pageIndex (aliasFinds page terms) hits := by
  have shared : (terms.map ResidualDictionaryTerm.expectedAlias).dedup.length ≠ terms.length ↔
      ¬ DistinctAliases terms := by
    rw [DistinctAliases, ← length_dedup_ne_iff, List.length_map]
  rw [scanAliases, aliasFinds]
  by_cases distinct : DistinctAliases terms
  · rw [if_pos distinct, if_neg (fun other => shared.mp other distinct)]
    rfl
  · rw [if_neg distinct, if_pos (shared.mpr distinct), pushAll, List.foldlM_cons]
    exact (bind_pure _).symm

theorem scanConfusables_eq : scanConfusables page pageIndex hits =
    pushAll pageIndex (confusableFinds page) hits := by
  rw [scanConfusables, confusableFinds]
  generalize charIndices 0 page = indices
  induction indices generalizing hits with
  | nil => rfl
  | cons indexed rest inductionHypothesis =>
      rw [List.foldlM_cons]
      have same : (('\uff10' ≤ indexed.2 ∧ indexed.2 ≤ '\uff19') ∨ indexed.2 = '\uff38' ∨
          indexed.2 = '\uff58') ↔ isConfusable indexed.2 = true := by
        simp [isConfusable, or_assoc]
      dsimp only
      by_cases confusable : isConfusable indexed.2 = true
      · have kept : (indexed :: rest).filter (fun indexed => isConfusable indexed.2) =
            indexed :: rest.filter fun indexed => isConfusable indexed.2 :=
          List.filter_cons_of_pos confusable
        rw [if_pos (same.mpr confusable), kept, List.map_cons, pushAll, List.foldlM_cons]
        exact congrArg _ (funext fun _ => inductionHypothesis)
      · have skipped : (indexed :: rest).filter (fun indexed => isConfusable indexed.2) =
            rest.filter fun indexed => isConfusable indexed.2 :=
          List.filter_cons_of_neg confusable
        rw [if_neg (fun other => confusable (same.mp other)), skipped]
        exact inductionHypothesis

/-- A page is scanned when its index and the terms are admitted. -/
theorem scanPage_eq_ok {input : IndependentResidualScanInput} {indexed : Text × Nat} :
    scanPage findIter input hits indexed = .ok result ↔
      indexed.2 < 2 ^ 32 ∧ (∀ term ∈ input.dictionaryTerms, term.Admitted) ∧
      pushAll (UInt32.ofNat indexed.2) (pageFinds findIter input indexed.1) hits = .ok result := by
  have index {found : UInt32} : toUInt32 indexed.2 = some found ↔
      indexed.2 < 2 ^ 32 ∧ UInt32.ofNat indexed.2 = found := by
    rw [toUInt32]
    split_ifs with fits
    · rw [Option.some_inj]
      exact (and_iff_right fits).symm
    · exact ⟨nofun, fun found => absurd found.1 fits⟩
  have placeholders (pageIndex : UInt32) (hits : List ResidualHit) :
      scanPlaceholders indexed.1 pageIndex input.dictionaryTerms hits =
        pushAll pageIndex (delimiterFinds indexed.1) hits >>=
          pushAll pageIndex (aliasFinds indexed.1 input.dictionaryTerms) := by
    rw [scanPlaceholders, scanDelimiters_eq]
    exact congrArg _ (funext fun _ => scanAliases_eq)
  rw [scanPage, bind_eq_ok, pageFinds, pushAll_append, bind_eq_ok]
  constructor
  · rintro ⟨pageIndex, place, scanned⟩
    obtain ⟨fits, rfl⟩ := index.mp (presentOr_eq_ok.mp place)
    obtain ⟨afterPatterns, first, scanned⟩ := bind_eq_ok.mp scanned
    obtain ⟨afterTerms, second, scanned⟩ := bind_eq_ok.mp scanned
    obtain ⟨admitted, pushed⟩ := scanDictionary_eq_ok.mp second
    obtain ⟨afterNames, third, scanned⟩ := bind_eq_ok.mp scanned
    obtain ⟨afterBrackets, fourth, last⟩ := bind_eq_ok.mp scanned
    rw [placeholders] at fourth
    obtain ⟨between, delimiters, aliases⟩ := bind_eq_ok.mp fourth
    refine ⟨fits, admitted, afterPatterns, scanPatterns_eq ▸ first, ?_⟩
    rw [pushAll_append, pushed, ok_bind, pushAll_append, ← scanSourceNames_eq, third, ok_bind,
      pushAll_append, delimiters, ok_bind, pushAll_append, aliases, ok_bind, ← scanConfusables_eq]
    exact last
  · rintro ⟨fits, admitted, afterPatterns, first, pushed⟩
    rw [pushAll_append] at pushed
    obtain ⟨afterTerms, second, pushed⟩ := bind_eq_ok.mp pushed
    rw [pushAll_append] at pushed
    obtain ⟨afterNames, third, pushed⟩ := bind_eq_ok.mp pushed
    rw [pushAll_append] at pushed
    obtain ⟨between, delimiters, pushed⟩ := bind_eq_ok.mp pushed
    rw [pushAll_append] at pushed
    obtain ⟨afterBrackets, aliases, last⟩ := bind_eq_ok.mp pushed
    refine ⟨_, presentOr_eq_ok.mpr (index.mpr ⟨fits, rfl⟩), ?_⟩
    rw [scanPatterns_eq, first, ok_bind, scanDictionary_eq_ok.mpr ⟨admitted, second⟩, ok_bind,
      scanSourceNames_eq, third, ok_bind, placeholders, delimiters, ok_bind, aliases, ok_bind,
      scanConfusables_eq]
    exact last

end Scanners

/-! ## Reasons -/

/-- The reasons which a scan gives. -/
def scanReasons : List Text :=
  patterns.map Pattern.reason ++ ["residual_dictionary_subject".toList,
    "residual_source_name".toList, "placeholder_delimiter_unbalanced".toList, sharedAlias,
    "ocr_confusable_requires_review".toList]

/-- What is found has one of these reasons. -/
theorem mem_scanReasons {findIter : Text → Text → List (Nat × Nat)}
    {input : IndependentResidualScanInput} {page : Text} {find : Find}
    (found : find ∈ pageFinds findIter input page) : find.reasonCode ∈ scanReasons := by
  have tail : ∀ reason ∈ ["residual_dictionary_subject".toList, "residual_source_name".toList,
      "placeholder_delimiter_unbalanced".toList, sharedAlias,
      "ocr_confusable_requires_review".toList], reason ∈ scanReasons :=
    fun reason among => List.mem_append_right _ among
  simp only [List.forall_mem_cons, List.not_mem_nil, false_imp_iff, implies_true, and_true] at tail
  obtain ⟨subject, name, delimiter, shared, confusable⟩ := tail
  simp only [pageFinds, List.mem_append] at found
  obtain inPatterns | inTerms | inNames | atDelimiters | atAliases | inCharacters := found
  · obtain ⟨pattern, among, inPattern⟩ := List.mem_flatMap.mp inPatterns
    obtain ⟨matched, _, rfl⟩ := List.mem_map.mp inPattern
    exact List.mem_append_left _ (List.mem_map_of_mem among)
  · obtain ⟨term, _, inTerm⟩ := List.mem_flatMap.mp inTerms
    obtain ⟨value, _, inValue⟩ := List.mem_flatMap.mp inTerm
    obtain ⟨start, _, rfl⟩ := List.mem_map.mp inValue
    exact subject
  · obtain ⟨leaf, _, inLeaf⟩ := List.mem_flatMap.mp inNames
    obtain ⟨start, _, rfl⟩ := List.mem_map.mp inLeaf
    exact name
  · rw [delimiterFinds] at atDelimiters
    split_ifs at atDelimiters
    · cases atDelimiters
    · rw [List.mem_singleton.mp atDelimiters]
      exact delimiter
  · rw [aliasFinds] at atAliases
    split_ifs at atAliases
    · cases atAliases
    · rw [List.mem_singleton.mp atAliases]
      exact shared
  · obtain ⟨indexed, _, rfl⟩ := List.mem_map.mp inCharacters
    exact confusable

/-! ## Reports -/

/-- What a scan requires of its input. -/
structure IndependentResidualScanInput.Admitted (input : IndependentResidualScanInput) : Prop where
  paged : input.pages ≠ []
  pages : input.pages.length ≤ 100000
  terms : input.dictionaryTerms.length ≤ 4096
  names : input.sourceNames.length ≤ 256
  each : ∀ term ∈ input.dictionaryTerms, term.Admitted

/-- The hits on pages with an index each, as they are found. -/
def indexedHits (findIter : Text → Text → List (Nat × Nat)) (input : IndependentResidualScanInput)
    (pages : List (Text × Nat)) : List ResidualHit :=
  pages.flatMap fun indexed =>
    (pageFinds findIter input indexed.1).map (Find.hit (UInt32.ofNat indexed.2))

/-- The hits of an input, as they are found. -/
def foundHits (findIter : Text → Text → List (Nat × Nat)) (input : IndependentResidualScanInput) :
    List ResidualHit :=
  indexedHits findIter input input.pages.zipIdx

/-- The hits of a report. -/
def reportedHits (findIter : Text → Text → List (Nat × Nat))
    (input : IndependentResidualScanInput) : List ResidualHit :=
  dedupAdjacent ((foundHits findIter input).insertionSort fun left right =>
    hitOrder left right ≠ .gt)

/-- The report with an evidence hash. -/
def reportOf (findIter : Text → Text → List (Nat × Nat)) (input : IndependentResidualScanInput)
    (evidenceHash : Sha256Hex) : IndependentResidualScanReport :=
  { schemaVersion := independentResidualScanVersion
    passed := (reportedHits findIter input).all fun hit => !hit.blocking
    hits := reportedHits findIter input, counts := countHits (reportedHits findIter input)
    scannedPageCount := UInt32.ofNat input.pages.length, evidenceHash }

section Reports

variable {sha256Hex : Octets → Sha256Hex} {findIter : Text → Text → List (Nat × Nat)}
  {input : IndependentResidualScanInput} {report : IndependentResidualScanReport}

/-- The pages are scanned when what is found on each can be pushed. -/
theorem foldlM_scanPage_eq_ok {pages : List (Text × Nat)} {hits result : List ResidualHit}
    (admitted : ∀ term ∈ input.dictionaryTerms, term.Admitted)
    (indexed : ∀ indexed ∈ pages, indexed.2 < 2 ^ 32) (room : hits.length ≤ maxResidualHits) :
    pages.foldlM (scanPage findIter input) hits = .ok result ↔
      (∀ indexed ∈ pages, ∀ find ∈ pageFinds findIter input indexed.1, find.Pushable) ∧
      hits.length + (indexedHits findIter input pages).length ≤ maxResidualHits ∧
      result = hits ++ indexedHits findIter input pages := by
  induction pages generalizing hits with
  | nil =>
      rw [List.foldlM_nil, indexedHits, List.flatMap_nil, List.append_nil]
      constructor
      · intro same
        cases same
        exact ⟨nofun, room, rfl⟩
      · rintro ⟨_, _, rfl⟩
        rfl
  | cons page rest inductionHypothesis =>
      rw [List.forall_mem_cons] at indexed
      have parts : indexedHits findIter input (page :: rest) =
          (pageFinds findIter input page.1).map (Find.hit (UInt32.ofNat page.2)) ++
            indexedHits findIter input rest := List.flatMap_cons
      have grown : (hits ++ (pageFinds findIter input page.1).map
          (Find.hit (UInt32.ofNat page.2))).length =
          hits.length + (pageFinds findIter input page.1).length := by
        rw [List.length_append, List.length_map]
      rw [List.foldlM_cons, bind_eq_ok, List.forall_mem_cons, parts, List.length_append,
        List.length_map]
      constructor
      · rintro ⟨middle, first, others⟩
        obtain ⟨_, _, pushed⟩ := scanPage_eq_ok.mp first
        obtain ⟨pushable, fits, rfl⟩ := (pushAll_eq_ok room).mp pushed
        obtain ⟨each, fitsAll, rfl⟩ :=
          (inductionHypothesis indexed.2 (by omega)).mp others
        exact ⟨⟨pushable, each⟩, by omega, List.append_assoc _ _ _⟩
      · rintro ⟨⟨pushable, each⟩, fits, rfl⟩
        refine ⟨_, scanPage_eq_ok.mpr ⟨indexed.1, admitted, (pushAll_eq_ok room).mpr
          ⟨pushable, by omega, rfl⟩⟩, (inductionHypothesis indexed.2 (by omega)).mpr
          ⟨each, by omega, (List.append_assoc _ _ _).symm⟩⟩

theorem lt_of_mem_zipIdx (few : input.pages.length ≤ 100000) :
    ∀ indexed ∈ input.pages.zipIdx, indexed.2 < 2 ^ 32 := by
  intro indexed among
  have inside := List.snd_lt_of_mem_zipIdx among
  omega

/-- What holds of the pages holds of the pages with their indices. -/
theorem forall_mem_zipIdx {pages : List Text} {holds : Text → Prop} :
    (∀ indexed ∈ pages.zipIdx, holds indexed.1) ↔ ∀ page ∈ pages, holds page := by
  conv_rhs => rw [← List.zipIdx_map_fst 0 pages, List.forall_mem_map]

theorem exists_of_mem_foundHits {hit : ResidualHit} (found : hit ∈ foundHits findIter input) :
    ∃ indexed ∈ input.pages.zipIdx, ∃ find ∈ pageFinds findIter input indexed.1,
      hit = find.hit (UInt32.ofNat indexed.2) := by
  obtain ⟨indexed, among, inPage⟩ := List.mem_flatMap.mp found
  obtain ⟨find, inside, rfl⟩ := List.mem_map.mp inPage
  exact ⟨indexed, among, find, inside, rfl⟩

theorem mem_foundHits {indexed : Text × Nat} {find : Find} (among : indexed ∈ input.pages.zipIdx)
    (found : find ∈ pageFinds findIter input indexed.1) :
    find.hit (UInt32.ofNat indexed.2) ∈ foundHits findIter input :=
  List.mem_flatMap.mpr ⟨indexed, among, List.mem_map_of_mem found⟩

theorem mem_reportedHits {hit : ResidualHit} :
    hit ∈ reportedHits findIter input ↔ hit ∈ foundHits findIter input := by
  rw [reportedHits, mem_dedupAdjacent, List.mem_insertionSort]

/-- The hits of a report have an evidence hash. -/
theorem exists_residualEvidence (sha256Hex : Octets → Sha256Hex) (passed : Bool)
    {hits : List ResidualHit} (reasons : ∀ hit ∈ hits, hit.reasonCode ∈ scanReasons)
    (counts : ResidualRiskClass → Option UInt32) (pageCount : UInt32) :
    ∃ evidenceHash, residualEvidence sha256Hex passed hits counts pageCount = .ok evidenceHash := by
  have names : ["schemaVersion", "passed", "hits", "counts", "scannedPageCount", "pageIndex",
      "startOffset", "endOffset", "riskClass", "entityType", "blocking", "reasonCode"].all
      (fun name => !name.toList.any Text.isControl) = true := by decide
  simp only [List.all_cons, List.all_nil, Bool.and_eq_true, Bool.not_eq_true', Bool.and_true]
    at names
  obtain ⟨schemaVersion, passedName, hitsName, countsName, scannedPageCount, pageIndex,
    startOffset, endOffset, riskClass, entityType, blocking, reasonCode⟩ := names
  have classes (riskClass : ResidualRiskClass) :
      (ResidualRiskClass.variants.name riskClass).any Text.isControl = false := by
    cases riskClass <;> decide
  have types (entity : EntityType) :
      (EntityType.variants.name entity).any Text.isControl = false := by
    cases entity <;> decide
  have codes : scanReasons.all (fun reason => !reason.any Text.isControl) = true := by decide
  have printable : (Value.object (residualClaims.write
      (independentResidualScanVersion, passed, hits, counts, pageCount))).Printable := by
    refine ⟨schemaVersion, show independentResidualScanVersion.any Text.isControl = false by decide,
      passedName, trivial, hitsName, ?_, countsName, ?_, scannedPageCount, trivial, trivial⟩
    · refine printableAll_iff.mpr fun value among => ?_
      obtain ⟨hit, inside, rfl⟩ := List.mem_map.mp among
      have reason := List.all_eq_true.mp codes _ (reasons hit inside)
      rw [Bool.not_eq_true'] at reason
      refine ⟨pageIndex, trivial, startOffset, trivial, endOffset, trivial, riskClass,
        classes hit.riskClass, entityType, ?_, blocking, trivial, reasonCode, reason, trivial⟩
      show (((Codec.variants EntityType.variants).option _).write hit.entityType).Printable
      cases hit.entityType with
      | none => trivial
      | some entity => exact types entity
    · refine printableMembers_iff.mpr fun member among => ?_
      obtain ⟨riskClass, count, _, rfl⟩ := Codec.mem_mapMembers.mp among
      exact ⟨classes riskClass, trivial⟩
  obtain ⟨bytes, encoded⟩ := exists_canonicalJsonV1 printable
  exact ⟨sha256Hex bytes, by rw [residualEvidence, encoded]⟩

/-- What a scan returns, and when. -/
theorem scanIndependentResiduals_eq_ok :
    scanIndependentResiduals sha256Hex findIter input = .ok report ↔
      input.Admitted ∧
      (∀ page ∈ input.pages, ∀ find ∈ pageFinds findIter input page, find.Pushable) ∧
      (foundHits findIter input).length ≤ maxResidualHits ∧
      ∃ evidenceHash, residualEvidence sha256Hex (reportOf findIter input evidenceHash).passed
          (reportedHits findIter input) (countHits (reportedHits findIter input))
          (UInt32.ofNat input.pages.length) = .ok evidenceHash ∧
        report = reportOf findIter input evidenceHash := by
  have counted (few : input.pages.length ≤ 100000) :
      toUInt32 input.pages.length = some (UInt32.ofNat input.pages.length) := by
    rw [toUInt32, if_pos (by omega)]
  rw [scanIndependentResiduals, refuseIf_bind_eq_ok, not_or, not_or, not_or, Nat.not_lt,
    Nat.not_lt, Nat.not_lt]
  constructor
  · rintro ⟨⟨paged, pages, terms, names⟩, scanned⟩
    obtain ⟨hits, found, scanned⟩ := bind_eq_ok.mp scanned
    have indexed := lt_of_mem_zipIdx pages
    -- A page is scanned, so the terms are admitted.
    have each : ∀ term ∈ input.dictionaryTerms, term.Admitted := by
      obtain ⟨first, rest, parts⟩ := List.exists_cons_of_ne_nil
        (show input.pages.zipIdx ≠ [] by simpa using paged)
      rw [parts, List.foldlM_cons] at found
      obtain ⟨_, scannedFirst, _⟩ := bind_eq_ok.mp found
      exact (scanPage_eq_ok.mp scannedFirst).2.1
    obtain ⟨pushable, fits, rfl⟩ :=
      (foldlM_scanPage_eq_ok each indexed (Nat.zero_le _)).mp found
    rw [List.length_nil, Nat.zero_add] at fits
    rw [List.nil_append] at scanned
    obtain ⟨pageCount, size, scanned⟩ := bind_eq_ok.mp scanned
    rw [presentOr_eq_ok, counted pages, Option.some_inj] at size
    obtain ⟨evidenceHash, hashed, scanned⟩ := bind_eq_ok.mp scanned
    cases size
    cases scanned
    exact ⟨⟨paged, pages, terms, names, each⟩, forall_mem_zipIdx.mp pushable, fits, evidenceHash,
      hashed, rfl⟩
  · rintro ⟨⟨paged, pages, terms, names, each⟩, pushable, fits, evidenceHash, hashed, rfl⟩
    refine ⟨⟨paged, pages, terms, names⟩, bind_eq_ok.mpr ⟨foundHits findIter input,
      (foldlM_scanPage_eq_ok each (lt_of_mem_zipIdx pages) (Nat.zero_le _)).mpr
        ⟨forall_mem_zipIdx.mpr pushable, (Nat.zero_add _).trans_le fits, rfl⟩, bind_eq_ok.mpr
      ⟨_, presentOr_eq_ok.mpr (counted pages), bind_eq_ok.mpr ⟨evidenceHash, hashed, rfl⟩⟩⟩⟩

/-- What is found on a page with the reason of a shared alias shows that there is one. -/
theorem not_distinctAliases_of_mem {page : Text} {find : Find}
    (found : find ∈ pageFinds findIter input page) (reason : find.reasonCode = sharedAlias) :
    ¬ DistinctAliases input.dictionaryTerms := by
  have others : patterns.all (fun pattern => pattern.reason != sharedAlias) = true := by decide
  simp only [pageFinds, List.mem_append] at found
  obtain inPatterns | inTerms | inNames | atDelimiters | atAliases | inCharacters := found
  · obtain ⟨pattern, among, inPattern⟩ := List.mem_flatMap.mp inPatterns
    obtain ⟨matched, _, rfl⟩ := List.mem_map.mp inPattern
    exact absurd reason (bne_iff_ne.mp (List.all_eq_true.mp others pattern among))
  · obtain ⟨term, _, inTerm⟩ := List.mem_flatMap.mp inTerms
    obtain ⟨value, _, inValue⟩ := List.mem_flatMap.mp inTerm
    obtain ⟨start, _, rfl⟩ := List.mem_map.mp inValue
    exact absurd reason (show "residual_dictionary_subject".toList ≠ sharedAlias by decide)
  · obtain ⟨leaf, _, inLeaf⟩ := List.mem_flatMap.mp inNames
    obtain ⟨start, _, rfl⟩ := List.mem_map.mp inLeaf
    exact absurd reason (show "residual_source_name".toList ≠ sharedAlias by decide)
  · rw [delimiterFinds] at atDelimiters
    split_ifs at atDelimiters
    · cases atDelimiters
    · rw [List.mem_singleton.mp atDelimiters] at reason
      exact absurd reason (show "placeholder_delimiter_unbalanced".toList ≠ sharedAlias by decide)
  · rw [aliasFinds] at atAliases
    split_ifs at atAliases with distinct
    · cases atAliases
    · exact distinct
  · obtain ⟨indexed, _, rfl⟩ := List.mem_map.mp inCharacters
    exact absurd reason (show "ocr_confusable_requires_review".toList ≠ sharedAlias by decide)

/-- A report names a shared alias exactly when two of the terms have the same. -/
theorem scan_reports_sharedAlias
    (scanned : scanIndependentResiduals sha256Hex findIter input = .ok report) :
    (∃ hit ∈ report.hits, hit.reasonCode = sharedAlias) ↔
      ¬ (input.dictionaryTerms.map ResidualDictionaryTerm.expectedAlias).Nodup := by
  obtain ⟨admitted, _, _, evidenceHash, _, rfl⟩ := scanIndependentResiduals_eq_ok.mp scanned
  constructor
  · rintro ⟨hit, among, reason⟩
    obtain ⟨_, _, find, found, rfl⟩ := exists_of_mem_foundHits (mem_reportedHits.mp among)
    exact not_distinctAliases_of_mem found reason
  · intro (shared : ¬ DistinctAliases input.dictionaryTerms)
    obtain ⟨indexed, among⟩ := List.exists_mem_of_ne_nil _
      (show input.pages.zipIdx ≠ [] by simpa using admitted.paged)
    have found : Find.ofPage indexed.1 .aliasInconsistency "dictionary_alias_not_unique" ∈
        pageFinds findIter input indexed.1 := by
      simp only [pageFinds, List.mem_append]
      refine .inr (.inr (.inr (.inr (.inl ?_))))
      rw [aliasFinds, if_neg shared]
      exact List.mem_singleton_self _
    exact ⟨_, mem_reportedHits.mpr (mem_foundHits among found), rfl⟩

end Reports

end LawyerAssistance.Privacy

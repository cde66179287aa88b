import LawyerAssistance.Privacy.ResidualFinds

/-!
# Residual scans are sound

A report on admitted pages is valid and names ranges of its pages, and pages which pass hold no
value of the dictionary and no scanned name. What stands for a whole page is the range of its first
byte: there is none on an empty page, and it is no range of characters when the first one is wider.
-/

namespace LawyerAssistance.Privacy

/-! ## Ranges -/

/-- A range of characters of a page. -/
structure IsRange (page : Text) (start stop : Nat) : Prop where
  nonempty : start < stop
  first : Text.isCharBoundary page start = true
  last : Text.isCharBoundary page stop = true

/-- What the matcher promises of the patterns: a match is a range of characters, and as no pattern
matches the empty text, it is not empty. -/
def MatchesRanges (findIter : Text → Text → List (Nat × Nat)) : Prop :=
  ∀ pattern ∈ patterns, ∀ page, ∀ matched ∈ findIter pattern.expression page,
    IsRange page matched.1 matched.2

/-- A page whose first character has one byte. -/
def StartsNarrow (page : Text) : Prop := page.head?.map Char.utf8Size = some 1

instance (page : Text) : Decidable (StartsNarrow page) :=
  inferInstanceAs (Decidable (_ = _))

/-- What is found on a page ends before the byte `2 ^ 32`. -/
structure EndsInRange (findIter : Text → Text → List (Nat × Nat))
    (input : IndependentResidualScanInput) (page : Text) : Prop where
  patterns : ∀ pattern ∈ patterns, ∀ matched ∈ findIter pattern.expression page,
    matched.2 < 2 ^ 32
  values : ∀ term ∈ input.dictionaryTerms, ∀ value ∈ term.values,
    ∀ start ∈ Text.matchIndices value 0 0 page, start + Text.byteLength value < 2 ^ 32
  names : ∀ leaf ∈ scannedLeaves input.sourceNames, ∀ start ∈ Text.matchIndices leaf 0 0 page,
    start + Text.byteLength leaf < 2 ^ 32
  characters : ∀ indexed ∈ charIndices 0 page, isConfusable indexed.2 = true →
    indexed.1 + indexed.2.utf8Size < 2 ^ 32

section Ranges

variable {page value : Text} {start : Nat}

/-- An occurrence is a range. -/
theorem isRange_of_mem_matchIndices (valued : value ≠ [])
    (found : start ∈ Text.matchIndices value 0 0 page) :
    IsRange page start (start + Text.byteLength value) := by
  obtain ⟨before, after, rfl, place⟩ := Text.exists_of_mem_matchIndices valued found
  rw [Nat.zero_add] at place
  subst place
  refine ⟨Nat.lt_add_of_pos_right (Text.byteLength_pos valued), ?_, ?_⟩
  · exact Text.isCharBoundary_eq_true.mpr ⟨before, value ++ after, List.append_assoc _ _ _, rfl⟩
  · exact Text.isCharBoundary_eq_true.mpr
      ⟨before ++ value, after, rfl, (Text.byteLength_append _ _).symm⟩

/-- A character stands behind as many bytes as its position. -/
theorem exists_of_mem_charIndices {offset : Nat} {indexed : Nat × Char}
    (among : indexed ∈ charIndices offset page) : ∃ before after,
      page = before ++ indexed.2 :: after ∧ indexed.1 = offset + Text.byteLength before := by
  induction page generalizing offset with
  | nil => cases among
  | cons character rest inductionHypothesis =>
      obtain rfl | inRest := List.mem_cons.mp among
      · exact ⟨[], rest, rfl, rfl⟩
      · obtain ⟨before, after, rfl, place⟩ := inductionHypothesis inRest
        refine ⟨character :: before, after, rfl, ?_⟩
        rw [place, Text.byteLength_cons, Nat.add_assoc]

/-- A character is a range. -/
theorem isRange_of_mem_charIndices {indexed : Nat × Char} (among : indexed ∈ charIndices 0 page) :
    IsRange page indexed.1 (indexed.1 + indexed.2.utf8Size) := by
  obtain ⟨before, after, rfl, place⟩ := exists_of_mem_charIndices among
  rw [Nat.zero_add] at place
  rw [place]
  refine ⟨Nat.lt_add_of_pos_right indexed.2.utf8Size_pos, ?_, ?_⟩
  · exact Text.isCharBoundary_eq_true.mpr ⟨before, indexed.2 :: after, rfl, rfl⟩
  · refine Text.isCharBoundary_eq_true.mpr ⟨before ++ [indexed.2], after, by simp, ?_⟩
    rw [Text.byteLength_append, Text.byteLength_cons, Text.byteLength_nil, Nat.add_zero]

/-- The first byte of a page is a range exactly when it is its first character. -/
theorem isRange_first_iff :
    IsRange page 0 (min (Text.byteLength page) 1) ↔ StartsNarrow page := by
  constructor
  · rintro ⟨nonempty, _, last⟩
    have one : min (Text.byteLength page) 1 = 1 := by omega
    rw [one] at last
    obtain ⟨before, after, rfl, size⟩ := Text.isCharBoundary_eq_true.mp last
    cases before with
    | nil => cases size
    | cons character before =>
        have positive := character.utf8Size_pos
        rw [Text.byteLength_cons] at size
        exact congrArg some (show character.utf8Size = 1 by omega)
  · intro narrow
    cases page with
    | nil => cases narrow
    | cons character rest =>
        have size : character.utf8Size = 1 := Option.some.inj narrow
        have one : min (Text.byteLength (character :: rest)) 1 = 1 := by
          rw [Text.byteLength_cons]
          omega
        rw [one]
        refine ⟨Nat.one_pos, rfl, Text.isCharBoundary_eq_true.mpr ⟨[character], rest, rfl, ?_⟩⟩
        rw [Text.byteLength_cons, size]
        rfl

end Ranges

/-! ## Finds -/

section Finds

variable {findIter : Text → Text → List (Nat × Nat)} {input : IndependentResidualScanInput}
  {page : Text} {find : Find}

theorem ne_nil_of_mem_scannedLeaves {leaf : Text} {sourceNames : List Text}
    (among : leaf ∈ scannedLeaves sourceNames) : leaf ≠ [] := by
  rintro rfl
  cases (List.mem_filter.mp among).2

/-- What is found on a page is a range of it, or stands for the page. -/
theorem range_of_mem_pageFinds (regex : MatchesRanges findIter)
    (valued : ∀ term ∈ input.dictionaryTerms, [] ∉ term.values)
    (found : find ∈ pageFinds findIter input page) :
    IsRange page find.start find.stop ∨
      (¬ Balanced page ∨ ¬ DistinctAliases input.dictionaryTerms) ∧
        find.start = 0 ∧ find.stop = min (Text.byteLength page) 1 := by
  simp only [pageFinds, List.mem_append] at found
  obtain inPatterns | inTerms | inNames | atDelimiters | atAliases | inCharacters := found
  · obtain ⟨pattern, among, inPattern⟩ := List.mem_flatMap.mp inPatterns
    obtain ⟨matched, inside, rfl⟩ := List.mem_map.mp inPattern
    exact .inl (regex pattern among page matched inside)
  · obtain ⟨term, among, inTerm⟩ := List.mem_flatMap.mp inTerms
    obtain ⟨value, amongValues, inValue⟩ := List.mem_flatMap.mp inTerm
    obtain ⟨start, inside, rfl⟩ := List.mem_map.mp inValue
    exact .inl (isRange_of_mem_matchIndices
      (fun empty => valued term among (empty ▸ amongValues)) inside)
  · obtain ⟨leaf, among, inLeaf⟩ := List.mem_flatMap.mp inNames
    obtain ⟨start, inside, rfl⟩ := List.mem_map.mp inLeaf
    exact .inl (isRange_of_mem_matchIndices (ne_nil_of_mem_scannedLeaves among) inside)
  · rw [delimiterFinds] at atDelimiters
    split_ifs at atDelimiters with balanced
    · cases atDelimiters
    · rw [List.mem_singleton.mp atDelimiters]
      exact .inr ⟨.inl balanced, rfl, rfl⟩
  · rw [aliasFinds] at atAliases
    split_ifs at atAliases with distinct
    · cases atAliases
    · rw [List.mem_singleton.mp atAliases]
      exact .inr ⟨.inr distinct, rfl, rfl⟩
  · obtain ⟨indexed, among, rfl⟩ := List.mem_map.mp inCharacters
    exact .inl (isRange_of_mem_charIndices (List.mem_of_mem_filter among))

/-- What is found on a page ends in range exactly when every find does. -/
theorem endsInRange_iff : EndsInRange findIter input page ↔
    ∀ find ∈ pageFinds findIter input page, find.stop < 2 ^ 32 := by
  have first : min (Text.byteLength page) 1 < 2 ^ 32 := by omega
  constructor
  · intro ends find found
    simp only [pageFinds, List.mem_append] at found
    obtain inPatterns | inTerms | inNames | atDelimiters | atAliases | inCharacters := found
    · obtain ⟨pattern, among, inPattern⟩ := List.mem_flatMap.mp inPatterns
      obtain ⟨matched, inside, rfl⟩ := List.mem_map.mp inPattern
      exact ends.patterns pattern among matched inside
    · obtain ⟨term, among, inTerm⟩ := List.mem_flatMap.mp inTerms
      obtain ⟨value, amongValues, inValue⟩ := List.mem_flatMap.mp inTerm
      obtain ⟨start, inside, rfl⟩ := List.mem_map.mp inValue
      exact ends.values term among value amongValues start inside
    · obtain ⟨leaf, among, inLeaf⟩ := List.mem_flatMap.mp inNames
      obtain ⟨start, inside, rfl⟩ := List.mem_map.mp inLeaf
      exact ends.names leaf among start inside
    · rw [delimiterFinds] at atDelimiters
      split_ifs at atDelimiters
      · cases atDelimiters
      · rw [List.mem_singleton.mp atDelimiters]
        exact first
    · rw [aliasFinds] at atAliases
      split_ifs at atAliases
      · cases atAliases
      · rw [List.mem_singleton.mp atAliases]
        exact first
    · obtain ⟨indexed, among, rfl⟩ := List.mem_map.mp inCharacters
      exact ends.characters indexed (List.mem_of_mem_filter among) (List.mem_filter.mp among).2
  · intro ends
    simp only [pageFinds, List.forall_mem_append] at ends
    obtain ⟨inPatterns, inTerms, inNames, _, _, inCharacters⟩ := ends
    constructor
    · intro pattern among matched inside
      exact inPatterns _ (List.mem_flatMap.mpr ⟨pattern, among, List.mem_map_of_mem inside⟩)
    · intro term among value amongValues start inside
      exact inTerms _ (List.mem_flatMap.mpr ⟨term, among,
        List.mem_flatMap.mpr ⟨value, amongValues, List.mem_map_of_mem inside⟩⟩)
    · intro leaf among start inside
      exact inNames _ (List.mem_flatMap.mpr ⟨leaf, among, List.mem_map_of_mem inside⟩)
    · intro indexed among confusable
      exact inCharacters _ (List.mem_map_of_mem (List.mem_filter.mpr ⟨among, confusable⟩))

/-- What stands for a whole page is found on it. -/
theorem exists_pageFind (findIter : Text → Text → List (Nat × Nat))
    (whole : ¬ Balanced page ∨ ¬ DistinctAliases input.dictionaryTerms) :
    ∃ find ∈ pageFinds findIter input page,
      find.start = 0 ∧ find.stop = min (Text.byteLength page) 1 := by
  simp only [pageFinds, List.mem_append]
  obtain unbalanced | shared := whole
  · refine ⟨.ofPage page .brokenPlaceholder "placeholder_delimiter_unbalanced",
      .inr (.inr (.inr (.inl ?_))), rfl, rfl⟩
    rw [delimiterFinds, if_neg unbalanced]
    exact List.mem_singleton_self _
  · refine ⟨.ofPage page .aliasInconsistency "dictionary_alias_not_unique",
      .inr (.inr (.inr (.inr (.inl ?_)))), rfl, rfl⟩
    rw [aliasFinds, if_neg shared]
    exact List.mem_singleton_self _

/-- A page with a value of the dictionary or a scanned name has a find which blocks. -/
theorem exists_blocking (findIter : Text → Text → List (Nat × Nat))
    (valued : ∀ term ∈ input.dictionaryTerms, [] ∉ term.values)
    {value : Text} (held : (∃ term ∈ input.dictionaryTerms, value ∈ term.values) ∨
      value ∈ scannedLeaves input.sourceNames)
    (occurs : value <:+: page) : ∃ find ∈ pageFinds findIter input page, find.blocking = true := by
  have matched (nonempty : value ≠ []) : ∃ start, start ∈ Text.matchIndices value 0 0 page :=
    List.exists_mem_of_ne_nil _ fun none => (Text.matchIndices_eq_nil nonempty).mp none occurs
  simp only [pageFinds, List.mem_append]
  obtain ⟨term, among, amongValues⟩ | leaf := held
  · obtain ⟨start, inside⟩ := matched fun empty => valued term among (empty ▸ amongValues)
    exact ⟨_, .inr (.inl (List.mem_flatMap.mpr ⟨term, among,
      List.mem_flatMap.mpr ⟨value, amongValues, List.mem_map_of_mem inside⟩⟩)), rfl⟩
  · obtain ⟨start, inside⟩ := matched (ne_nil_of_mem_scannedLeaves leaf)
    exact ⟨_, .inr (.inr (.inl (List.mem_flatMap.mpr
      ⟨value, leaf, List.mem_map_of_mem inside⟩))), rfl⟩

end Finds

/-! ## Reports -/

/-- A report which is valid, whose hits are ranges of their pages, and which passes only pages
without a value of the dictionary and without a scanned name. -/
structure SoundReport (sha256Hex : Octets → Sha256Hex) (input : IndependentResidualScanInput)
    (report : IndependentResidualScanReport) : Prop where
  ranges : ∀ hit ∈ report.hits, ∃ page, input.pages[hit.pageIndex.toNat]? = some page ∧
    IsRange page hit.startOffset.toNat hit.endOffset.toNat
  valid : report.validate sha256Hex = .ok ()
  clean : report.passed = true → ∀ page ∈ input.pages,
    (∀ term ∈ input.dictionaryTerms, ∀ value ∈ term.values, ¬ value <:+: page) ∧
      ∀ leaf ∈ scannedLeaves input.sourceNames, ¬ leaf <:+: page

/-- Removing repetitions leaves no more than there was. -/
theorem length_dedupAdjacent_le {α : Type} [DecidableEq α] (items : List α) :
    (dedupAdjacent items).length ≤ items.length := by
  fun_induction dedupAdjacent items with
  | case1 first rest inductionHypothesis =>
      rw [List.length_cons]
      omega
  | case2 first second rest different inductionHypothesis =>
      rw [List.length_cons, List.length_cons]
      omega
  | case3 items => exact Nat.le_refl _

section Reports

variable {sha256Hex : Octets → Sha256Hex} {findIter : Text → Text → List (Nat × Nat)}
  {input : IndependentResidualScanInput} {evidenceHash : Sha256Hex}

/-- The report over admitted pages is valid. -/
theorem validate_reportOf (admitted : input.Admitted)
    (pushable : ∀ page ∈ input.pages, ∀ find ∈ pageFinds findIter input page, find.Pushable)
    (few : (foundHits findIter input).length ≤ maxResidualHits)
    (hashed : residualEvidence sha256Hex (reportOf findIter input evidenceHash).passed
      (reportedHits findIter input) (countHits (reportedHits findIter input))
      (UInt32.ofNat input.pages.length) = .ok evidenceHash) :
    (reportOf findIter input evidenceHash).validate sha256Hex = .ok () := by
  have pages : (UInt32.ofNat input.pages.length).toNat = input.pages.length :=
    UInt32.toNat_ofNat_of_lt' (Nat.lt_of_le_of_lt admitted.pages (by decide))
  have positive : 0 < input.pages.length := List.length_pos_iff.mpr admitted.paged
  have codes : scanReasons.all (fun reason => !reason.isEmpty &&
      decide (Text.byteLength reason ≤ 128) && !reason.any Text.isControl) = true := by decide
  have ranges : ((reportedHits findIter input).any fun hit =>
      hit.startOffset ≥ hit.endOffset || hit.pageIndex ≥ UInt32.ofNat input.pages.length ||
      hit.reasonCode.isEmpty || 128 < Text.byteLength hit.reasonCode ||
      hit.reasonCode.any Text.isControl) = false := by
    rw [List.any_eq_false]
    intro hit among
    obtain ⟨indexed, place, find, found, rfl⟩ :=
      exists_of_mem_foundHits (mem_reportedHits.mp among)
    obtain ⟨nonempty, fits⟩ := pushable indexed.1 (List.fst_mem_of_mem_zipIdx place) find found
    have inside := List.snd_lt_of_mem_zipIdx place
    have small := lt_of_mem_zipIdx admitted.pages indexed place
    have code := List.all_eq_true.mp codes _ (mem_scanReasons found)
    simp only [Bool.and_eq_true, Bool.not_eq_true', decide_eq_true_eq] at code
    obtain ⟨⟨named, short⟩, printable⟩ := code
    have offsets : (UInt32.ofNat find.start) < UInt32.ofNat find.stop := by
      rw [UInt32.lt_iff_toNat_lt, UInt32.toNat_ofNat_of_lt' (nonempty.trans fits),
        UInt32.toNat_ofNat_of_lt' fits]
      exact nonempty
    have index : UInt32.ofNat indexed.2 < UInt32.ofNat input.pages.length := by
      rw [UInt32.lt_iff_toNat_lt, UInt32.toNat_ofNat_of_lt' small, pages]
      exact (Nat.zero_add input.pages.length) ▸ inside
    simp only [Find.hit, ge_iff_le, Bool.or_eq_true, decide_eq_true_eq, not_or, UInt32.not_le,
      Bool.not_eq_true]
    exact ⟨⟨⟨⟨offsets, index⟩, named⟩, decide_eq_false (Nat.not_lt.mpr short)⟩, printable⟩
  refine refuseIf_bind_eq_ok.mpr ⟨?_, refuseIf_bind_eq_ok.mpr ⟨?_, bind_eq_ok.mpr
    ⟨evidenceHash, hashed, refuseIf_eq_ok.mpr fun different => different rfl⟩⟩⟩
  · rw [not_or, not_or, not_or, Nat.not_lt, Bool.not_eq_true]
    refine ⟨fun different => different rfl, fun none => ?_, ?_, ranges⟩
    · have zero := congrArg UInt32.toNat none
      rw [show (reportOf findIter input evidenceHash).scannedPageCount =
        UInt32.ofNat input.pages.length from rfl, pages] at zero
      exact absurd zero (Nat.ne_of_gt positive)
    · refine (length_dedupAdjacent_le _).trans ?_
      rw [List.length_insertionSort]
      exact few
  · rw [not_or]
    exact ⟨fun different => different rfl, fun different => different rfl⟩

theorem getElem_of_mem_zipIdx {pages : List Text} {indexed : Text × Nat}
    (few : pages.length ≤ 100000) (among : indexed ∈ pages.zipIdx) :
    pages[(UInt32.ofNat indexed.2).toNat]? = some indexed.1 := by
  have inside := List.snd_lt_of_mem_zipIdx among
  rw [UInt32.toNat_ofNat_of_lt' (Nat.lt_of_lt_of_le inside (by simpa using few.trans (by decide)))]
  exact List.mem_zipIdx_iff_getElem?.mp among

/-- A scan which finds fewer than `MAX_RESIDUAL_HITS` hits is sound exactly when every page which
has a hit as a whole starts with a character of one byte, and no match ends at the byte `2 ^ 32` or
behind it. -/
theorem residual_scans_are_sound_iff (sha256Hex : Octets → Sha256Hex)
    (findIter : Text → Text → List (Nat × Nat)) (regex : MatchesRanges findIter)
    (input : IndependentResidualScanInput) (admitted : input.Admitted)
    (valued : ∀ term ∈ input.dictionaryTerms, [] ∉ term.values)
    (fewer : (foundHits findIter input).length < maxResidualHits) :
    (∃ report, scanIndependentResiduals sha256Hex findIter input = .ok report ∧
      SoundReport sha256Hex input report) ↔
    ∀ page ∈ input.pages, EndsInRange findIter input page ∧
      (¬ Balanced page ∨ ¬ DistinctAliases input.dictionaryTerms → StartsNarrow page) := by
  constructor
  · rintro ⟨report, scanned, sound⟩ page among
    obtain ⟨_, pushable, _, evidenceHash, _, rfl⟩ := scanIndependentResiduals_eq_ok.mp scanned
    refine ⟨endsInRange_iff.mpr fun find found => (pushable page among find found).fits, ?_⟩
    intro whole
    obtain ⟨find, found, start, stop⟩ := exists_pageFind findIter whole
    obtain ⟨indexed, place, rfl⟩ : ∃ indexed ∈ input.pages.zipIdx, indexed.1 = page := by
      rw [← List.mem_map, List.zipIdx_map_fst]
      exact among
    obtain ⟨page, here, range⟩ := sound.ranges _ (mem_reportedHits.mpr (mem_foundHits place found))
    rw [Find.hit, getElem_of_mem_zipIdx admitted.pages place, Option.some_inj] at here
    have fits := (pushable indexed.1 among find found).fits
    rw [Find.hit, start, UInt32.toNat_ofNat_of_lt' fits, stop, ← here] at range
    exact isRange_first_iff.mp range
  · intro pages
    have ranges : ∀ page ∈ input.pages, ∀ find ∈ pageFinds findIter input page,
        IsRange page find.start find.stop := by
      intro page among find found
      obtain range | ⟨whole, start, stop⟩ := range_of_mem_pageFinds regex valued found
      · exact range
      · rw [start, stop]
        exact isRange_first_iff.mpr ((pages page among).2 whole)
    have pushable : ∀ page ∈ input.pages, ∀ find ∈ pageFinds findIter input page,
        find.Pushable := fun page among find found =>
      ⟨(ranges page among find found).nonempty, endsInRange_iff.mp (pages page among).1 find found⟩
    obtain ⟨evidenceHash, hashed⟩ := exists_residualEvidence sha256Hex
      ((reportedHits findIter input).all fun hit => !hit.blocking)
      (fun hit among => by
        obtain ⟨_, _, find, found, rfl⟩ := exists_of_mem_foundHits (mem_reportedHits.mp among)
        exact mem_scanReasons found)
      (countHits (reportedHits findIter input)) (UInt32.ofNat input.pages.length)
    refine ⟨_, scanIndependentResiduals_eq_ok.mpr
      ⟨admitted, pushable, fewer.le, evidenceHash, hashed, rfl⟩, ?_, ?_, ?_⟩
    · intro hit among
      obtain ⟨indexed, place, find, found, rfl⟩ :=
        exists_of_mem_foundHits (mem_reportedHits.mp among)
      have page := List.fst_mem_of_mem_zipIdx place
      obtain ⟨nonempty, fits⟩ := pushable indexed.1 page find found
      refine ⟨indexed.1, getElem_of_mem_zipIdx admitted.pages place, ?_⟩
      rw [Find.hit, UInt32.toNat_ofNat_of_lt' (nonempty.trans fits),
        UInt32.toNat_ofNat_of_lt' fits]
      exact ranges indexed.1 page find found
    · exact validate_reportOf admitted pushable fewer.le hashed
    · intro passed page among
      have clean {value : Text} (held : (∃ term ∈ input.dictionaryTerms, value ∈ term.values) ∨
          value ∈ scannedLeaves input.sourceNames) : ¬ value <:+: page := by
        intro occurs
        obtain ⟨find, found, blocking⟩ := exists_blocking findIter valued held occurs
        obtain ⟨indexed, place, rfl⟩ : ∃ indexed ∈ input.pages.zipIdx, indexed.1 = page := by
          rw [← List.mem_map, List.zipIdx_map_fst]
          exact among
        have free := List.all_eq_true.mp passed _
          (mem_reportedHits.mpr (mem_foundHits place found))
        rw [Find.hit, blocking] at free
        cases free
      exact ⟨fun term amongTerms value amongValues => clean (.inl ⟨term, amongTerms, amongValues⟩),
        fun leaf amongNames => clean (.inr amongNames)⟩

end Reports

/-! ## Samples -/

/-- A term of the samples. -/
def sampleTerm (primaryValue : String) : ResidualDictionaryTerm :=
  { entityType := .personName, primaryValue := primaryValue.toList, variants := []
    expectedAlias := "[A]".toList }

/-- A redacted page with one term and one source. -/
def redactedInput : IndependentResidualScanInput :=
  { pages := ["[A] v. [B]".toList], dictionaryTerms := [sampleTerm "Zhang"]
    sourceNames := ["files/claim.docx".toList] }

/-- An empty page with two terms of one alias. -/
def sharedInput : IndependentResidualScanInput :=
  { pages := [[]], dictionaryTerms := [sampleTerm "Zhang", sampleTerm "Wang"], sourceNames := [] }

/-- A page of one bracket which has three bytes. -/
def bracketInput : IndependentResidualScanInput :=
  { pages := ["\u3010".toList], dictionaryTerms := [], sourceNames := [] }

theorem sampleTerm_admitted {primaryValue : String}
    (valued : Text.trim primaryValue.toList ≠ []) (short : Text.byteLength primaryValue.toList ≤ 512) :
    (sampleTerm primaryValue).Admitted :=
  ⟨valued, short, Nat.zero_le _, show Text.trim "[A]".toList ≠ [] by decide⟩

/-- The scan of a redacted page is sound. -/
theorem residual_scan_of_redacted_page : ∃ report,
    scanIndependentResiduals (fun _ => ⟨List.replicate 64 '0', by decide⟩) (fun _ _ => [])
      redactedInput = .ok report ∧
    SoundReport (fun _ => ⟨List.replicate 64 '0', by decide⟩) redactedInput report := by
  have nothing : pageFinds (fun _ _ => []) redactedInput "[A] v. [B]".toList = [] := by decide
  refine (residual_scans_are_sound_iff _ (fun _ _ => []) (fun _ _ _ _ => nofun) redactedInput
    ⟨by decide, by decide, by decide, by decide, ?_⟩ ?_ ?_).mpr ?_
  · intro term among
    rw [List.mem_singleton.mp among]
    exact sampleTerm_admitted (by decide) (by decide)
  · intro term among
    rw [List.mem_singleton.mp among]
    decide
  · exact (by decide : (foundHits (fun _ _ => []) redactedInput).length < 1).trans (by decide)
  · intro page among
    rw [List.mem_singleton.mp among]
    refine ⟨endsInRange_iff.mpr ?_, fun _ => by decide⟩
    rw [nothing]
    exact fun _ => nofun

/-- An empty page with a shared alias is refused as if it had too many hits. -/
theorem empty_page_is_refused : sharedInput.Admitted ∧
    (∀ term ∈ sharedInput.dictionaryTerms, [] ∉ term.values) ∧
    (foundHits (fun _ _ => []) sharedInput).length < maxResidualHits ∧
    scanIndependentResiduals (fun _ => ⟨List.replicate 64 '0', by decide⟩) (fun _ _ => [])
      sharedInput = .error .hitLimitExceeded := by
  refine ⟨⟨by decide, by decide, by decide, by decide, ?_⟩, ?_, ?_, rfl⟩
  · intro term among
    obtain rfl | among := List.mem_cons.mp among
    · exact sampleTerm_admitted (by decide) (by decide)
    · rw [List.mem_singleton.mp among]
      exact sampleTerm_admitted (by decide) (by decide)
  · intro term among
    obtain rfl | among := List.mem_cons.mp among
    · decide
    · rw [List.mem_singleton.mp among]
      decide
  · exact (by decide : (foundHits (fun _ _ => []) sharedInput).length < 2).trans (by decide)

/-- The hit of a page which starts with a bracket of three bytes ends inside of the bracket. -/
theorem hit_ends_inside_of_bracket :
    (scanIndependentResiduals (fun _ => ⟨List.replicate 64 '0', by decide⟩) (fun _ _ => [])
      bracketInput).toOption.any (fun report => report.hits.map
        (fun hit => (hit.startOffset, hit.endOffset)) == [(0, 1)]) = true ∧
    Text.isCharBoundary "\u3010".toList 1 = false := by
  constructor
  · decide
  · rfl

end LawyerAssistance.Privacy

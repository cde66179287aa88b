import LawyerAssistance.Retrieval.Dates
import LawyerAssistance.Retrieval.Listings

/-!
# Which version of a document is shown

The rule of the versions: a version is eligible when it is in effect at the date of the request
and has the standing which the scope asks for, and of the eligible versions of a document the one
with the greatest date and identifier is shown. The statements state the rule twice, and
`version_is_visible` asks for eligibility alone.
-/

namespace LawyerAssistance.Retrieval

/-- `version_is_visible`. -/
def versionIsVisible (corpus : Corpus) (today versionId : Text) (versionScope : VersionScope)
    (caseDate versionStatus : Option Text) : Except RetrievalError Bool := do
  let request : PagedSearchRequest :=
    { query := []
      matchMode := .all
      versionScope
      view := .flat
      documentId := none
      caseDate
      limit := 1
      offset := 0
      documentType := none
      effectivenessLevel := none
      jurisdiction := none
      status := none
      versionStatus
      sort := .relevance }
  validateVersionScope request
  pure (corpus.versions.any fun version =>
    version.id == versionId && versionVisible today request version)

/-! ## The rule -/

/-- The date at which a request looks at the versions. -/
def dateOf (today : Text) (request : PagedSearchRequest) : Text :=
  match request.versionScope with
  | .asOf => request.caseDate.getD []
  | .current | .all => today

/-- A version is in effect at a date: it begins at a date of the calendar which is not later, and
ends at none, or at one which is not earlier. -/
structure InEffectAt (date : Text) (version : LawVersion) : Prop where
  known : ∃ begins, WritesDate version.effectiveFrom begins
  begun : binaryCompare version.effectiveFrom date ≠ .gt
  lasting : ∀ bound, version.effectiveTo = some bound →
    (∃ ends, WritesDate bound ends) ∧ binaryCompare date bound ≠ .gt

/-- The standing which a scope asks of a version, and the status which a request filters. -/
def Standing (request : PagedSearchRequest) (version : LawVersion) : Prop :=
  (match request.versionScope with
  | .current => version.status = "in_force".toList
  | .asOf =>
      ¬ (version.status = "repealed".toList ∧ version.effectiveTo = none) ∧
        version.status ≠ "not_yet_effective".toList
  | .all => True) ∧
    ∀ status, request.versionStatus = some status → version.status = status

/-- A version which a request can see. -/
def Eligible (today : Text) (request : PagedSearchRequest) (version : LawVersion) : Prop :=
  InEffectAt (dateOf today request) version ∧ Standing request version

/-- A version has a greater date and identifier. -/
def Outranks (newer older : LawVersion) : Prop :=
  binaryCompare older.effectiveFrom newer.effectiveFrom = .lt ∨
    (newer.effectiveFrom = older.effectiveFrom ∧ binaryCompare older.id newer.id = .lt)

section Rule

variable (corpus : Corpus) (today : Text) (request : PagedSearchRequest)

/-- The greatest eligible version of its document. -/
def IsNewest (version : LawVersion) : Prop :=
  version ∈ corpus.versions ∧ Eligible today request version ∧
    ∀ other ∈ corpus.versions, other.documentId = version.documentId →
      Eligible today request other → other = version ∨ Outranks version other

/-- A version which the statements select. -/
def IsSelected (version : LawVersion) : Prop :=
  version ∈ corpus.versions ∧ versionVisible today request version = true ∧
    selectedVersion corpus today request version = true

/-- A version has an article of a document. -/
def HasArticle (version : LawVersion) : Prop :=
  ∃ article ∈ corpus.articles, article.versionId = version.id ∧
    ∃ document ∈ corpus.documents, document.id = article.documentId

/-- A search with the same view of the versions lists an article of the version. -/
def SearchReturns (unicode : UnicodeTables) (version : LawVersion) : Prop :=
  ∃ other : PagedSearchRequest, other.versionScope = request.versionScope ∧
    other.caseDate = request.caseDate ∧ other.versionStatus = request.versionStatus ∧
      ∃ row ∈ articleListing unicode corpus today other, row.version = version

end Rule

/-! ## Eligibility -/

section Eligibility

variable {corpus : Corpus} {today date : Text} {request other : PagedSearchRequest}
  {version : LawVersion}

/-- The predicate asks for the versions in effect. -/
theorem inEffect_iff : inEffect date version = true ↔ InEffectAt date version := by
  rw [inEffect, Bool.and_eq_true, Bool.and_eq_true, knownIsoDate_iff, textLe, decide_eq_true_eq]
  constructor
  · rintro ⟨⟨known, begun⟩, lasting⟩
    refine ⟨known, begun, fun bound same => ?_⟩
    rw [same, Option.all_some, Bool.and_eq_true, knownIsoDate_iff, textLe,
      decide_eq_true_eq] at lasting
    exact lasting
  · rintro ⟨known, begun, lasting⟩
    refine ⟨⟨known, begun⟩, ?_⟩
    cases same : version.effectiveTo with
    | none => rfl
    | some bound =>
        rw [Option.all_some, Bool.and_eq_true, knownIsoDate_iff, textLe, decide_eq_true_eq]
        exact lasting bound same

/-- The predicate of visibility asks for the eligible versions. -/
theorem versionVisible_iff (dated : request.versionScope ≠ .all) :
    versionVisible today request version = true ↔ Eligible today request version := by
  have asked : (request.versionStatus.all fun status => version.status == status) = true ↔
      ∀ status, request.versionStatus = some status → version.status = status := by
    cases request.versionStatus with
    | none => simp
    | some status => simp
  rw [versionVisible, Bool.and_eq_true, asked, Eligible, Standing, dateOf]
  cases scope : request.versionScope with
  | current =>
      dsimp only
      rw [Bool.and_eq_true, inEffect_iff, beq_iff_eq, and_assoc]
  | asOf =>
      dsimp only
      rw [Bool.and_eq_true, Bool.and_eq_true, inEffect_iff, Bool.not_eq_true', ← Bool.not_eq_true,
        Bool.and_eq_true, beq_iff_eq, Option.isNone_iff_eq_none, bne_iff_ne, and_assoc, and_assoc,
        and_assoc]
  | all => exact absurd scope dated

theorem versionVisible_eq (scopes : other.versionScope = request.versionScope)
    (dates : other.caseDate = request.caseDate)
    (statuses : other.versionStatus = request.versionStatus) :
    versionVisible today other version = versionVisible today request version := by
  rw [versionVisible, versionVisible, scopes, dates, statuses]

theorem selectedVersion_eq (scopes : other.versionScope = request.versionScope)
    (dates : other.caseDate = request.caseDate)
    (statuses : other.versionStatus = request.versionStatus) :
    selectedVersion corpus today other version = selectedVersion corpus today request version := by
  have visible (newer : LawVersion) : versionVisible today other newer =
      versionVisible today request newer := versionVisible_eq scopes dates statuses
  simp only [selectedVersion, scopes, visible]

/-- What `version_is_visible` accepts. -/
theorem versionIsVisible_iff (dated : request.versionScope ≠ .all) {versionId : Text} :
    versionIsVisible corpus today versionId request.versionScope request.caseDate
        request.versionStatus = .ok true ↔
      validateVersionScope request = .ok () ∧ ∃ version ∈ corpus.versions,
        version.id = versionId ∧ Eligible today request version := by
  have found : (corpus.versions.any fun version =>
      version.id == versionId && versionVisible today request version) = true ↔
        ∃ version ∈ corpus.versions, version.id = versionId ∧ Eligible today request version := by
    simp only [List.any_eq_true, Bool.and_eq_true, beq_iff_eq, versionVisible_iff dated]
  rw [← found, versionIsVisible]
  constructor
  · intro accepted
    obtain ⟨_, valid, same⟩ := bind_eq_ok.mp accepted
    exact ⟨valid, Except.ok.inj same⟩
  · rintro ⟨valid, some⟩
    exact bind_eq_ok.mpr ⟨(), valid, congrArg Except.ok some⟩

end Eligibility

/-! ## Selection -/

section Selection

variable {corpus : Corpus} {today : Text} {request : PagedSearchRequest}
  {version first second : LawVersion} {document : LawDocument}

/-- Of two versions one outranks the other. -/
theorem outranks_total (other : first.id ≠ second.id) :
    Outranks first second ∨ Outranks second first := by
  have swapped := binaryCompare_swap second.effectiveFrom first.effectiveFrom
  have swappedIds := binaryCompare_swap second.id first.id
  cases dates : binaryCompare second.effectiveFrom first.effectiveFrom with
  | lt => exact .inl (.inl dates)
  | gt =>
      rw [dates] at swapped
      exact .inr (.inl swapped.symm)
  | eq =>
      have same := eq_of_binaryCompare dates
      cases ids : binaryCompare second.id first.id with
      | lt => exact .inl (.inr ⟨same.symm, ids⟩)
      | eq => exact absurd (eq_of_binaryCompare ids).symm other
      | gt =>
          rw [ids] at swappedIds
          exact .inr (.inr ⟨same, swappedIds.symm⟩)

/-- No two versions outrank each other. -/
theorem outranks_asymm (outranks : Outranks first second) : ¬ Outranks second first := by
  have swapped := binaryCompare_swap second.effectiveFrom first.effectiveFrom
  have swappedIds := binaryCompare_swap second.id first.id
  have equal (text : Text) : binaryCompare text text ≠ .lt := by
    intro less
    have reversed := binaryCompare_swap text text
    rw [less] at reversed
    cases reversed
  obtain less | ⟨same, less⟩ := outranks
  · rw [less] at swapped
    rintro (less' | ⟨same', _⟩)
    · rw [less'] at swapped
      cases swapped
    · rw [same'] at less
      exact equal _ less
  · rw [less] at swappedIds
    rintro (less' | ⟨_, less'⟩)
    · rw [same] at less'
      exact equal _ less'
    · rw [less'] at swappedIds
      cases swappedIds

/-- The predicate of selection refuses a version which an eligible one outranks. -/
theorem selectedVersion_iff (dated : request.versionScope ≠ .all) :
    selectedVersion corpus today request version = true ↔
      ∀ other ∈ corpus.versions, other.documentId = version.documentId →
        Eligible today request other → ¬ Outranks other version := by
  have outranks (other : LawVersion) : (textLt version.effectiveFrom other.effectiveFrom ||
      (other.effectiveFrom == version.effectiveFrom && textLt version.id other.id)) = true ↔
        Outranks other version := by
    rw [Bool.or_eq_true, Bool.and_eq_true, beq_iff_eq, textLt, textLt, decide_eq_true_eq,
      decide_eq_true_eq, Outranks]
  rw [selectedVersion, decide_eq_false dated, Bool.false_or, Bool.not_eq_true', List.any_eq_false]
  refine forall₂_congr fun other _ => ?_
  rw [Bool.and_eq_true, Bool.and_eq_true, beq_iff_eq, versionVisible_iff dated, outranks]
  tauto

section Distinct

variable (distinct : (corpus.versions.map LawVersion.id).Nodup)
  (dated : request.versionScope ≠ .all)

include distinct

theorem version_eq_of_id (member : first ∈ corpus.versions) (member' : second ∈ corpus.versions)
    (same : first.id = second.id) : first = second :=
  List.inj_on_of_nodup_map distinct member member' same

include dated

/-- The statements select the greatest eligible version of a document. -/
theorem isSelected_iff : IsSelected corpus today request version ↔
    IsNewest corpus today request version := by
  rw [IsSelected, IsNewest, versionVisible_iff dated, selectedVersion_iff dated]
  refine and_congr_right fun member => and_congr_right fun _ =>
    forall₂_congr fun other member' => imp_congr_right fun _ => imp_congr_right fun _ => ?_
  constructor
  · intro notOutranked
    by_cases same : other.id = version.id
    · exact .inl (version_eq_of_id distinct member' member same)
    · exact .inr ((outranks_total same).resolve_left notOutranked)
  · rintro (rfl | outranks)
    · exact fun outranks => outranks_asymm outranks outranks
    · exact outranks_asymm outranks

omit distinct dated in
/-- A document has one greatest eligible version. -/
theorem IsNewest.unique (newest : IsNewest corpus today request first)
    (newest' : IsNewest corpus today request second)
    (same : first.documentId = second.documentId) : first = second := by
  obtain ⟨member, eligible, greatest⟩ := newest
  obtain ⟨member', eligible', greatest'⟩ := newest'
  obtain same' | outranks := greatest second member' same.symm eligible'
  · exact same'.symm
  · obtain same' | outranks' := greatest' first member same eligible
    · exact same'
    · exact absurd outranks' (outranks_asymm outranks)

/-- The table of the selected versions has the greatest eligible version of each document. -/
theorem selectedVersionOf_eq_some : selectedVersionOf corpus today request document = some version ↔
    IsNewest corpus today request version ∧ version.documentId = document.id := by
  let keys (version : LawVersion) : List SortKey :=
    [.descendingText version.effectiveFrom, .descendingText version.id]
  let rows := corpus.versions.filter fun version =>
    version.documentId == document.id && versionVisible today request version
  have inRows {other : LawVersion} : other ∈ rows ↔
      other ∈ corpus.versions ∧ other.documentId = document.id ∧
        Eligible today request other := by
    rw [List.mem_filter, Bool.and_eq_true, beq_iff_eq, versionVisible_iff dated]
  have behind {first second : LawVersion} (outranks : Outranks second first) :
      compareKeys (keys first) (keys second) = .gt := by
    have swapped := binaryCompare_swap first.effectiveFrom second.effectiveFrom
    have swappedIds := binaryCompare_swap first.id second.id
    have equal := binaryCompare_swap first.effectiveFrom first.effectiveFrom
    obtain less | ⟨same, less⟩ := outranks
    · rw [less] at swapped
      simp [keys, compareKeys, SortKey.compare, ← swapped]
    · rw [less] at swappedIds
      have dates : binaryCompare first.effectiveFrom first.effectiveFrom = .eq := by
        cases dates : binaryCompare first.effectiveFrom first.effectiveFrom with
        | eq => rfl
        | lt =>
            rw [dates] at equal
            cases equal
        | gt =>
            rw [dates] at equal
            cases equal
      simp [keys, compareKeys, SortKey.compare, same, dates, ← swappedIds]
  have first {newest : LawVersion} (head : (orderBy keys rows).head? = some newest) :
      IsNewest corpus today request newest ∧ newest.documentId = document.id := by
    obtain ⟨rest, sorted⟩ := List.head?_eq_some_iff.mp head
    have members := fun other => (perm_orderBy keys rows).mem_iff (a := other)
    have ordered := @pairwise_orderBy _ keys rows fun _ _ => rfl
    rw [sorted, List.pairwise_cons] at ordered
    rw [sorted] at members
    obtain ⟨member, named, eligible⟩ := inRows.mp ((members newest).mp List.mem_cons_self)
    refine ⟨(isSelected_iff distinct dated).mp ⟨member, (versionVisible_iff dated).mpr eligible,
      (selectedVersion_iff dated).mpr fun other member' same eligible' outranks => ?_⟩, named⟩
    have among := (members other).mpr (inRows.mpr ⟨member', same.trans named, eligible'⟩)
    obtain rfl | among := List.mem_cons.mp among
    · exact outranks_asymm outranks outranks
    · exact ordered.1 other among (behind outranks)
  constructor
  · exact first
  · rintro ⟨newest, named⟩
    have among : version ∈ orderBy keys rows := (perm_orderBy keys rows).mem_iff.mpr
      (inRows.mpr ⟨newest.1, named, newest.2.1⟩)
    have some := List.head?_eq_some_head (List.ne_nil_of_mem among)
    obtain ⟨greatest, named'⟩ := first some
    rw [newest.unique greatest (named.trans named'.symm)]
    exact some

end Distinct

end Selection

/-! ## What a search returns -/

section Returned

variable {unicode : UnicodeTables} {corpus : Corpus} {today : Text} {request : PagedSearchRequest}
  {candidates : Option (List Int)} {version : LawVersion}

/-- A scored article is one of those which are scored. -/
theorem mem_of_mem_scoredArticles {rows : List JoinedArticle} {row : ScoredArticle}
    (member : row ∈ scoredArticles corpus request rows) : row.toJoinedArticle ∈ rows := by
  obtain ⟨joined, among, scored⟩ := List.mem_flatMap.mp member
  dsimp only at scored
  split_ifs at scored
  · rw [List.mem_singleton] at scored
    rw [scored]
    exact among
  · obtain ⟨citation, _, rfl⟩ := List.mem_map.mp scored
    exact among

/-- Every article is scored. -/
theorem exists_scoredArticle {rows : List JoinedArticle} {joined : JoinedArticle}
    (member : joined ∈ rows) :
    ∃ row ∈ scoredArticles corpus request rows, row.toJoinedArticle = joined := by
  let citations := corpus.citations.filter fun citation => citation.articleId = joined.article.id
  let score := articleScore request joined.article + documentScore corpus request joined.document
  cases cited : citations with
  | nil =>
      refine ⟨⟨joined, none, score⟩, List.mem_flatMap.mpr ⟨joined, member, ?_⟩, rfl⟩
      dsimp only
      rw [if_pos cited]
      exact List.mem_cons_self
  | cons citation others =>
      refine ⟨⟨joined, some citation.citationId, score⟩,
        List.mem_flatMap.mpr ⟨joined, member, ?_⟩, rfl⟩
      dsimp only
      rw [if_neg (fun none => List.cons_ne_nil _ _ (cited.symm.trans none))]
      refine List.mem_map.mpr ⟨citation, ?_, rfl⟩
      have among : citation ∈ citations := by
        rw [cited]
        exact List.mem_cons_self
      exact among

/-- A matched article is of a selected version, and names it. -/
theorem isSelected_of_matched {row : JoinedArticle}
    (member : row ∈ matchedArticles unicode corpus today request candidates) :
    IsSelected corpus today request row.version ∧ row.version.id = row.article.versionId := by
  obtain ⟨joined, selected⟩ := List.mem_filter.mp member
  obtain ⟨_, _, inVersions, named⟩ := mem_joinedArticles.mp joined
  rw [Bool.and_eq_true, Bool.and_eq_true, articleFilters, Bool.and_eq_true,
    Bool.and_eq_true] at selected
  exact ⟨⟨inVersions, selected.1.1.1.2, selected.1.1.2⟩, named⟩

/-- The results of a page. -/
def results (page : PagedSearchResponse) : List ArticleSearchResult :=
  page.articles ++ page.laws.flatMap LawSearchGroup.topArticles

theorem Statement.rows_of_run {ρ : Type} {statement : Statement ρ} {rows : ρ}
    (run : statement.run = .ok rows) : rows = statement.rows := by
  obtain ⟨_, same⟩ := refuseIf_bind_eq_ok.mp run
  exact (Except.ok.inj same).symm

/-- The results of a view are matched articles. -/
theorem exists_row_of_searchView {page : PagedSearchResponse} {counts : Option (Nat × Nat)}
    (viewed : searchView unicode corpus today request candidates counts = .ok page)
    {result : ArticleSearchResult} (member : result ∈ results page) :
    ∃ row ∈ matchedArticles unicode corpus today request candidates,
      result.versionId = row.article.versionId := by
  have made {row : ScoredArticle} (scored : row ∈ scoredArticles corpus request
      (matchedArticles unicode corpus today request candidates))
      (same : articleFromPagedRow (queryTerms request) row = result) :
      ∃ row ∈ matchedArticles unicode corpus today request candidates,
        result.versionId = row.article.versionId :=
    ⟨row.toJoinedArticle, mem_of_mem_scoredArticles scored, same ▸ rfl⟩
  rw [searchView] at viewed
  cases view : request.view with
  | flat =>
      rw [view] at viewed
      obtain ⟨_, _, counted⟩ := bind_eq_ok.mp viewed
      obtain ⟨rows, run, same⟩ := bind_eq_ok.mp counted
      cases same
      rw [Statement.rows_of_run run] at member
      simp only [results, List.flatMap_nil, List.append_nil] at member
      obtain ⟨row, among, same⟩ := List.mem_map.mp member
      have sorted := List.mem_of_mem_drop (List.mem_of_mem_take among)
      exact made ((perm_orderBy _ _).mem_iff.mp sorted) same
  | grouped =>
      rw [view] at viewed
      obtain ⟨_, _, counted⟩ := bind_eq_ok.mp viewed
      obtain ⟨laws, _, listed⟩ := bind_eq_ok.mp counted
      obtain ⟨previews, previewed, same⟩ := bind_eq_ok.mp listed
      cases same
      obtain ⟨group, inGroups, inGroup⟩ := List.mem_flatMap.mp member
      obtain ⟨law, _, rfl⟩ := List.mem_map.mp inGroups
      obtain ⟨row, among, same⟩ := List.mem_map.mp inGroup
      rw [groupedPagePreviews] at previewed
      split_ifs at previewed with none
      · cases previewed
        cases among
      · rw [Statement.rows_of_run previewed] at among
        have sorted := List.mem_of_mem_take among
        exact made (List.mem_of_mem_filter ((perm_orderBy _ _).mem_iff.mp sorted)) same

/-- A view with the same scope, date and status has results of selected versions. -/
theorem isSelected_of_searchView {page : PagedSearchResponse} {other : PagedSearchRequest}
    {counts : Option (Nat × Nat)} (scopes : other.versionScope = request.versionScope)
    (dates : other.caseDate = request.caseDate)
    (statuses : other.versionStatus = request.versionStatus)
    (viewed : searchView unicode corpus today other candidates counts = .ok page)
    {result : ArticleSearchResult} (member : result ∈ results page) :
    ∃ version, IsSelected corpus today request version ∧ version.id = result.versionId := by
  obtain ⟨row, matched, same⟩ := exists_row_of_searchView viewed member
  obtain ⟨⟨inVersions, visible, selected⟩, named⟩ := isSelected_of_matched matched
  rw [versionVisible_eq scopes dates statuses] at visible
  rw [selectedVersion_eq scopes dates statuses] at selected
  exact ⟨row.version, ⟨inVersions, visible, selected⟩, named.trans same.symm⟩

/-- The results of a search are of selected versions. -/
theorem isSelected_of_freshPage {source : SearchSource} {page : PagedSearchResponse}
    (searched : freshPage source today request = .ok page) {result : ArticleSearchResult}
    (member : result ∈ results page) : ∃ version,
      IsSelected source.database.corpus today request version ∧
        version.id = result.versionId := by
  rw [freshPage_eq] at searched
  obtain ⟨plan, planned, answered⟩ := bind_eq_ok.mp searched
  obtain ⟨_, _, compiled⟩ := bind_eq_ok.mp planned
  have kept : plan.request.versionScope = request.versionScope ∧
      plan.request.caseDate = request.caseDate ∧
        plan.request.versionStatus = request.versionStatus := by
    obtain ⟨_, same⟩ | ⟨_, _, _, _, _, same, _⟩ := compileQueryPlan_cases compiled
    · rw [same]
      exact ⟨rfl, rfl, rfl⟩
    · rw [same]
      exact ⟨rfl, rfl, rfl⟩
  obtain ⟨scopes, dates, statuses⟩ := kept
  split_ifs at answered
  · cases answered
    cases member
  · obtain ⟨response, paged, rfl⟩ : ∃ response, pageOf source today plan = .ok response ∧
        plan.answer response = page := by
      cases paged : pageOf source today plan with
      | error error =>
          rw [paged] at answered
          cases answered
      | ok response =>
          rw [paged] at answered
          exact ⟨response, rfl, Except.ok.inj answered⟩
    have inAnswer : result ∈ results response := member
    rw [pageOf] at paged
    cases exact : plan.exact with
    | none =>
        rw [exact] at paged
        obtain ⟨_, _, paged⟩ := bind_eq_ok.mp paged
        obtain ⟨_, _, viewed⟩ := bind_eq_ok.mp paged
        exact isSelected_of_searchView scopes dates statuses viewed inAnswer
    | some exactPlan =>
        rw [exact] at paged
        obtain ⟨_, paged⟩ := refuseIf_bind_eq_ok.mp paged
        obtain ⟨first, viewed, chosen⟩ := bind_eq_ok.mp paged
        have spelled (articleNumber : Text) (viewed : searchView source.unicode
            source.database.corpus today { plan.request with
              query := exactArticlePrefix :: articleNumber } none none = .ok response) :=
          @isSelected_of_searchView _ _ _ request _ _
            { plan.request with query := exactArticlePrefix :: articleNumber } _ scopes dates
            statuses viewed _ inAnswer
        by_cases enough : 0 < first.total ∨
            exactPlan.arabicArticleNumber = exactPlan.articleNumber
        · rw [if_pos enough] at chosen
          cases chosen
          exact spelled _ viewed
        · rw [if_neg enough] at chosen
          exact spelled _ chosen

/-- A search without words lists the articles of the selected versions. -/
theorem searchReturns_iff : SearchReturns corpus today request unicode version ↔
      IsSelected corpus today request version ∧ HasArticle corpus version := by
  have listed (other : PagedSearchRequest) {row : ScoredArticle}
      (member : row ∈ articleListing unicode corpus today other) :
      row.toJoinedArticle ∈ matchedArticles unicode corpus today other none :=
    mem_of_mem_scoredArticles ((perm_orderBy _ _).mem_iff.mp member)
  constructor
  · rintro ⟨other, scopes, dates, statuses, row, member, rfl⟩
    have matched := listed other member
    obtain ⟨⟨inVersions, visible, selected⟩, named⟩ := isSelected_of_matched matched
    obtain ⟨inArticles, inDocuments, _⟩ := mem_joinedArticles.mp (List.mem_filter.mp matched).1
    rw [versionVisible_eq scopes dates statuses] at visible
    rw [selectedVersion_eq scopes dates statuses] at selected
    exact ⟨⟨inVersions, visible, selected⟩, row.article, inArticles, named.symm, row.document,
      inDocuments⟩
  · rintro ⟨⟨inVersions, visible, selected⟩, article, inArticles, named, document, inDocuments⟩
    let other : PagedSearchRequest :=
      { query := []
        versionScope := request.versionScope
        view := .flat
        caseDate := request.caseDate
        limit := 1
        versionStatus := request.versionStatus }
    refine ⟨other, rfl, rfl, rfl, ?_⟩
    have matched : (⟨article, document, version⟩ : JoinedArticle) ∈
        matchedArticles unicode corpus today other none := by
      refine List.mem_filter.mpr ⟨mem_joinedArticles.mpr
        ⟨inArticles, inDocuments, inVersions, named.symm⟩, ?_⟩
      rw [Bool.and_eq_true, Bool.and_eq_true, articleFilters, Bool.and_eq_true, Bool.and_eq_true]
      exact ⟨⟨⟨⟨rfl, visible⟩, selected⟩, rfl⟩, rfl⟩
    obtain ⟨row, scored, same⟩ := @exists_scoredArticle corpus other _ _ matched
    exact ⟨row, (perm_orderBy _ _).mem_iff.mpr scored, congrArg JoinedArticle.version same⟩

end Returned

/-! ## Exactness -/

/-- The versions which a request sees are the eligible ones, and of a document it selects the one
with the greatest date and identifier, in every statement. `version_is_visible` accepts the
eligible versions; a search returns articles of the selected ones, and of each of these. -/
theorem version_visibility_is_exact (source : SearchSource)
    (distinct : (source.database.corpus.versions.map LawVersion.id).Nodup) (today : Text)
    (request : PagedSearchRequest) (dated : request.versionScope ≠ .all) :
    (∀ version ∈ source.database.corpus.versions,
      versionVisible today request version = true ↔ Eligible today request version) ∧
    (∀ version, IsSelected source.database.corpus today request version ↔
      IsNewest source.database.corpus today request version) ∧
    (∀ first second, IsNewest source.database.corpus today request first →
      IsNewest source.database.corpus today request second →
        first.documentId = second.documentId → first = second) ∧
    (∀ document version,
      selectedVersionOf source.database.corpus today request document = some version ↔
        IsNewest source.database.corpus today request version ∧
          version.documentId = document.id) ∧
    (∀ versionId, versionIsVisible source.database.corpus today versionId request.versionScope
        request.caseDate request.versionStatus = .ok true ↔
      validateVersionScope request = .ok () ∧ ∃ version ∈ source.database.corpus.versions,
        version.id = versionId ∧ Eligible today request version) ∧
    (∀ version, SearchReturns source.database.corpus today request source.unicode version ↔
      IsNewest source.database.corpus today request version ∧
        HasArticle source.database.corpus version) ∧
    (∀ page, freshPage source today request = .ok page → ∀ result ∈ results page,
      ∃ version, IsNewest source.database.corpus today request version ∧
        version.id = result.versionId) ∧
    ∀ column column' date date', WritesDate column date → WritesDate column' date' →
      binaryCompare column column' = date.compare date' := by
  have selected (version : LawVersion) := @isSelected_iff _ today _ version distinct dated
  refine ⟨fun version _ => versionVisible_iff dated, selected,
    fun first second newest newest' same => newest.unique newest' same,
    fun _ _ => selectedVersionOf_eq_some distinct dated, fun _ => versionIsVisible_iff dated,
    fun version => ?_, fun page searched result member => ?_,
    fun _ _ _ _ => binaryCompare_dates⟩
  · rw [← selected]
    exact searchReturns_iff
  · obtain ⟨version, isSelected, named⟩ := isSelected_of_freshPage searched member
    exact ⟨version, (selected version).mp isSelected, named⟩

/-- The first version of a code. -/
def firstVersion : LawVersion :=
  ⟨['u'], ['1'], "in_force".toList, "2020-01-01".toList, none, none⟩

/-- The second version of a code, which is in force beside the first one. -/
def secondVersion : LawVersion :=
  ⟨['v'], ['1'], "in_force".toList, "2021-01-01".toList, none, none⟩

/-- A version which an amendment has replaced. -/
def amendedVersion : LawVersion :=
  ⟨['w'], ['1'], "amended".toList, "2022-01-01".toList, none, none⟩

/-- A code with these versions. -/
def amendedCode : SearchSource :=
  { civilCode with
    database :=
      { civilCode.database with
        corpus :=
          { civilCode.database.corpus with
            versions := [firstVersion, secondVersion, amendedVersion] } } }

/-- A search of what is in force. -/
def currentArticles : PagedSearchRequest where
  query := "条".toList
  view := .flat
  limit := 20

/-- The second version is the newest one. -/
theorem second_version_is_newest :
    IsNewest amendedCode.database.corpus "2026-01-01".toList currentArticles secondVersion :=
  ((version_visibility_is_exact amendedCode (by decide) "2026-01-01".toList currentArticles
    (by decide)).2.1 secondVersion).mp
      ⟨List.mem_cons_of_mem _ List.mem_cons_self, by decide, by decide⟩

/-- The amended version is the greatest of those in effect and is not selected. The first one is
accepted by `version_is_visible`, and no search of what is in force returns it. -/
theorem dates_do_not_decide_alone :
    (InEffectAt "2026-01-01".toList amendedVersion ∧
      (∀ other ∈ amendedCode.database.corpus.versions,
        other = amendedVersion ∨ Outranks amendedVersion other) ∧
      ¬ IsSelected amendedCode.database.corpus "2026-01-01".toList currentArticles
        amendedVersion) ∧
    versionIsVisible amendedCode.database.corpus "2026-01-01".toList firstVersion.id .current none
      none = .ok true ∧
    ¬ SearchReturns amendedCode.database.corpus "2026-01-01".toList currentArticles
      amendedCode.unicode firstVersion := by
  refine ⟨⟨inEffect_iff.mp (by decide), fun other member => ?_, fun selected => ?_⟩, ?_,
    fun returned => ?_⟩
  · have greater (first second : LawVersion) (less : binaryCompare second.effectiveFrom
        first.effectiveFrom = .lt) : Outranks first second := .inl less
    obtain rfl | member := List.mem_cons.mp member
    · exact .inr (greater _ _ (by decide))
    obtain rfl | member := List.mem_cons.mp member
    · exact .inr (greater _ _ (by decide))
    exact .inl (List.mem_singleton.mp member)
  · have hidden : versionVisible "2026-01-01".toList currentArticles amendedVersion = false := by
      decide
    rw [selected.2.1] at hidden
    cases hidden
  · have found : (amendedCode.database.corpus.versions.any fun version =>
        version.id == firstVersion.id &&
          versionVisible "2026-01-01".toList currentArticles version) = true := by decide
    exact congrArg Except.ok found
  · have older : selectedVersion amendedCode.database.corpus "2026-01-01".toList currentArticles
        firstVersion = false := by decide
    rw [(searchReturns_iff.mp returned).1.2.2] at older
    cases older

end LawyerAssistance.Retrieval

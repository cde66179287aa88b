import LawyerAssistance.Retrieval.Statements
import LawyerAssistance.Std.Occurrences

/-!
# The paged search without its caches

The plan of a request, which resolves a law name with an article number to one document, the
candidates of the index, and the two views of a page. The caches around it are in
`LawyerAssistance.Retrieval.Cache`.
-/

namespace LawyerAssistance.Retrieval

/-! ## Responses -/

/-- `truncate_chars`. -/
def truncateChars (value : Text) (maxChars : Nat) : Text :=
  value.take maxChars ++ if maxChars < value.length then "...".toList else []

/-- `snippet_for`. -/
def snippetFor (query content : Text) : Text :=
  if query = [] then truncateChars content 96
  else
    match Text.splitFirst query content with
    | none => truncateChars content 96
    | some (before, _) =>
        let start := before.length - 17
        let stop := min (before.length + query.length + 32) content.length
        (if 0 < start then "...".toList else []) ++ (content.take stop).drop start ++
          if stop < content.length then "...".toList else []

/-- `snippet_for_terms`: around the term which comes first. -/
def snippetForTerms (terms : List Text) (content : Text) : Text :=
  let found := terms.filterMap fun term =>
    (Text.splitFirst term content).map fun parts => (parts.1.length, term)
  match found with
  | [] => snippetFor [] content
  | first :: rest =>
      snippetFor (rest.foldl (fun best next => if next.1 < best.1 then next else best) first).2 content

/-- `generate_article_citation_id`. -/
def generateArticleCitationId (documentId versionId articleNumber : Text) : Text :=
  let normalized := articleNumber.filter Char.isAlphanum
  "law:".toList ++ documentId ++ ':' :: versionId ++ ":art:".toList ++
    if normalized = [] then articleNumber else normalized

/-- `ArticleSearchResult`. -/
structure ArticleSearchResult where
  articleId : Text
  documentId : Text
  versionId : Text
  documentTitle : Text
  articleNumber : Text
  articleTitle : Option Text
  snippet : Text
  citationId : Text
  effectiveFrom : Text
  effectiveTo : Option Text
  versionStatus : Text
  score : Nat
  deriving DecidableEq

/-- `article_from_paged_row`. -/
def articleFromPagedRow (terms : List Text) (row : ScoredArticle) : ArticleSearchResult where
  articleId := row.article.id
  documentId := row.article.documentId
  versionId := row.article.versionId
  documentTitle := row.document.title
  articleNumber := row.article.articleNumber
  articleTitle := row.article.title
  snippet := snippetForTerms terms row.article.content
  citationId := row.citationId.getD (generateArticleCitationId row.article.documentId
    row.article.versionId (toString row.article.articleOrder).toList)
  effectiveFrom := row.version.effectiveFrom
  effectiveTo := row.version.effectiveTo
  versionStatus := row.version.status
  score := row.totalScore

/-- `LawSearchGroup`. -/
structure LawSearchGroup where
  law : LawSearchResult
  matchedArticleCount : Nat
  topArticles : List ArticleSearchResult
  deriving DecidableEq

/-- `SearchAppliedQuery`. -/
structure SearchAppliedQuery where
  normalizedQuery : Text
  matchMode : SearchMatchMode
  versionScope : VersionScope
  asOf : Option Text
  resolvedDocumentId : Option Text
  exactArticleNumber : Option Text
  deriving DecidableEq

/-- `LawNameAmbiguity`. -/
structure LawNameAmbiguity where
  query : Text
  candidates : List (Text × Text)
  deriving DecidableEq

/-- `PagedSearchResponse`, without the metrics. -/
structure PagedSearchResponse where
  view : SearchView
  laws : List LawSearchGroup
  articles : List ArticleSearchResult
  total : Nat
  totalLaws : Nat
  totalArticles : Nat
  limit : Nat
  offset : Nat
  warnings : List String
  appliedQuery : SearchAppliedQuery
  ambiguities : List LawNameAmbiguity
  deriving DecidableEq

/-- `applied_query_for`. -/
def appliedQueryFor (request : PagedSearchRequest) (resolvedDocumentId exactArticleNumber : Option Text) :
    SearchAppliedQuery where
  normalizedQuery := canonicalQuery request.query
  matchMode := request.matchMode
  versionScope := request.versionScope
  asOf := request.caseDate
  resolvedDocumentId := resolvedDocumentId
  exactArticleNumber := exactArticleNumber

/-! ## Plans -/

/-- `ExactArticlePlan`. -/
structure ExactArticlePlan where
  documentId : Text
  articleNumber : Text
  arabicArticleNumber : Text
  deriving DecidableEq

/-- `QueryPlan`. -/
structure QueryPlan where
  request : PagedSearchRequest
  applied : SearchAppliedQuery
  ambiguities : List LawNameAmbiguity
  exact : Option ExactArticlePlan

/-- The documents which a law name can mean, by identifier. -/
def lawNameCandidates (corpus : Corpus) (lawName : Text) : List (Text × Text) :=
  orderBy (fun candidate => [.ascendingText candidate.1])
    ((corpus.documents.filter fun document => document.title == lawName ||
      (corpus.aliasesOf document).any fun entry =>
        entry.alias == lawName || entry.normalizedAlias == lawName).map fun document =>
          (document.id, document.title)).dedup

/-- `apply_exact_article_plan`. -/
def applyExactArticlePlan (normalized : PagedSearchRequest) (documentId : Text)
    (query : LawArticleQuery) : Except RetrievalError QueryPlan := do
  refuseIf (normalized.documentId.any (· ≠ documentId) = true)
    (.invalidRequest "document_id conflicts with the resolved law name")
  let request := { normalized with
    documentId := some documentId, query := query.articleNumber, matchMode := .phrase }
  pure ⟨request, appliedQueryFor request (some documentId) (some query.articleNumber), [],
    some ⟨documentId, query.articleNumber, query.arabicArticleNumber⟩⟩

/-- `compile_query_plan`. -/
def compileQueryPlan (corpus : Corpus) (request : PagedSearchRequest) :
    Except RetrievalError QueryPlan := do
  validateVersionScope request
  let normalized := { request with query := canonicalQuery request.query }
  let ordinary : QueryPlan := ⟨normalized, appliedQueryFor normalized none none, [], none⟩
  match splitLawArticleQuery normalized.query with
  | none => pure ordinary
  | some query =>
      let lawName := normalizeLawName query.lawName
      if lawName = [] then pure ordinary
      else
        match lawNameCandidates corpus lawName with
        | [(documentId, _)] => applyExactArticlePlan normalized documentId query
        | [] =>
            if normalized.documentId.isSome then
              .error (.invalidRequest "document_id is not a candidate for the law name")
            else pure { ordinary with ambiguities := [⟨lawName, []⟩] }
        | candidates =>
            match normalized.documentId with
            | some filtered =>
                if candidates.any (fun candidate => candidate.1 == filtered) then
                  applyExactArticlePlan normalized filtered query
                else .error (.invalidRequest "document_id is not a candidate for the law name")
            | none => pure { ordinary with ambiguities := [⟨lawName, candidates⟩] }

section PlanCases

variable {corpus : Corpus} {request : PagedSearchRequest} {plan : QueryPlan}

/-- A request with its query in canonical form. -/
def normalizedRequest (request : PagedSearchRequest) : PagedSearchRequest :=
  { request with query := canonicalQuery request.query }

/-- A plan for one article rewrites the request to its number. -/
theorem applyExactArticlePlan_eq_ok {documentId : Text} {query : LawArticleQuery}
    (applied : applyExactArticlePlan request documentId query = .ok plan) :
    plan.exact = some ⟨documentId, query.articleNumber, query.arabicArticleNumber⟩ ∧
      plan.request = { request with
        documentId := some documentId, query := query.articleNumber, matchMode := .phrase } ∧
      plan.ambiguities = [] := by
  obtain ⟨_, applied⟩ := refuseIf_bind_eq_ok.mp applied
  cases applied
  exact ⟨rfl, rfl, rfl⟩

/-- A plan keeps the canonical request, or it is for one article of a named law. -/
theorem compileQueryPlan_cases (planned : compileQueryPlan corpus request = .ok plan) :
    (plan.exact = none ∧ plan.request = normalizedRequest request) ∨
    ∃ query documentId, splitLawArticleQuery (canonicalQuery request.query) = some query ∧
      normalizeLawName query.lawName ≠ [] ∧
      plan.exact = some ⟨documentId, query.articleNumber, query.arabicArticleNumber⟩ ∧
      plan.request = { normalizedRequest request with
        documentId := some documentId, query := query.articleNumber, matchMode := .phrase } ∧
      plan.ambiguities = [] := by
  obtain ⟨_, _, planned⟩ := bind_eq_ok.mp planned
  dsimp only at planned
  cases split : splitLawArticleQuery (canonicalQuery request.query) with
  | none =>
      rw [split] at planned
      cases planned
      exact .inl ⟨rfl, rfl⟩
  | some query =>
      rw [split] at planned
      dsimp only at planned
      by_cases unnamed : normalizeLawName query.lawName = []
      · rw [if_pos unnamed] at planned
        cases planned
        exact .inl ⟨rfl, rfl⟩
      · rw [if_neg unnamed] at planned
        have exactPlan {documentId : Text}
            (applied : applyExactArticlePlan (normalizedRequest request) documentId query =
              .ok plan) := applyExactArticlePlan_eq_ok applied
        cases candidates : lawNameCandidates corpus (normalizeLawName query.lawName) with
        | nil =>
            rw [candidates] at planned
            dsimp only at planned
            split_ifs at planned
            cases planned
            exact .inl ⟨rfl, rfl⟩
        | cons first rest =>
            rw [candidates] at planned
            cases rest with
            | nil => exact .inr ⟨query, first.1, rfl, unnamed, exactPlan planned⟩
            | cons second rest =>
                dsimp only at planned
                cases filtered : request.documentId with
                | none =>
                    rw [filtered] at planned
                    cases planned
                    exact .inl ⟨rfl, by rw [normalizedRequest, filtered]⟩
                | some documentId =>
                    rw [filtered] at planned
                    dsimp only at planned
                    split_ifs at planned
                    refine .inr ⟨query, documentId, rfl, unnamed, exactPlan ?_⟩
                    rw [normalizedRequest, filtered]
                    exact planned

end PlanCases

/-! ## Candidates of the index -/

/-- `MAX_INDEX_BOUND_CANDIDATES`. -/
def maxIndexBoundCandidates : Nat := 900

/-- `MAX_INDEX_QUERY_PARAMETERS`. -/
def maxIndexQueryParameters : Nat := 900

/-- The statement of `article_rowids_for_bigrams_with_reason`: the articles with all bigrams. -/
def bigramStatement (index : SearchIndex) (bigrams : List Text) : Statement (List Int) where
  values := bigrams.map .text
  rows :=
    let postings := index.articleBigrams.filter fun posting => bigrams.contains posting.1
    ((postings.map Prod.snd).dedup.filter fun rowid =>
      ((postings.filter fun posting => posting.2 = rowid).map Prod.fst).dedup.length =
        bigrams.length).take (maxIndexBoundCandidates + 1)

/-- `sort_unstable` of row identifiers. -/
def sortRowids (rowids : List Int) : List Int := rowids.insertionSort (· ≤ ·)

/-- `article_rowids_for_bigrams_with_reason`. -/
def articleRowidsForBigrams (index : SearchIndex) (bigrams : List Text) :
    Except RetrievalError (Option (List Int)) := do
  if bigrams = [] then pure (some [])
  else if maxIndexQueryParameters < bigrams.length then pure none
  else
    let rows ← (bigramStatement index bigrams).run
    if maxIndexBoundCandidates < rows.length then pure none
    else pure (some (sortRowids rows))

/-- The bigrams of a term, without repetitions and sorted. -/
def termBigrams (term : Text) : List Text :=
  ((term.zip term.tail).map fun pair => [pair.1, pair.2]).dedup.insertionSort
    fun first second => textLe first second

/-- The union of the candidates of the terms, unless one of them has too many. -/
def unionRowids (index : SearchIndex) (rows : List Int) :
    List (List Text) → Except RetrievalError (Option (List Int))
  | [] => pure (some (sortRowids rows))
  | bigrams :: rest => do
      match ← articleRowidsForBigrams index bigrams with
      | none => pure none
      | some termRows =>
          let rows := (rows ++ termRows).dedup
          if maxIndexBoundCandidates < rows.length then pure none
          else unionRowids index rows rest

/-- `article_rowids_for_terms_with_reason`. -/
def articleRowidsForTerms (index : SearchIndex) (terms : List Text) (matchMode : SearchMatchMode) :
    Except RetrievalError (Option (List Int)) :=
  if terms.any fun term => term.length < 2 || !term.all isCjkIdeograph then pure none
  else if terms = [] then pure none
  else if matchMode = .any then unionRowids index [] (terms.map termBigrams)
  else articleRowidsForBigrams index
    ((terms.flatMap termBigrams).dedup.insertionSort fun first second => textLe first second)

section Pages

variable (unicode : UnicodeTables) (corpus : Corpus) (today : Text)

/-- `fits_sqlite_parameter_limit`. -/
def fitsSqliteParameterLimit (baseParameters candidateCount : Nat) : Bool :=
  baseParameters + candidateCount ≤ maxSqliteParameters

/-- `candidate_rows_fit_source_queries`. -/
def candidateRowsFitSourceQueries (request : PagedSearchRequest) (candidateCount : Nat) : Bool :=
  let countParameters := (articleFilterValues request ++ articleMatchValues unicode request).length
  let flatParameters := (articleScoreValues request ++ documentScoreValues request ++
    articleFilterValues request ++ articleMatchValues unicode request).length + 2
  let groupedParameters := (versionVisibilityValues request ++ articleFilterValues request ++
    articleMatchValues unicode request ++ documentScoreValues request ++
    [SqlValue.text (likePattern (Text.trim request.query))] ++
    documentFilterValues request).length + 2
  let previewParameters := (articleScoreValues request ++ documentScoreValues request ++
    articleFilterValues request ++ articleMatchValues unicode request).length + request.limit
  fitsSqliteParameterLimit countParameters candidateCount &&
    fitsSqliteParameterLimit flatParameters candidateCount &&
    fitsSqliteParameterLimit groupedParameters candidateCount &&
    fitsSqliteParameterLimit previewParameters candidateCount

/-- `indexed_candidates`: the candidates, or none for the complete scan. -/
def indexedCandidates (index : Option SearchIndex) (request : PagedSearchRequest) :
    Except RetrievalError (Option (List Int)) :=
  if requiresUnicodeFold unicode request then pure none
  else
    match index with
    | none => pure none
    | some index => do
        let rowids ← articleRowidsForTerms index (queryTerms request) request.matchMode
        pure (rowids.filter fun candidates =>
          candidateRowsFitSourceQueries unicode request candidates.length)

/-! ## Pages -/

/-- The counts which are given, or those of the statement. -/
def countsOr (request : PagedSearchRequest) (candidates : Option (List Int))
    (counts : Option (Nat × Nat)) : Except RetrievalError (Nat × Nat) :=
  match counts with
  | some counts => pure counts
  | none => (countStatement unicode corpus today request candidates).run

/-- `search_flat_with_candidates_page`. -/
def searchFlatWithCandidatesPage (request : PagedSearchRequest) (candidates : Option (List Int))
    (counts : Option (Nat × Nat)) : Except RetrievalError PagedSearchResponse := do
  let counts ← countsOr unicode corpus today request candidates counts
  let rows ← (articlePageStatement unicode corpus today request candidates).run
  pure
    { view := .flat
      laws := []
      articles := rows.map (articleFromPagedRow (queryTerms request))
      total := counts.1
      totalLaws := counts.2
      totalArticles := counts.1
      limit := request.limit
      offset := request.offset
      warnings := if counts.1 = 0 then ["no_local_results_found"] else []
      appliedQuery := appliedQueryFor request none none
      ambiguities := [] }

/-- `grouped_page_previews`. -/
def groupedPagePreviews (request : PagedSearchRequest) (candidates : Option (List Int))
    (laws : List LawSearchResult) : Except RetrievalError (Text → Nat × List ScoredArticle) :=
  if laws = [] then pure fun _ => (0, [])
  else (previewStatement unicode corpus today request candidates laws).run

/-- `search_grouped_with_candidates`. -/
def searchGroupedWithCandidates (request : PagedSearchRequest) (candidates : Option (List Int))
    (counts : Option (Nat × Nat)) : Except RetrievalError PagedSearchResponse := do
  let counts ← countsOr unicode corpus today request candidates counts
  let laws ← (documentPageStatement unicode corpus today request candidates).run
  let previews ← groupedPagePreviews unicode corpus today request candidates laws
  pure
    { view := .grouped
      laws := laws.map fun law => ⟨law, (previews law.documentId).1,
        (previews law.documentId).2.map (articleFromPagedRow (queryTerms request))⟩
      articles := []
      total := counts.2
      totalLaws := counts.2
      totalArticles := counts.1
      limit := request.limit
      offset := request.offset
      warnings := if counts.2 = 0 then ["no_local_results_found"] else []
      appliedQuery := appliedQueryFor request none none
      ambiguities := [] }

/-- The page of a request in its view. -/
def searchView (request : PagedSearchRequest) (candidates : Option (List Int))
    (counts : Option (Nat × Nat)) : Except RetrievalError PagedSearchResponse :=
  match request.view with
  | .grouped => searchGroupedWithCandidates unicode corpus today request candidates counts
  | .flat => searchFlatWithCandidatesPage unicode corpus today request candidates counts

/-- `search_exact_page`: the canonical spelling, and without a result the one with digits. -/
def searchExactPage (request : PagedSearchRequest) (exact : ExactArticlePlan) :
    Except RetrievalError PagedSearchResponse := do
  refuseIf (request.documentId ≠ some exact.documentId)
    (.invalidRequest "exact article plan lost its document constraint")
  let spelled (articleNumber : Text) : PagedSearchRequest :=
    { request with query := exactArticlePrefix :: articleNumber }
  let response ← searchView unicode corpus today (spelled exact.articleNumber) none none
  if 0 < response.total ∨ exact.arabicArticleNumber = exact.articleNumber then pure response
  else searchView unicode corpus today (spelled exact.arabicArticleNumber) none none

end Pages

end LawyerAssistance.Retrieval

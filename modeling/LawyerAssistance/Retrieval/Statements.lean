import LawyerAssistance.Retrieval.Corpus
import LawyerAssistance.Std.Like

/-!
# The statements of the paged search

A statement carries the values which the builder has bound to its placeholders, in order, and
the rows which it selects. A build of SQLite with the historical limit refuses a statement with
more than 999 values.

The candidates of the index restrict the rows of every statement by one more condition and bind
one more value each; nothing else depends on them.
-/

namespace LawyerAssistance.Retrieval

/-- A value bound to a placeholder. -/
inductive SqlValue where
  | text (value : Text)
  | integer (value : Int)

/-- `MAX_SQLITE_PARAMETERS`. -/
def maxSqliteParameters : Nat := 999

/-- A statement with its values and the rows which it selects. -/
structure Statement (ρ : Type) where
  values : List SqlValue
  rows : ρ

/-- The rows, unless too many values are bound. -/
def Statement.run {ρ : Type} (statement : Statement ρ) : Except RetrievalError ρ := do
  refuseIf (maxSqliteParameters < statement.values.length) (.sqlite "too many SQL variables")
  pure statement.rows

/-- `like_pattern`. -/
def likePattern (query : Text) : Text :=
  if Text.trim query = [] then ['%']
  else '%' :: (Like.escapeLike '\\' (Text.trim query) ++ ['%'])

/-- The pattern of `bind_prefix`. -/
def beginningPattern (value : Text) : Text := Like.escapeLike '\\' value ++ ['%']

/-- `column LIKE pattern ESCAPE '\'`. -/
def columnLike (column pattern : Text) : Bool := Like.likeMatches '\\' pattern column

/-- `first <= second` of two texts. -/
def textLe (first second : Text) : Bool := binaryCompare first second ≠ .gt

/-- `first < second` of two texts. -/
def textLt (first second : Text) : Bool := binaryCompare first second = .lt

/-! ## Visibility -/

/-- `known_iso_date_predicate`: the column is a date of the calendar. -/
def knownIsoDate (column : Text) : Bool :=
  match column with
  | [y₁, y₂, y₃, y₄, '-', m₁, m₂, '-', d₁, d₂] =>
      let year := parseDecimal [y₁, y₂, y₃, y₄]
      let month := parseDecimal [m₁, m₂]
      let day := parseDecimal [d₁, d₂]
      let daysInMonth :=
        if month ∈ [1, 3, 5, 7, 8, 10, 12] then 31
        else if month ∈ [4, 6, 9, 11] then 30
        else if month = 2 then
          if year % 400 = 0 ∨ year % 4 = 0 ∧ year % 100 ≠ 0 then 29 else 28
        else 0
      [y₁, y₂, y₃, y₄, m₁, m₂, d₁, d₂].all Char.isDigit && decide (1 ≤ day ∧ day ≤ daysInMonth)
  | _ => false

/-- A version which is in effect at a date. -/
def inEffect (date : Text) (version : LawVersion) : Bool :=
  knownIsoDate version.effectiveFrom && textLe version.effectiveFrom date &&
    version.effectiveTo.all fun bound => knownIsoDate bound && textLe date bound

/-- `version_visibility_predicate`. -/
def versionVisible (today : Text) (request : PagedSearchRequest) (version : LawVersion) : Bool :=
  (match request.versionScope with
  | .current => inEffect today version && version.status == "in_force".toList
  | .asOf =>
      inEffect (request.caseDate.getD []) version &&
        !(version.status == "repealed".toList && version.effectiveTo.isNone) &&
        version.status != "not_yet_effective".toList
  | .all => true) &&
    request.versionStatus.all fun status => version.status == status

/-- The values of `version_visibility_predicate`. -/
def versionVisibilityValues (request : PagedSearchRequest) : List SqlValue :=
  (match request.versionScope with
  | .asOf => [.text (request.caseDate.getD [])]
  | .current | .all => []) ++ request.versionStatus.toList.map .text

section Selection

variable (unicode : UnicodeTables) (corpus : Corpus) (today : Text) (request : PagedSearchRequest)

/-- `selected_version_predicate`: no visible version of the document is newer. -/
def selectedVersion (version : LawVersion) : Bool :=
  request.versionScope = .all ||
    !corpus.versions.any fun newer =>
      newer.documentId == version.documentId && versionVisible today request newer &&
        (textLt version.effectiveFrom newer.effectiveFrom ||
          (newer.effectiveFrom == version.effectiveFrom && textLt version.id newer.id))

/-- The columns of a document which a request filters. -/
def documentMatches (document : LawDocument) : Bool :=
  request.documentId.all (document.id == ·) && request.documentType.all (document.documentType == ·) &&
    request.effectivenessLevel.all (document.effectivenessLevel == ·) &&
    request.jurisdiction.all (document.jurisdiction == ·) &&
    request.status.all (document.status == ·)

/-- The values of these columns. -/
def documentMatchValues : List SqlValue :=
  (request.documentId.toList ++ request.documentType.toList ++ request.effectivenessLevel.toList ++
    request.jurisdiction.toList ++ request.status.toList).map .text

/-- `document_filters`. -/
def documentFilters (document : LawDocument) : Bool :=
  documentMatches request document && (request.versionScope = .all ||
    corpus.versions.any fun version =>
      version.documentId == document.id && versionVisible today request version)

/-- The values of `document_filters`. -/
def documentFilterValues : List SqlValue :=
  documentMatchValues request ++
    if request.versionScope = .all then [] else versionVisibilityValues request

/-- `article_filters`. -/
def articleFilters (row : JoinedArticle) : Bool :=
  documentMatches request row.document && versionVisible today request row.version &&
    selectedVersion corpus today request row.version

/-- The values of `article_filters`. -/
def articleFilterValues : List SqlValue :=
  documentMatchValues request ++ versionVisibilityValues request ++
    if request.versionScope = .all then [] else versionVisibilityValues request

/-- `folded_column`. -/
def foldedColumn (column : Text) : Text :=
  if requiresUnicodeFold unicode request then unicode.unicodeFold column else column

/-- What `article_match_predicate_for_aliases` asks for one term. -/
def termMatches (article : LawArticle) (document : LawDocument) (term : Text) : Bool :=
  let found (column : Text) : Bool :=
    columnLike (foldedColumn unicode request column)
      (likePattern (foldedColumn unicode request term))
  found document.title ||
    (corpus.aliasesOf document).any (fun entry => found entry.alias || found entry.normalizedAlias) ||
    found article.articleNumber || found (article.title.getD []) || found article.content

/-- `article_match_predicate_for_aliases`. -/
def articleMatches (article : LawArticle) (document : LawDocument) : Bool :=
  match exactArticleTerm request with
  | some articleNumber => article.articleNumber == articleNumber
  | none =>
      let terms := queryTerms request
      if terms = [] then true
      else if request.matchMode = .all then
        terms.all (termMatches unicode corpus request article document)
      else terms.any (termMatches unicode corpus request article document)

/-- The values of `article_match_predicate_for_aliases`. -/
def articleMatchValues : List SqlValue :=
  match exactArticleTerm request with
  | some articleNumber => [.text articleNumber]
  | none => (queryTerms request).map fun term => .text (likePattern (foldedColumn unicode request term))

/-- `candidate_predicate`. -/
def candidateAllowed (candidates : Option (List Int)) (article : LawArticle) : Bool :=
  match candidates with
  | none => true
  | some [] => false
  | some candidates => candidates.contains article.rowid

/-- The values of `candidate_predicate`. -/
def candidateValues (candidates : Option (List Int)) : List SqlValue :=
  (candidates.getD []).map .integer

/-- The articles which match a request, among the candidates. -/
def matchedArticles (candidates : Option (List Int)) : List JoinedArticle :=
  corpus.joinedArticles.filter fun row =>
    articleFilters corpus today request row &&
      articleMatches unicode corpus request row.article row.document &&
      candidateAllowed candidates row.article

/-! ## Scores -/

/-- `document_score_expression`, of one term. -/
def documentTermScore (document : LawDocument) (term : Text) : Nat :=
  let aliases := corpus.aliasesOf document
  let aliasLike (pattern : Text) : Bool := aliases.any fun entry =>
    columnLike entry.alias pattern || columnLike entry.normalizedAlias pattern
  let beginning := beginningPattern term
  let inside := likePattern term
  let topic := likePattern (term ++ ['法'])
  (if document.title = term then 1000000
  else if aliases.any (fun entry => entry.alias == term || entry.normalizedAlias == term) then 950000
  else if columnLike document.title beginning then 850000
  else if aliasLike beginning then 820000
  else if columnLike document.title inside then 700000
  else if aliasLike inside then 650000
  else if columnLike document.summary inside then 450000 else 0) +
  if columnLike document.title topic || aliasLike topic then 220000 else 0

/-- `document_score_expression`. -/
def documentScore (document : LawDocument) : Nat :=
  ((queryTerms request).map (documentTermScore corpus document)).sum

/-- The values of `document_score_expression`. -/
def documentScoreValues : List SqlValue :=
  (queryTerms request).flatMap fun term =>
    [.text term, .text (beginningPattern term), .text (likePattern term),
      .text (likePattern (term ++ ['法']))]

/-- `article_score_expression`, of one term. -/
def articleTermScore (article : LawArticle) (term : Text) : Nat :=
  (if columnLike article.content (likePattern term) then 100000 else 0) +
    (if columnLike (article.title.getD []) (likePattern term) then 300000 else 0) +
    if article.articleNumber = term then 250000 else 0

/-- `article_score_expression`. -/
def articleScore (article : LawArticle) : Nat :=
  ((queryTerms request).map (articleTermScore article)).sum

/-- The values of `article_score_expression`. -/
def articleScoreValues : List SqlValue :=
  (queryTerms request).flatMap fun term => [.text (likePattern term), .text term]

/-! ## Orders -/

/-- The rank of an effectiveness level in the orders. -/
def effectivenessRank (level : Text) : Int :=
  if level = "constitution".toList then 0
  else if level = "national_law".toList then 1
  else if level ∈ ["administrative_regulation".toList, "supervision_regulation".toList] then 2
  else if level = "judicial_interpretation".toList then 3
  else if level = "department_rule".toList then 4
  else if level ∈ ["autonomous_regulation".toList, "special_zone_regulation".toList] then 5
  else if level = "local_regulation".toList then 6
  else if level = "local_government_rule".toList then 7 else 8

/-- Whether a status is behind the one in force. -/
def statusRank (status : Text) : Int := if status = "in_force".toList then 0 else 1

/-- An article with its citation and its score. -/
structure ScoredArticle extends JoinedArticle where
  citationId : Option Text
  totalScore : Nat

/-- The missing date of the orders. -/
def earliestDate : Text := "0001-01-01".toList

/-- `article_order`, with the identifier at the end. -/
def articleOrder (row : ScoredArticle) : List SortKey :=
  let total := SortKey.descendingNumber row.totalScore
  let standing := SortKey.ascendingNumber (statusRank row.version.status)
  let level := SortKey.ascendingNumber (effectivenessRank row.document.effectivenessLevel)
  let title := SortKey.ascendingText row.document.title
  let position := SortKey.ascendingNumber row.article.articleOrder
  (match request.sort with
  | .relevance => [total, standing, level, title, position]
  | .effectiveness => [level, total, title, position]
  | .effectiveDate => [.descendingText row.version.effectiveFrom, total, title, position]
  | .publishedDate =>
      [.descendingText (row.version.publishedOn.getD earliestDate), total, title, position]
  | .title => [title, position, total]) ++ [.ascendingText row.article.id]

/-- `grouped_preview_order`: the same order of the columns of the scored rows. -/
def groupedPreviewOrder (row : ScoredArticle) : List SortKey := articleOrder request row

/-- `LawSearchResult`, with the date of publication which orders it. -/
structure LawSearchResult where
  documentId : Text
  title : Text
  documentType : Text
  authorityName : Text
  effectivenessLevel : Text
  status : Text
  currentVersionId : Option Text
  currentEffectiveFrom : Option Text
  currentEffectiveTo : Option Text
  matchedAlias : Option Text
  summary : Text
  score : Nat
  deriving DecidableEq

/-- `MAX` of a column. -/
def maxText (values : List Text) : Option Text :=
  (orderBy (fun value => [.descendingText value]) values).head?

/-- `document_order`, with the identifier at the end. -/
def documentOrder (law : LawSearchResult) : List SortKey :=
  let score := SortKey.descendingNumber law.score
  let standing := SortKey.ascendingNumber (statusRank law.status)
  let level := SortKey.ascendingNumber (effectivenessRank law.effectivenessLevel)
  let title := SortKey.ascendingText law.title
  let published := maxText ((corpus.versions.filter fun version =>
    version.documentId = law.documentId).filterMap LawVersion.publishedOn)
  (match request.sort with
  | .relevance => [score, standing, level, title]
  | .effectiveness => [level, score, standing, title]
  | .effectiveDate => [.descendingText (law.currentEffectiveFrom.getD earliestDate), score, title]
  | .publishedDate => [.descendingText (published.getD earliestDate), score, title]
  | .title => [title, score, standing]) ++ [.ascendingText law.documentId]

/-! ## Statements -/

/-- `LIMIT ? OFFSET ?`. -/
def page {α : Type} (rows : List α) : List α := (rows.drop request.offset).take request.limit

/-- The values of `LIMIT ? OFFSET ?`. -/
def pageValues : List SqlValue := [.integer request.limit, .integer request.offset]

/-- `LEFT JOIN citation_metadata`, with the scores. -/
def scoredArticles (rows : List JoinedArticle) : List ScoredArticle :=
  rows.flatMap fun row =>
    let citations := corpus.citations.filter fun citation => citation.articleId = row.article.id
    let score := articleScore request row.article + documentScore corpus request row.document
    if citations = [] then [⟨row, none, score⟩]
    else citations.map fun citation => ⟨row, some citation.citationId, score⟩

/-- The statement of `count_article_matches`: the articles and the documents which match. -/
def countStatement (candidates : Option (List Int)) : Statement (Nat × Nat) where
  values := articleFilterValues request ++ articleMatchValues unicode request ++
    candidateValues candidates
  rows :=
    let rows := matchedArticles unicode corpus today request candidates
    (rows.length, (rows.map fun row => row.article.documentId).dedup.length)

/-- The statement of `article_page_sql`. -/
def articlePageStatement (candidates : Option (List Int)) : Statement (List ScoredArticle) where
  values := articleScoreValues request ++ documentScoreValues request ++
    articleFilterValues request ++ articleMatchValues unicode request ++
    candidateValues candidates ++ pageValues request
  rows := page request (orderBy (articleOrder request)
    (scoredArticles corpus request (matchedArticles unicode corpus today request candidates)))

/-- The version of `selected_versions`. -/
def selectedVersionOf (document : LawDocument) : Option LawVersion :=
  (orderBy (fun version => [.descendingText version.effectiveFrom, .descendingText version.id])
    (corpus.versions.filter fun version =>
      version.documentId == document.id && versionVisible today request version)).head?

/-- A row of `document_matches`. -/
def lawSearchResult (document : LawDocument) (authority : IssuingAuthority) : LawSearchResult :=
  let version := selectedVersionOf corpus today request document
  { documentId := document.id
    title := document.title
    documentType := document.documentType
    authorityName := authority.name
    effectivenessLevel := document.effectivenessLevel
    status := document.status
    currentVersionId := version.map LawVersion.id
    currentEffectiveFrom := version.map LawVersion.effectiveFrom
    currentEffectiveTo := version.bind LawVersion.effectiveTo
    matchedAlias := maxText (((corpus.aliasesOf document).map LawAlias.alias).filter fun name =>
      columnLike name (likePattern (Text.trim request.query)))
    summary := document.summary
    score := documentScore corpus request document }

/-- The statement of `document_cte`. -/
def documentPageStatement (candidates : Option (List Int)) : Statement (List LawSearchResult) where
  values := versionVisibilityValues request ++ articleFilterValues request ++
    articleMatchValues unicode request ++ candidateValues candidates ++
    documentScoreValues request ++ [.text (likePattern (Text.trim request.query))] ++
    documentFilterValues request ++ pageValues request
  rows :=
    let matched := (matchedArticles unicode corpus today request candidates).map
      fun row => row.article.documentId
    let documents := corpus.documents.filter fun document =>
      matched.contains document.id && documentFilters corpus today request document
    page request (orderBy (documentOrder corpus request) (documents.flatMap fun document =>
      (corpus.authorities.filter fun authority => authority.id = document.authorityId).map
        (lawSearchResult corpus today request document)))

/-- The statement of `grouped_page_previews`: for each document the number of its articles and
the first three. -/
def previewStatement (candidates : Option (List Int)) (laws : List LawSearchResult) :
    Statement (Text → Nat × List ScoredArticle) where
  values := articleScoreValues request ++ documentScoreValues request ++
    articleFilterValues request ++ articleMatchValues unicode request ++
    candidateValues candidates ++ laws.map fun law => .text law.documentId
  rows := fun documentId =>
    let scored := (scoredArticles corpus request
      (matchedArticles unicode corpus today request candidates)).filter fun row =>
        laws.any (fun law => law.documentId == row.document.id) &&
          row.article.documentId == documentId
    (scored.length, (orderBy (groupedPreviewOrder request) scored).take 3)

end Selection

end LawyerAssistance.Retrieval

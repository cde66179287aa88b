import LawyerAssistance.Retrieval.Search

/-!
# The caches of the paged search

Rendered pages and exact counts are kept under the identity of the database and the rewritten
request. A page which is read moves to the front; pages, and behind them counts, are dropped from
the back when their estimated bytes exceed the budget.
-/

namespace LawyerAssistance.Retrieval

/-! ## Keys -/

/-- `SearchCacheKey`. -/
structure SearchCacheKey where
  identity : Text
  query : Text
  matchMode : SearchMatchMode
  versionScope : VersionScope
  view : SearchView
  documentId : Option Text
  caseDate : Option Text
  documentType : Option Text
  effectivenessLevel : Option Text
  jurisdiction : Option Text
  status : Option Text
  versionStatus : Option Text
  sort : SearchSort
  limit : Nat
  offset : Nat
  deriving DecidableEq

/-- `SearchCacheKey::new`. -/
def SearchCacheKey.new (identity : Text) (request : PagedSearchRequest) : SearchCacheKey where
  identity := identity
  query := canonicalQuery request.query
  matchMode := request.matchMode
  versionScope := request.versionScope
  view := request.view
  documentId := request.documentId
  caseDate := request.caseDate
  documentType := request.documentType
  effectivenessLevel := request.effectivenessLevel
  jurisdiction := request.jurisdiction
  status := request.status
  versionStatus := request.versionStatus
  sort := request.sort
  limit := request.limit
  offset := request.offset

/-- `CountCacheKey`: a key without its view, order and page. -/
structure CountCacheKey where
  key : SearchCacheKey
  deriving DecidableEq

/-- `CountCacheKey::from_page_key`. -/
def CountCacheKey.fromPageKey (key : SearchCacheKey) : CountCacheKey :=
  ⟨{ key with view := .flat, sort := .relevance, limit := 0, offset := 0 }⟩

/-- A legal database: its tables, what it declares about itself, and its file. -/
structure LegalDatabase where
  corpus : Corpus
  /-- The rows of `database_metadata`, when there is the table. -/
  metadata : Option (List (Text × Text))
  /-- `main_database_file_identity`. -/
  fileIdentity : Option Text

/-- A value of the metadata. -/
def metadataValue (metadata : List (Text × Text)) (name : String) : Option Text :=
  (metadata.find? fun row => row.1 == name.toList).map Prod.snd

/-- `SearchIndex::cache_identity`. -/
def SearchIndex.cacheIdentity (index : SearchIndex) : Text :=
  "index:v1:".toList ++ index.sourceManifestSha256.getD "unknown".toList ++
    ':' :: (toString (index.sourceArticleCount.getD (-1))).toList

/-- The visibility boundary of a request. -/
def asOfIdentity (today : Text) (request : PagedSearchRequest) : Text :=
  match request.versionScope with
  | .current => today
  | .asOf => request.caseDate.getD []
  | .all => "all".toList

/-- `search_cache_identity`. -/
def searchCacheIdentity (database : LegalDatabase) (index : Option SearchIndex) (today : Text)
    (request : PagedSearchRequest) : Option Text := do
  let metadata ← database.metadata
  let sourceManifest ← (metadataValue metadata "source_manifest_sha256").filter (· ≠ [])
  let fileIdentity ← database.fileIdentity
  let databaseIdentity := List.intercalate [':']
    [(metadataValue metadata "schema_version").getD [],
      (metadataValue metadata "runtime_schema_version").getD [],
      (metadataValue metadata "dataset_version").getD [], sourceManifest]
  let indexIdentity := (index.map SearchIndex.cacheIdentity).getD "index:none".toList
  some ("db:".toList ++ databaseIdentity ++ "|file:".toList ++ fileIdentity ++ "|as_of:".toList ++
    asOfIdentity today request ++ '|' :: indexIdentity)

/-! ## The state -/

/-- `SearchCacheState`, between calls. -/
structure SearchCacheState where
  bytes : Nat
  entries : List (SearchCacheKey × PagedSearchResponse × Nat)
  countEntries : List (CountCacheKey × (Nat × Nat) × Nat)

/-- The caches of a new process. -/
def SearchCacheState.empty : SearchCacheState := ⟨0, [], []⟩

/-- `MAX_SEARCH_CACHE_BYTES`. -/
def maxSearchCacheBytes : Nat := 128 * 1024 * 1024

/-- `MAX_SEARCH_CACHE_ENTRY_BYTES`. -/
def maxSearchCacheEntryBytes : Nat := 16 * 1024 * 1024

/-- The bytes which an entry is estimated to retain, with the layout of the build. -/
structure CacheEstimates where
  page : SearchCacheKey → PagedSearchResponse → Nat
  counts : CountCacheKey → Nat

section Deque

variable {κ ν : Type} [DecidableEq κ]

/-- The entry of a key, moved to the front. -/
def moveToFront (key : κ) (entries : List (κ × ν × Nat)) : Option (ν × List (κ × ν × Nat)) :=
  match entries.find? fun entry => entry.1 = key with
  | none => none
  | some entry => some (entry.2.1, entry :: entries.eraseP fun entry => entry.1 = key)

/-- The entries without the one of a key, and the bytes without those of it. -/
def withoutKey (key : κ) (bytes : Nat) (entries : List (κ × ν × Nat)) :
    Nat × List (κ × ν × Nat) :=
  match entries.find? fun entry => entry.1 = key with
  | none => (bytes, entries)
  | some entry => (bytes - entry.2.2, entries.eraseP fun entry => entry.1 = key)

/-- Entries are dropped from the back while the bytes exceed the budget. The list is reversed. -/
def dropToBudget (bytes : Nat) : List (κ × ν × Nat) → Nat × List (κ × ν × Nat)
  | [] => (bytes, [])
  | entry :: rest =>
      if maxSearchCacheBytes < bytes then dropToBudget (bytes - entry.2.2) rest
      else (bytes, entry :: rest)

end Deque

/-- `evict_cache_to_budget`. -/
def evictCacheToBudget (cache : SearchCacheState) : SearchCacheState :=
  let pages := dropToBudget cache.bytes cache.entries.reverse
  let counts := dropToBudget pages.1 cache.countEntries.reverse
  ⟨counts.1, pages.2.reverse, counts.2.reverse⟩

section Store

variable (estimates : CacheEstimates)

/-- `count_cache_store`. -/
def countCacheStore (cache : SearchCacheState) (key : CountCacheKey) (counts : Nat × Nat) :
    SearchCacheState :=
  let estimated := estimates.counts key
  if maxSearchCacheEntryBytes < estimated then cache
  else
    let others := withoutKey key cache.bytes cache.countEntries
    evictCacheToBudget ⟨others.1 + estimated, cache.entries, (key, counts, estimated) :: others.2⟩

/-- `finish_cache_flight`, with a page. -/
def finishCacheFlight (cache : SearchCacheState) (key : SearchCacheKey)
    (result : PagedSearchResponse) : SearchCacheState :=
  let estimated := estimates.page key result
  if maxSearchCacheEntryBytes < estimated then cache
  else
    let others := withoutKey key cache.bytes cache.entries
    evictCacheToBudget
      ⟨others.1 + estimated, (key, result, estimated) :: others.2, cache.countEntries⟩

end Store

/-! ## Searches -/

/-- What a search reads, apart from the request, the day and the caches. -/
structure SearchSource where
  unicode : UnicodeTables
  database : LegalDatabase
  index : Option SearchIndex
  estimates : CacheEstimates

section Search

variable (source : SearchSource) (today : Text)

/-- `cached_article_match_counts`. -/
def cachedArticleMatchCounts (cache : SearchCacheState) (pageKey : Option SearchCacheKey)
    (candidates : Option (List Int)) (request : PagedSearchRequest) :
    SearchCacheState × Except RetrievalError (Nat × Nat) :=
  let counted := (countStatement source.unicode source.database.corpus today request candidates).run
  match pageKey.map CountCacheKey.fromPageKey with
  | none => (cache, counted)
  | some key =>
      match moveToFront key cache.countEntries with
      | some (counts, entries) => ({ cache with countEntries := entries }, .ok counts)
      | none =>
          match counted with
          | .error error => (cache, .error error)
          | .ok counts => (countCacheStore source.estimates cache key counts, .ok counts)

/-- The page which the owner of a key computes. -/
def computePage (cache : SearchCacheState) (pageKey : Option SearchCacheKey) (plan : QueryPlan) :
    SearchCacheState × Except RetrievalError PagedSearchResponse :=
  let corpus := source.database.corpus
  match plan.exact with
  | some exact => (cache, searchExactPage source.unicode corpus today plan.request exact)
  | none =>
      match indexedCandidates source.unicode source.index plan.request with
      | .error error => (cache, .error error)
      | .ok candidates =>
          match cachedArticleMatchCounts source today cache pageKey candidates plan.request with
          | (cache, .error error) => (cache, .error error)
          | (cache, .ok counts) =>
              (cache, searchView source.unicode corpus today plan.request candidates (some counts))

/-- The response of a page under a plan. -/
def QueryPlan.answer (plan : QueryPlan) (page : PagedSearchResponse) : PagedSearchResponse :=
  { page with appliedQuery := plan.applied, ambiguities := plan.ambiguities }

/-- The response to a law name which is unknown or ambiguous. -/
def ambiguousResponse (request : PagedSearchRequest) (plan : QueryPlan) : PagedSearchResponse where
  view := request.view
  laws := []
  articles := []
  total := 0
  totalLaws := 0
  totalArticles := 0
  limit := request.limit
  offset := request.offset
  warnings := ["ambiguous_law_name"]
  appliedQuery := plan.applied
  ambiguities := plan.ambiguities

/-- The plan of a request whose page is valid. -/
def planRequest (request : PagedSearchRequest) : Except RetrievalError QueryPlan := do
  validatePage request
  compileQueryPlan source.database.corpus request

/-- The key of a plan, when the source declares its identity. -/
def pageKeyOf (plan : QueryPlan) : Option SearchCacheKey :=
  (searchCacheIdentity source.database source.index today plan.request).map fun identity =>
    SearchCacheKey.new identity plan.request

/-- The page of a plan, from the cache or computed and kept. -/
def searchPlan (cache : SearchCacheState) (plan : QueryPlan) :
    SearchCacheState × Except RetrievalError PagedSearchResponse :=
  match pageKeyOf source today plan with
  | none =>
      let computed := computePage source today cache none plan
      (computed.1, computed.2.map plan.answer)
  | some key =>
      match moveToFront key cache.entries with
      | some (page, entries) => ({ cache with entries }, .ok (plan.answer page))
      | none =>
          let computed := computePage source today cache (some key) plan
          match computed.2 with
          | .error error => (computed.1, .error error)
          | .ok page =>
              (finishCacheFlight source.estimates computed.1 key page, .ok (plan.answer page))

/-- `search_page`. -/
def searchPage (cache : SearchCacheState) (request : PagedSearchRequest) :
    SearchCacheState × Except RetrievalError PagedSearchResponse :=
  match planRequest source request with
  | .error error => (cache, .error error)
  | .ok plan =>
      if plan.ambiguities ≠ [] then (cache, .ok (ambiguousResponse request plan))
      else searchPlan source today cache plan

/-- `search_page` with empty caches. -/
def freshPage (request : PagedSearchRequest) : Except RetrievalError PagedSearchResponse :=
  (searchPage source today .empty request).2

/-- The page of a plan without any cache. -/
def pageOf (plan : QueryPlan) : Except RetrievalError PagedSearchResponse :=
  match plan.exact with
  | some exact =>
      searchExactPage source.unicode source.database.corpus today plan.request exact
  | none => do
      let candidates ← indexedCandidates source.unicode source.index plan.request
      let counts ← (countStatement source.unicode source.database.corpus today plan.request
        candidates).run
      searchView source.unicode source.database.corpus today plan.request candidates (some counts)

end Search

section Fresh

variable {source : SearchSource} {today : Text} {plan : QueryPlan}

/-- Without a key the page is computed without a cache. -/
theorem computePage_none (cache : SearchCacheState) :
    computePage source today cache none plan = (cache, pageOf source today plan) := by
  rw [computePage, pageOf]
  cases plan.exact with
  | some exact => rfl
  | none =>
      dsimp only
      cases indexedCandidates source.unicode source.index plan.request with
      | error error => rfl
      | ok candidates =>
          simp only [cachedArticleMatchCounts, Option.map_none, bind, Except.bind]
          cases (countStatement source.unicode source.database.corpus today plan.request
            candidates).run <;> rfl

/-- With empty counts the page is computed without a cache. -/
theorem computePage_of_noCounts {cache : SearchCacheState} (noCounts : cache.countEntries = [])
    (pageKey : Option SearchCacheKey) :
    (computePage source today cache pageKey plan).2 = pageOf source today plan := by
  rw [computePage, pageOf]
  cases plan.exact with
  | some exact => rfl
  | none =>
      dsimp only
      cases indexedCandidates source.unicode source.index plan.request with
      | error error => rfl
      | ok candidates =>
          dsimp only
          rw [cachedArticleMatchCounts]
          cases pageKey with
          | none =>
              dsimp only [Option.map_none]
              cases counted : (countStatement source.unicode source.database.corpus today
                plan.request candidates).run with
              | error error => simp only [bind, Except.bind, counted]
              | ok counts => simp only [bind, Except.bind, counted]
          | some key =>
              dsimp only [Option.map_some]
              rw [noCounts]
              dsimp only [moveToFront, List.find?_nil]
              cases counted : (countStatement source.unicode source.database.corpus today
                plan.request candidates).run with
              | error error => simp only [bind, Except.bind, counted]
              | ok counts => simp only [bind, Except.bind, counted]

/-- With empty caches a plan is answered by its page. -/
theorem searchPlan_empty :
    (searchPlan source today .empty plan).2 = (pageOf source today plan).map plan.answer := by
  rw [searchPlan]
  cases pageKeyOf source today plan with
  | none =>
      dsimp only
      rw [computePage_of_noCounts rfl]
  | some key =>
      dsimp only [SearchCacheState.empty, moveToFront, List.find?_nil]
      have computed : (computePage source today .empty (some key) plan).2 =
          pageOf source today plan := computePage_of_noCounts rfl (some key)
      dsimp only [SearchCacheState.empty] at computed
      rw [computed]
      cases pageOf source today plan <;> rfl

/-- A search with empty caches is the page of its plan. -/
theorem freshPage_eq (request : PagedSearchRequest) :
    freshPage source today request = (do
      let plan ← planRequest source request
      if plan.ambiguities ≠ [] then pure (ambiguousResponse request plan)
      else (pageOf source today plan).map plan.answer) := by
  rw [freshPage, searchPage]
  cases planRequest source request with
  | error error => rfl
  | ok plan =>
      dsimp only [bind, Except.bind]
      split_ifs
      · rfl
      · exact searchPlan_empty

end Fresh

end LawyerAssistance.Retrieval

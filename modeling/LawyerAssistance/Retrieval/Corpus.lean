import LawyerAssistance.Retrieval.Requests
import Mathlib.Data.List.Dedup
import Mathlib.Data.List.Infix
import Mathlib.Data.List.Sort

/-!
# The legal database and its index of bigrams

The rows of the tables which a search reads, with their joins, and the index which
`build_search_index.py` builds from them: for each article, the pairs of adjacent ideographs of
its title, number, text and law names.
-/

namespace LawyerAssistance.Retrieval

/-! ## Tables -/

/-- A row of `law_documents`. -/
structure LawDocument where
  id : Text
  title : Text
  documentType : Text := []
  authorityId : Text := []
  jurisdiction : Text := []
  effectivenessLevel : Text := []
  status : Text := []
  summary : Text := []

/-- A row of `law_versions`. -/
structure LawVersion where
  id : Text
  documentId : Text
  status : Text
  effectiveFrom : Text
  effectiveTo : Option Text := none
  publishedOn : Option Text := none

/-- A row of `law_articles`. -/
structure LawArticle where
  rowid : Int
  id : Text
  documentId : Text
  versionId : Text
  articleNumber : Text
  articleOrder : Int
  title : Option Text := none
  content : Text

/-- A row of `law_aliases`. -/
structure LawAlias where
  documentId : Text
  «alias» : Text
  normalizedAlias : Text

/-- A row of `issuing_authorities`. -/
structure IssuingAuthority where
  id : Text
  name : Text

/-- A row of `citation_metadata`. -/
structure CitationMetadata where
  articleId : Text
  citationId : Text

/-- The tables of a legal database. -/
structure Corpus where
  documents : List LawDocument
  versions : List LawVersion
  articles : List LawArticle
  aliases : List LawAlias := []
  authorities : List IssuingAuthority := []
  citations : List CitationMetadata := []

/-- The aliases of a document. -/
def Corpus.aliasesOf (corpus : Corpus) (document : LawDocument) : List LawAlias :=
  corpus.aliases.filter fun entry => entry.documentId = document.id

/-- An article with its document and its version. -/
structure JoinedArticle where
  article : LawArticle
  document : LawDocument
  version : LawVersion

/-- `law_articles JOIN law_documents JOIN law_versions`. -/
def Corpus.joinedArticles (corpus : Corpus) : List JoinedArticle :=
  corpus.articles.flatMap fun article =>
    (corpus.documents.filter fun document => document.id = article.documentId).flatMap
      fun document =>
        (corpus.versions.filter fun version => version.id = article.versionId).map
          fun version => ⟨article, document, version⟩

/-! ## Sorting -/

/-- An item of `ORDER BY`. Texts are compared as `BINARY` does. -/
inductive SortKey where
  | ascendingText (value : Text)
  | descendingText (value : Text)
  | ascendingNumber (value : Int)
  | descendingNumber (value : Int)

/-- The order of the collation `BINARY`. -/
def binaryCompare : Text → Text → Ordering
  | [], [] => .eq
  | [], _ :: _ => .lt
  | _ :: _, [] => .gt
  | first :: firstRest, second :: secondRest =>
      (compare first.toNat second.toNat).then (binaryCompare firstRest secondRest)

/-- The order of an item of two rows. -/
def SortKey.compare : SortKey → SortKey → Ordering
  | .ascendingText first, .ascendingText second => binaryCompare first second
  | .descendingText first, .descendingText second => binaryCompare second first
  | .ascendingNumber first, .ascendingNumber second => Ord.compare first second
  | .descendingNumber first, .descendingNumber second => Ord.compare second first
  | _, _ => .eq

/-- The order of two rows. -/
def compareKeys : List SortKey → List SortKey → Ordering
  | first :: firstRest, second :: secondRest =>
      (first.compare second).then (compareKeys firstRest secondRest)
  | _, _ => .eq

/-- `ORDER BY`. -/
def orderBy {α : Type} (keys : α → List SortKey) (rows : List α) : List α :=
  rows.insertionSort fun first second => compareKeys (keys first) (keys second) ≠ .gt

/-! ## Bigrams -/

/-- `is_cjk_ideograph` of the search. -/
def isCjkIdeograph (character : Char) : Bool :=
  let code := character.toNat
  (0x3400 ≤ code && code ≤ 0x4dbf) || (0x4e00 ≤ code && code ≤ 0x9fff) ||
    (0xf900 ≤ code && code ≤ 0xfaff) || (0x20000 ≤ code && code ≤ 0x2fa1f) ||
    (0x30000 ≤ code && code ≤ 0x323af)

/-- `is_cjk` of the index builder. -/
def isCjk (character : Char) : Bool :=
  let codepoint := character.toNat
  (0x3400 ≤ codepoint && codepoint ≤ 0x4DBF) || (0x4E00 ≤ codepoint && codepoint ≤ 0x9FFF) ||
    (0xF900 ≤ codepoint && codepoint ≤ 0xFAFF) || (0x20000 ≤ codepoint && codepoint ≤ 0x2FA1F) ||
    (0x30000 ≤ codepoint && codepoint ≤ 0x323AF)

/-- `chinese_bigrams`. -/
def chineseBigrams : Text → List Text
  | previous :: character :: rest =>
      (if isCjk previous && isCjk character then [[previous, character]] else []) ++
        chineseBigrams (character :: rest)
  | _ => []

/-- The texts of the aliases of a document, as `group_concat` joins them. -/
def aliasText (corpus : Corpus) (document : LawDocument) : Text :=
  List.intercalate ['\n']
    ((corpus.aliasesOf document).map fun entry => entry.alias ++ '\n' :: entry.normalizedAlias)

/-- `article_rows`: the text of each article which is indexed. -/
def articleRows (corpus : Corpus) : List (Int × Text) :=
  corpus.articles.flatMap fun article =>
    (corpus.documents.filter fun document => document.id = article.documentId).map fun document =>
      (article.rowid, document.title ++ '\n' :: article.articleNumber ++ '\n' ::
        article.title.getD [] ++ '\n' :: article.content ++ '\n' :: aliasText corpus document)

/-- `SearchIndex`: the rows of `article_bigrams` and the metadata. -/
structure SearchIndex where
  articleBigrams : List (Text × Int)
  sourceManifestSha256 : Option Text := none
  sourceArticleCount : Option Int := none

/-- The rows which `build` inserts into `article_bigrams`. -/
def buildArticleBigrams (corpus : Corpus) : List (Text × Int) :=
  ((articleRows corpus).flatMap fun (rowid, text) =>
    (chineseBigrams text).map fun pair => (pair, rowid)).dedup

/-- `build`: the index of a database with a manifest. -/
def buildSearchIndex (corpus : Corpus) (sourceManifestSha256 : Text) : SearchIndex where
  articleBigrams := buildArticleBigrams corpus
  sourceManifestSha256 := some sourceManifestSha256
  sourceArticleCount := some corpus.articles.length

/-- Two ideographs side by side in a text are one of its bigrams. -/
theorem mem_chineseBigrams {text : Text} {first second : Char} (firstCjk : isCjk first = true)
    (secondCjk : isCjk second = true) (adjacent : [first, second] <:+: text) :
    [first, second] ∈ chineseBigrams text := by
  induction text with
  | nil => exact absurd adjacent (by simp)
  | cons character rest inductionHypothesis =>
      cases rest with
      | nil =>
          have length := adjacent.length_le
          simp at length
      | cons next rest =>
          rw [chineseBigrams, List.mem_append]
          obtain here | later := List.infix_cons_iff.mp adjacent
          · obtain ⟨sameFirst, here⟩ := List.cons_prefix_cons.mp here
            obtain ⟨sameSecond, _⟩ := List.cons_prefix_cons.mp here
            left
            rw [← sameFirst, ← sameSecond, firstCjk, secondCjk]
            simp
          · exact .inr (inductionHypothesis later)

section Index

variable {corpus : Corpus} {article : LawArticle} {document : LawDocument} {part : Text}

/-- The parts of an article and of its document which a term can match. -/
inductive ArticlePart (corpus : Corpus) (article : LawArticle) (document : LawDocument) :
    Text → Prop
  | documentTitle : ArticlePart corpus article document document.title
  | articleNumber : ArticlePart corpus article document article.articleNumber
  | articleTitle : ArticlePart corpus article document (article.title.getD [])
  | content : ArticlePart corpus article document article.content
  | aliasName {entry} (member : entry ∈ corpus.aliasesOf document) :
      ArticlePart corpus article document entry.alias
  | normalizedAlias {entry} (member : entry ∈ corpus.aliasesOf document) :
      ArticlePart corpus article document entry.normalizedAlias

/-- An alias is part of the joined text. -/
theorem infix_aliasText {entry : LawAlias} (member : entry ∈ corpus.aliasesOf document) :
    entry.alias ++ '\n' :: entry.normalizedAlias <:+: aliasText corpus document := by
  have inside {texts : List Text} {text : Text} (among : text ∈ texts) :
      text <:+: List.intercalate ['\n'] texts := by
    obtain ⟨before, after, rfl⟩ := List.append_of_mem among
    have behind : text <:+: List.intercalate ['\n'] (text :: after) := by
      cases after with
      | nil => simp
      | cons next after =>
          rw [List.intercalate_cons_cons]
          exact ⟨[], ['\n'] ++ List.intercalate ['\n'] (next :: after), by simp⟩
    induction before with
    | nil => exact behind
    | cons first before inductionHypothesis =>
        have nonempty : ∃ next others, before ++ text :: after = next :: others := by
          cases before with
          | nil => exact ⟨text, after, rfl⟩
          | cons next before => exact ⟨next, before ++ text :: after, rfl⟩
        have later := inductionHypothesis (by simp)
        obtain ⟨next, others, shape⟩ := nonempty
        rw [List.cons_append, shape, List.intercalate_cons_cons, ← shape]
        exact later.trans ⟨first ++ ['\n'], [], by simp⟩
  exact inside (List.mem_map_of_mem member)

/-- Every part of an article which a term can match is indexed with it. -/
theorem ArticlePart.exists_row (matched : ArticlePart corpus article document part)
    (articleMember : article ∈ corpus.articles) (documentMember : document ∈ corpus.documents)
    (joined : document.id = article.documentId) :
    ∃ text, (article.rowid, text) ∈ articleRows corpus ∧ part <:+: text := by
  refine ⟨_, List.mem_flatMap.mpr ⟨article, articleMember, List.mem_map.mpr
    ⟨document, List.mem_filter.mpr ⟨documentMember, by simpa using joined⟩, rfl⟩⟩, ?_⟩
  have inAliases {text : Text} (inside : text <:+: aliasText corpus document) :
      text <:+: document.title ++ '\n' :: article.articleNumber ++ '\n' ::
        article.title.getD [] ++ '\n' :: article.content ++ '\n' :: aliasText corpus document :=
    inside.trans ⟨document.title ++ '\n' :: article.articleNumber ++ '\n' ::
      article.title.getD [] ++ '\n' :: article.content ++ ['\n'], [], by simp⟩
  cases matched with
  | documentTitle =>
      exact ⟨[], '\n' :: article.articleNumber ++ '\n' :: article.title.getD [] ++ '\n' ::
        article.content ++ '\n' :: aliasText corpus document, by simp⟩
  | articleNumber =>
      exact ⟨document.title ++ ['\n'], '\n' :: article.title.getD [] ++ '\n' ::
        article.content ++ '\n' :: aliasText corpus document, by simp⟩
  | articleTitle =>
      exact ⟨document.title ++ '\n' :: article.articleNumber ++ ['\n'],
        '\n' :: article.content ++ '\n' :: aliasText corpus document, by simp⟩
  | content =>
      exact ⟨document.title ++ '\n' :: article.articleNumber ++ '\n' ::
        article.title.getD [] ++ ['\n'], '\n' :: aliasText corpus document, by simp⟩
  | @aliasName entry member =>
      exact inAliases (.trans ⟨[], '\n' :: entry.normalizedAlias, by simp⟩ (infix_aliasText member))
  | @normalizedAlias entry member =>
      exact inAliases (.trans ⟨entry.alias ++ ['\n'], [], by simp⟩ (infix_aliasText member))

/-- The bigrams of a part of an article are recorded for the article. -/
theorem mem_buildArticleBigrams (matched : ArticlePart corpus article document part)
    (articleMember : article ∈ corpus.articles) (documentMember : document ∈ corpus.documents)
    (joined : document.id = article.documentId) {first second : Char}
    (firstCjk : isCjkIdeograph first = true) (secondCjk : isCjkIdeograph second = true)
    (adjacent : [first, second] <:+: part) :
    ([first, second], article.rowid) ∈ buildArticleBigrams corpus := by
  obtain ⟨text, row, inside⟩ := matched.exists_row articleMember documentMember joined
  exact List.mem_dedup.mpr (List.mem_flatMap.mpr ⟨_, row, List.mem_map.mpr
    ⟨_, mem_chineseBigrams firstCjk secondCjk (adjacent.trans inside), rfl⟩⟩)

end Index

end LawyerAssistance.Retrieval

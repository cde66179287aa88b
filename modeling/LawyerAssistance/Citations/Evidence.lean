import LawyerAssistance.Std.Fallible
import LawyerAssistance.Std.Occurrences
import LawyerAssistance.Std.Table
import Mathlib.Data.List.Sort

/-!
# Evidence for the citations of an answer

A check reads every cited source, compares the quote, the effective period and the hash of the
text which the check before it remembered, and folds the outcomes into one state. The evidence
keeps identities, hashes and states; the texts stay in the databases.
-/

namespace LawyerAssistance.Citations

/-! ## Sources -/

/-- `LawArticleDetail`, as far as a citation reads it. -/
structure LawArticleDetail where
  articleId : String
  documentId : String := ""
  versionId : String := ""
  documentTitle : String := ""
  versionLabel : String := ""
  articleNumber : String := ""
  content : String
  effectiveFrom : String
  effectiveTo : Option String := none
  versionStatus : String := ""

/-- `JudicialCaseDetail`, as far as a citation reads it. -/
structure JudicialCaseDetail where
  caseId : String
  title : String := ""
  sourceUrl : String := ""
  publicationDate : Option String := none
  status : String := ""
  fullText : String

/-- What one check gets from the rest of the program: the answers of the legal databases, which
find a source under its identifier, and where the check is refused or cancelled. -/
structure CheckServices where
  /-- `legal_get_article_cancellable`, with the code of its error. -/
  readArticle : String → Except String LawArticleDetail
  /-- `judicial_case_get_cancellable`, with the code of its error. -/
  readCase : String → Except String JudicialCaseDetail
  /-- The query selects by the identifier. -/
  articleNamed : ∀ {id article}, readArticle id = .ok article → article.articleId = id
  /-- The query selects by the identifier. -/
  caseNamed : ∀ {id judicial}, readCase id = .ok judicial → judicial.caseId = id
  /-- Whether the check is cancelled before it comes to a source. -/
  cancelledAt : String → Bool
  /-- `acquire_admission`. -/
  admits : Except String Unit
  /-- Whether the storage takes the checked run. -/
  commits : Except String Unit

/-! ## Citations -/

/-- A citation: an object of the model's answer, or one which a run shows. Members which are
missing or no texts are `none`. -/
structure CitationValue where
  kind : Option String := none
  articleId : Option String := none
  caseId : Option String := none
  id : Option String := none
  documentId : Option String := none
  title : Option String := none
  articleNumber : Option String := none
  versionId : Option String := none
  versionLabel : Option String := none
  effectiveFrom : Option String := none
  effectiveTo : Option String := none
  status : Option String := none
  sourceUrl : Option String := none
  publicationDate : Option String := none
  reason : Option String := none
  quote : Option String := none

/-- `CitationInput`. -/
structure CitationInput where
  kind : String
  id : String
  quote : Option String
  reason : String

/-- `source_key`. -/
def sourceKey (kind id : String) : String := kind ++ ":" ++ id

/-- The key of a source which is checked. -/
def CitationInput.key (input : CitationInput) : String := sourceKey input.kind input.id

/-! ## Evidence -/

/-- `AiCitationMatchRange`. -/
structure AiCitationMatchRange where
  startByte : Nat
  endByte : Nat
deriving DecidableEq

/-- The texts of `source_exists`. -/
inductive SourceExists where
  | passed
  | notFound
  | unknown
deriving DecidableEq

/-- The texts of `full_text_read`. -/
inductive FullTextRead where
  | passed
  | notRead
  | unavailable
deriving DecidableEq

/-- The texts of `citation_match`. -/
inductive CitationMatch where
  | notProvided
  | mismatch
  | matched
  | ambiguous
  | notChecked
deriving DecidableEq

/-- The texts of `time_check`. -/
inductive TimeCheck where
  | unknown
  | outsideCaseDate
  | passed
  | notApplicable
deriving DecidableEq

/-- The texts of `source_content`. -/
inductive SourceContent where
  | changed
  | unchanged
  | firstSeen
  | unknown
deriving DecidableEq

/-- `AiCitationSourceEvidence`. -/
structure AiCitationSourceEvidence where
  sourceKind : String
  sourceId : String
  documentId : Option String
  versionId : Option String
  sourceFullTextSha256 : Option String
  citationLocator : String
  quoteSha256 : Option String
  matchedRanges : List AiCitationMatchRange
  sourceExists : SourceExists
  fullTextRead : FullTextRead
  citationMatch : CitationMatch
  timeCheck : TimeCheck
  sourceContent : SourceContent
  errorCategory : Option String
  relevance : String := "manual_review_required"

/-- The key under which the hash of a source is remembered. -/
def AiCitationSourceEvidence.key (evidence : AiCitationSourceEvidence) : String :=
  sourceKey evidence.sourceKind evidence.sourceId

/-- The texts of `AiCitationVerification::state`. -/
inductive VerificationState where
  | legacyPending
  | stale
  | passed
  | pending
deriving DecidableEq

/-- `AiCitationVerification`. -/
structure AiCitationVerification where
  state : VerificationState
  reasons : List String
  bodySha256 : String
  runRevision : Nat
  caseDate : Option String
  verifiedAt : Option Nat
  sources : List AiCitationSourceEvidence

/-- `CitationCheckResult`. -/
structure CitationCheckResult where
  citations : List CitationValue
  verification : AiCitationVerification

/-- The fields of `AiRun` which the checks read and write. -/
structure CitedRun where
  revision : Nat
  /-- Whether the status is `completed`. -/
  completed : Bool
  content : String
  caseDate : Option String
  /-- The texts of the messages which have one. -/
  messages : List String
  /-- The kinds of the sources which the tools returned. -/
  allowedSources : Table (Option String)
  citations : List CitationValue
  citationVerification : Option AiCitationVerification
  updatedAt : Nat

/-! ## The checks of one source -/

/-- `is_iso_calendar_date`. Every byte of a date is an ASCII character. -/
def isIsoCalendarDate (value : String) : Bool :=
  match value.toList with
  | [y₁, y₂, y₃, y₄, '-', m₁, m₂, '-', d₁, d₂] =>
      let number (digits : List Char) : Nat :=
        digits.foldl (fun value digit => value * 10 + (digit.toNat - '0'.toNat)) 0
      let year := number [y₁, y₂, y₃, y₄]
      let month := number [m₁, m₂]
      let day := number [d₁, d₂]
      let daysInMonth :=
        if month ∈ [1, 3, 5, 7, 8, 10, 12] then 31
        else if month ∈ [4, 6, 9, 11] then 30
        else if month = 2 then
          if year % 400 = 0 ∨ year % 4 = 0 ∧ year % 100 ≠ 0 then 29 else 28
        else 0
      [y₁, y₂, y₃, y₄, m₁, m₂, d₁, d₂].all Char.isDigit &&
        decide (0 < year ∧ 1 ≤ day ∧ day ≤ daysInMonth)
  | _ => false

section Checks

variable (hash : String → String)

/-- `QuoteMatch`. -/
structure QuoteMatch where
  state : CitationMatch
  quoteSha256 : Option String
  ranges : List AiCitationMatchRange

/-- `quote_match`. -/
def quoteMatch (quote : Option String) (source : String) : QuoteMatch :=
  match quote with
  | none => ⟨.notProvided, none, []⟩
  | some quote =>
      let ranges := ((Text.matchIndices quote.toList 0 0 source.toList).take 8).map fun start =>
        AiCitationMatchRange.mk start (start + Text.byteLength quote.toList)
      let state : CitationMatch :=
        match ranges.length with
        | 0 => .mismatch
        | 1 => .matched
        | _ => .ambiguous
      ⟨state, some (hash quote), ranges⟩

/-- `article_time_check`. Dates are compared as texts. -/
def articleTimeCheck (caseDate : Option String) (effectiveFrom : String)
    (effectiveTo : Option String) (versionStatus : String) : TimeCheck :=
  match caseDate with
  | none => .unknown
  | some caseDate =>
      if isIsoCalendarDate caseDate = false then .unknown
      else if caseDate < effectiveFrom ∨ effectiveTo.any (fun bound => bound < caseDate) = true ∨
          versionStatus = "repealed" ∧ effectiveTo = none then .outsideCaseDate
      else .passed

/-- `content_state`. -/
def contentState (previous : Option String) (current : String) : SourceContent :=
  match previous with
  | some previous => if previous ≠ current then .changed else .unchanged
  | none => .firstSeen

/-- `map_legal_error`. -/
def mapLegalError (code : String) : String :=
  if code = "request_cancelled" ∨ code = "cancelled" then "cancelled"
  else if code = "not_found" then "citation_not_found"
  else "citation_source_unavailable"

/-- A citation shows the quote only when it matched. -/
def shownQuote (input : CitationInput) (evidence : AiCitationSourceEvidence) : Option String :=
  if evidence.citationMatch = .matched then some (input.quote.getD "") else none

/-- `resolve_article`. -/
def resolveArticle (services : CheckServices) (input : CitationInput) (caseDate : Option String)
    (priorHash : Option String) :
    Except String (CitationValue × AiCitationSourceEvidence) := do
  let article ← (services.readArticle input.id).mapError mapLegalError
  let sourceHash := hash article.content
  let found := quoteMatch hash input.quote article.content
  let evidence : AiCitationSourceEvidence :=
    { sourceKind := "article"
      sourceId := article.articleId
      documentId := some article.documentId
      versionId := some article.versionId
      sourceFullTextSha256 := some sourceHash
      citationLocator := "law-article:" ++ article.documentId ++ ":" ++ article.versionId ++ ":" ++
        article.articleNumber
      quoteSha256 := found.quoteSha256
      matchedRanges := found.ranges
      sourceExists := .passed
      fullTextRead := .passed
      citationMatch := found.state
      timeCheck := articleTimeCheck caseDate article.effectiveFrom article.effectiveTo
        article.versionStatus
      sourceContent := contentState priorHash sourceHash
      errorCategory := none }
  pure
    ({ kind := some "article"
       articleId := some article.articleId
       documentId := some article.documentId
       title := some article.documentTitle
       articleNumber := some article.articleNumber
       versionId := some article.versionId
       versionLabel := some article.versionLabel
       effectiveFrom := some article.effectiveFrom
       effectiveTo := article.effectiveTo
       status := some article.versionStatus
       reason := some input.reason
       quote := shownQuote input evidence }, evidence)

/-- `resolve_case`. The date of a case is no bound on its use. -/
def resolveCase (services : CheckServices) (input : CitationInput) (priorHash : Option String) :
    Except String (CitationValue × AiCitationSourceEvidence) := do
  let judicial ← (services.readCase input.id).mapError mapLegalError
  let sourceHash := hash judicial.fullText
  let found := quoteMatch hash input.quote judicial.fullText
  let evidence : AiCitationSourceEvidence :=
    { sourceKind := "case"
      sourceId := judicial.caseId
      documentId := none
      versionId := none
      sourceFullTextSha256 := some sourceHash
      citationLocator := "judicial-case:" ++ judicial.caseId
      quoteSha256 := found.quoteSha256
      matchedRanges := found.ranges
      sourceExists := .passed
      fullTextRead := .passed
      citationMatch := found.state
      timeCheck := .notApplicable
      sourceContent := contentState priorHash sourceHash
      errorCategory := none }
  pure
    ({ kind := some "case"
       caseId := some judicial.caseId
       title := some judicial.title
       sourceUrl := some judicial.sourceUrl
       publicationDate := judicial.publicationDate
       status := some judicial.status
       reason := some input.reason
       quote := shownQuote input evidence }, evidence)

/-- `fallback_citation`. -/
def fallbackCitation (input : CitationInput) : CitationValue :=
  if input.kind = "case" then
    { kind := some input.kind, reason := some input.reason, caseId := some input.id }
  else { kind := some input.kind, reason := some input.reason, articleId := some input.id }

/-- The evidence of a source which was not read. -/
def unreadEvidence (input : CitationInput) (sourceExists : SourceExists)
    (fullTextRead : FullTextRead) (errorCategory : String) : AiCitationSourceEvidence where
  sourceKind := input.kind
  sourceId := input.id
  documentId := none
  versionId := none
  sourceFullTextSha256 := none
  citationLocator :=
    (if input.kind = "article" then "law-article:"
      else if input.kind = "case" then "judicial-case:" else "source:") ++ input.id
  quoteSha256 := input.quote.map hash
  matchedRanges := []
  sourceExists
  fullTextRead
  citationMatch := .notChecked
  timeCheck := if input.kind = "case" then .notApplicable else .unknown
  sourceContent := .unknown
  errorCategory := some errorCategory

/-- `missing_source_evidence`. -/
def missingSourceEvidence (input : CitationInput) : AiCitationSourceEvidence :=
  unreadEvidence hash input .notFound .notRead "citation_not_found"

/-- `unavailable_source_evidence`, with the one category of `safe_source_error_category`. -/
def unavailableSourceEvidence (input : CitationInput) : AiCitationSourceEvidence :=
  unreadEvidence hash input .unknown .unavailable "citation_source_unavailable"

/-- `collect_evidence_reasons`. -/
def evidenceReasons (evidence : AiCitationSourceEvidence) : List String :=
  (if evidence.sourceExists = .notFound then ["citation_source_missing"] else []) ++
  (if evidence.fullTextRead ≠ .passed then ["citation_full_text_unreadable"] else []) ++
  evidence.errorCategory.toList ++
  (match evidence.citationMatch with
    | .mismatch => ["citation_quote_mismatch"]
    | .ambiguous => ["citation_quote_ambiguous"]
    | .notProvided => ["citation_quote_missing"]
    | .notChecked => ["citation_quote_unchecked"]
    | .matched => []) ++
  (match evidence.timeCheck with
    | .unknown => ["case_date_unknown"]
    | .outsideCaseDate => ["citation_outside_case_date"]
    | .passed | .notApplicable => []) ++
  (if evidence.sourceContent = .changed then ["citation_source_changed"] else [])

/-! ## The check of a run -/

/-- The hash of a source which was read is remembered under its key. -/
def rememberHash (hashes : Table String) (evidence : AiCitationSourceEvidence) : Table String :=
  match evidence.sourceFullTextSha256 with
  | some hash => hashes.put evidence.key hash
  | none => hashes

/-- `previous_source_hashes`. -/
def previousSourceHashes (sources : List AiCitationSourceEvidence) : Table String :=
  sources.foldl rememberHash ∅

/-- The check of one source: a source which cannot be read is evidence of its own in a check which
allows it. -/
def checkSource (services : CheckServices) (caseDate : Option String)
    (previousHashes : Table String) (allowMissingSources : Bool) (input : CitationInput) :
    Except String (CitationValue × AiCitationSourceEvidence) := do
  refuseIf (services.cancelledAt input.key = true) "cancelled"
  let priorHash := previousHashes.get input.key
  let resolved :=
    if input.kind = "article" then resolveArticle hash services input caseDate priorHash
    else if input.kind = "case" then resolveCase hash services input priorHash
    else .error "citation_not_retrieved"
  match resolved with
  | .ok checked => pure checked
  | .error code =>
      if code = "cancelled" ∨ allowMissingSources = false then .error code
      else if code = "citation_not_found" then
        pure (fallbackCitation input, missingSourceEvidence hash input)
      else pure (fallbackCitation input, unavailableSourceEvidence hash input)

/-- `resolve_citation_sources`. The reasons are a sorted set. -/
def resolveCitationSources (services : CheckServices) (inputs : List CitationInput)
    (bodySha256 : String) (runRevision : Nat) (caseDate : Option String)
    (previousHashes : Table String) (allowMissingSources : Bool) (now : Nat) :
    Except String CitationCheckResult := do
  let checked ← inputs.mapM (checkSource hash services caseDate previousHashes allowMissingSources)
  let sources := checked.map Prod.snd
  let reasons := sources.flatMap evidenceReasons ++
    (if sources = [] then ["no_citations"] else [])
  pure
    { citations := checked.map Prod.fst
      verification :=
        { state := if reasons = [] then .passed else .pending
          reasons := reasons.dedup.insertionSort (fun first second => first ≤ second)
          bodySha256
          runRevision
          caseDate
          verifiedAt := some now
          sources } }

end Checks

/-! ## What a run cites -/

/-- `resolve_allowed_source`: the kind which a tool result gave the source. -/
def resolveAllowedSource (allowed : Table (Option String)) (preferredKind : Option String)
    (id : String) : Except String (Option String) :=
  match preferredKind with
  | some kind =>
      presentOr ((allowed.get (sourceKey kind id)).or
        ((allowed.get id).filter fun found => found = some kind)) "citation_not_retrieved"
  | none =>
      match ["article", "case"].filterMap (fun kind => allowed.get (sourceKey kind id)) ++
          (allowed.get id).toList with
      | [found] => .ok found
      | [] => .error "citation_not_retrieved"
      | _ => .error "citation_identifier_ambiguous"

/-- The kinds of sources. -/
def isSourceKind (kind : String) : Bool := kind = "article" || kind = "case"

/-- The kind and the identifier which a citation of the model's answer names. -/
def answerSource (allowed : Table (Option String)) (value : CitationValue) :
    Except String (String × String) := do
  let (preferredKind, id) ← presentOr
    ((value.articleId.map fun id => (some "article", id)).or
      ((value.caseId.map fun id => (some "case", id)).or (value.id.map fun id => (none, id))))
    "citation_identifier_missing"
  refuseIf (id = "" ∨ 200 < id.utf8ByteSize) "citation_identifier_missing"
  let found ← resolveAllowedSource allowed preferredKind id
  let kind ← presentOr (found.filter isSourceKind) "citation_not_retrieved"
  pure (kind, id)

/-- The kind and the identifier which a shown citation names. -/
def shownSource (value : CitationValue) : Except String (String × String) := do
  let kind ← presentOr (value.kind.filter isSourceKind) "citation_evidence_missing"
  let id ← presentOr
    ((if kind = "article" then value.articleId else value.caseId).filter
      fun id => id ≠ "" && decide (id.utf8ByteSize ≤ 200))
    "citation_evidence_missing"
  pure (kind, id)

/-- What is checked of a source: a quote which is not empty, within its bound where the answer is
new, and the reason, or the text for none. -/
def citedInput (quoteLimited : Bool) (kind id : String) (value : CitationValue) :
    Except String CitationInput := do
  let quote := value.quote.filter fun quote => quote ≠ ""
  refuseIf (quoteLimited = true ∧ quote.any (fun quote =>
    decide (64 * 1024 < quote.utf8ByteSize) || decide ('\x00' ∈ quote.toList)) = true)
    "citation_quote_invalid"
  let reason := (value.reason.filter fun reason =>
    reason ≠ "" && decide (reason.utf8ByteSize ≤ 8 * 1024)).getD "相关法律依据"
  pure ⟨kind, id, quote, reason⟩

/-- The sources of a list of citations, each one once. -/
def collectInputs (source : CitationValue → Except String (String × String))
    (quoteLimited : Bool) : List String → List CitationValue →
    Except String (List CitationInput)
  | _, [] => .ok []
  | seen, value :: rest => do
      let (kind, id) ← source value
      if sourceKey kind id ∈ seen then collectInputs source quoteLimited seen rest
      else
        let input ← citedInput quoteLimited kind id value
        let others ← collectInputs source quoteLimited (sourceKey kind id :: seen) rest
        pure (input :: others)

/-- `final_citation_inputs`. -/
def finalCitationInputs (run : CitedRun) (values : List CitationValue) :
    Except String (List CitationInput) :=
  collectInputs (answerSource run.allowedSources) true [] values

section Persisted

variable (answerCitations : String → Option (List CitationValue))

/-- The sources of the newest message which is an answer with citations. -/
def answeredInputs (run : CitedRun) : List String → Except String (List CitationInput)
  | [] => .ok []
  | message :: older =>
      match answerCitations message with
      | none => answeredInputs run older
      | some citations => do
          let inputs ← finalCitationInputs run citations
          if inputs = [] then answeredInputs run older else pure inputs

/-- `persisted_citation_inputs`. The parameter reads the `citations` of the JSON object which a
message holds. -/
def persistedCitationInputs (run : CitedRun) : Except String (List CitationInput) := do
  let inputs ← answeredInputs answerCitations run run.messages.reverse
  if inputs = [] then collectInputs shownSource false [] run.citations else pure inputs

/-- `recheck_ai_citations`, without a concurrent writer of the row. -/
def recheckAiCitations (hash : String → String) (services : CheckServices) (now : Nat)
    (run : CitedRun) (expectedRevision : Nat) : Except String CitedRun := do
  refuseIf (run.revision ≠ expectedRevision) "revision_conflict"
  refuseIf (run.completed = false) "document_not_ready"
  let inputs ← persistedCitationInputs answerCitations run
  services.admits
  let checked ← resolveCitationSources hash services inputs (hash run.content) run.revision
    run.caseDate (previousSourceHashes ((run.citationVerification.map fun verification =>
      verification.sources).getD [])) true now
  services.commits
  pure { run with
    citations := checked.citations
    citationVerification := some checked.verification
    updatedAt := now }

end Persisted

end LawyerAssistance.Citations

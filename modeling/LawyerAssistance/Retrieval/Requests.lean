import LawyerAssistance.Std.Fallible
import LawyerAssistance.Std.Text
import Mathlib.Data.List.DropRight

/-!
# Search requests

A request of the paged search, its canonical query, the terms which are searched, and the query
which names an article of a law. The article number of such a query is spelled in Chinese and
with digits.
-/

namespace LawyerAssistance.Retrieval

/-- A text is the list of its characters. -/
abbrev Text := List Char

/-- `RetrievalError`. -/
inductive RetrievalError where
  | invalidRequest (message : String)
  | sqlite (message : String)
  deriving DecidableEq

/-- `SearchMatchMode`. -/
inductive SearchMatchMode where
  /-- Each ordinary term must match somewhere in the same candidate row. -/
  | all
  /-- At least one ordinary term must match. -/
  | any
  /-- The supplied normalized text must occur as one contiguous literal. -/
  | phrase
  deriving DecidableEq

/-- `VersionScope`. -/
inductive VersionScope where
  | current
  | asOf
  | all
  deriving DecidableEq

/-- `SearchView`. -/
inductive SearchView where
  | grouped
  | flat
  deriving DecidableEq

/-- `SearchSort`. -/
inductive SearchSort where
  | relevance
  | effectiveness
  | effectiveDate
  | publishedDate
  | title
  deriving DecidableEq

/-- `PagedSearchRequest`. -/
structure PagedSearchRequest where
  query : Text
  matchMode : SearchMatchMode := .all
  versionScope : VersionScope := .current
  view : SearchView
  documentId : Option Text := none
  caseDate : Option Text := none
  limit : Nat
  offset : Nat := 0
  documentType : Option Text := none
  effectivenessLevel : Option Text := none
  jurisdiction : Option Text := none
  status : Option Text := none
  versionStatus : Option Text := none
  sort : SearchSort := .relevance
  deriving DecidableEq

/-- `MAX_PAGE_LIMIT`. -/
def maxPageLimit : Nat := 100

/-- `MAX_PAGE_OFFSET`. -/
def maxPageOffset : Nat := 1000000

/-- `MAX_SEARCH_TERMS`. -/
def maxSearchTerms : Nat := 16

/-- `validate_page`. -/
def validatePage (request : PagedSearchRequest) : Except RetrievalError Unit := do
  refuseIf (request.limit < 1 ∨ maxPageLimit < request.limit)
    (.invalidRequest "limit must be between 1 and 100")
  refuseIf (maxPageOffset < request.offset)
    (.invalidRequest "offset must not exceed 1000000")

/-- `validate_version_scope`. -/
def validateVersionScope (request : PagedSearchRequest) : Except RetrievalError Unit :=
  match request.versionScope, request.caseDate with
  | .asOf, none => .error (.invalidRequest "as_of version scope requires case_date")
  | .current, some _ | .all, some _ =>
      .error (.invalidRequest "case_date is only valid with as_of version scope")
  | _, _ => .ok ()

/-- What the services let through to the search: `validate_text` with 16 KiB and one line. -/
structure Admissible (request : PagedSearchRequest) : Prop where
  nonempty : Text.trim request.query ≠ []
  bounded : Text.byteLength request.query ≤ 16 * 1024
  printable : ∀ character ∈ request.query, Text.isControl character = false

/-! ## Canonical queries -/

/-- The character which stands for a wide form of it. -/
def halfWidth (character : Char) : Char :=
  if character.toNat = 0x3000 then ' '
  else if 0xff01 ≤ character.toNat ∧ character.toNat ≤ 0xff5e then
    Char.ofNat (character.toNat - 0xfee0)
  else character

/-- The loop of `canonical_query`: what is written, and whether white space is pending. -/
def canonicalStep (state : Text × Bool) (character : Char) : Text × Bool :=
  let character := halfWidth character
  if Text.isWhitespace character then (state.1, true)
  else (state.1 ++ (if state.2 && !state.1.isEmpty then [' ', character] else [character]), false)

/-- `canonical_query`. -/
def canonicalQuery (input : Text) : Text :=
  ((Text.trim input).foldl canonicalStep ([], false)).1

theorem toNat_halfWidth {character : Char}
    (wide : 0xff01 ≤ character.toNat ∧ character.toNat ≤ 0xff5e) :
    (halfWidth character).toNat = character.toNat - 0xfee0 := by
  have valid : (character.toNat - 0xfee0).isValidChar := .inl (by omega)
  rw [halfWidth, if_neg (by omega), if_pos wide, Char.ofNat, dif_pos valid]
  rfl

/-- A half-width form has no other form. -/
theorem halfWidth_halfWidth (character : Char) :
    halfWidth (halfWidth character) = halfWidth character := by
  by_cases wide : 0xff01 ≤ character.toNat ∧ character.toNat ≤ 0xff5e
  · have code := toNat_halfWidth wide
    rw [halfWidth.eq_def (halfWidth character), if_neg (by omega), if_neg (by omega)]
  · rw [halfWidth.eq_def character, if_neg wide]
    split_ifs with space
    · rfl
    · rw [halfWidth, if_neg space, if_neg wide]

/-- A text which the loop writes as it is, without white space around it. -/
structure Canonical (text : Text) : Prop where
  kept : Text.Kept Text.isWhitespace text
  fixed : text.foldl canonicalStep ([], false) = (text, false)

/-- What the loop writes is canonical. -/
theorem canonical_canonicalStep (text : Text) :
    Canonical (text.foldl canonicalStep ([], false)).1 := by
  induction text using List.reverseRecOn with
  | nil => exact ⟨⟨nofun, nofun⟩, rfl⟩
  | append_singleton text character inductionHypothesis =>
      rw [List.foldl_append, List.foldl_cons, List.foldl_nil]
      generalize text.foldl canonicalStep ([], false) = state at inductionHypothesis
      obtain ⟨written, pending⟩ := state
      obtain ⟨⟨first, last⟩, fixed⟩ := inductionHypothesis
      dsimp only at first last fixed
      rw [canonicalStep]
      dsimp only
      by_cases white : Text.isWhitespace (halfWidth character) = true
      · rw [if_pos white]
        exact ⟨⟨first, last⟩, fixed⟩
      · rw [if_neg white]
        rw [Bool.not_eq_true] at white
        have next (state : Text × Bool) : canonicalStep state (halfWidth character) =
            (state.1 ++ (if state.2 && !state.1.isEmpty then [' ', halfWidth character]
              else [halfWidth character]), false) := by
          rw [canonicalStep, halfWidth_halfWidth]
          simp only [white, Bool.false_eq_true, if_false]
        by_cases spaced : (pending && !written.isEmpty) = true
        · rw [if_pos spaced]
          rw [Bool.and_eq_true, Bool.not_eq_true', List.isEmpty_eq_false_iff] at spaced
          refine ⟨⟨fun {letter} head => first ?_, fun {letter} final => ?_⟩, ?_⟩
          · rwa [List.head?_append_of_ne_nil _ spaced.2] at head
          · simp only [List.getLast?_append, List.getLast?_cons_cons, List.getLast?_singleton,
              Option.some_or, Option.some.injEq] at final
            rw [← final]
            exact white
          · have space : canonicalStep (written, false) ' ' = (written, true) := rfl
            rw [List.foldl_append, fixed, List.foldl_cons, space, List.foldl_cons, List.foldl_nil,
              next, if_pos (by simpa using spaced.2)]
        · rw [if_neg spaced]
          refine ⟨⟨fun {letter} head => ?_, fun {letter} final => ?_⟩, ?_⟩
          · cases written with
            | nil =>
                rw [List.nil_append, List.head?_cons, Option.some.injEq] at head
                rw [← head]
                exact white
            | cons begin rest => exact first head
          · rw [List.getLast?_append, List.getLast?_singleton, Option.some_or,
              Option.some.injEq] at final
            rw [← final]
            exact white
          · rw [List.foldl_append, fixed, List.foldl_cons, List.foldl_nil, next]
            rfl

theorem canonicalQuery_canonicalQuery (input : Text) :
    canonicalQuery (canonicalQuery input) = canonicalQuery input := by
  have canonical : Canonical (canonicalQuery input) := canonical_canonicalStep (Text.trim input)
  rw [canonicalQuery, Text.trim, Text.trimMatches_of_kept canonical.kept, canonical.fixed]

/-- `EXACT_ARTICLE_PREFIX`. -/
def exactArticlePrefix : Char := '\x1f'

/-- `exact_article_term`. -/
def exactArticleTerm (request : PagedSearchRequest) : Option Text :=
  match request.query with
  | [] => none
  | first :: rest => if first = exactArticlePrefix then some rest else none

/-- `str::split_whitespace`. -/
def splitWhitespace (text : Text) : List Text :=
  (text.splitOnP Text.isWhitespace).filter (· ≠ [])

/-- `query_terms`. -/
def queryTerms (request : PagedSearchRequest) : List Text :=
  let query := (exactArticleTerm request).getD request.query
  if request.matchMode = .phrase then
    let phrase := canonicalQuery query
    if phrase ≠ [] ∧ phrase.any Text.isControl = false then [phrase] else []
  else
    let terms := (((splitWhitespace query).take maxSearchTerms).map Text.trim).filter
      fun term => term ≠ [] ∧ term.any Text.isControl = false
    if terms = [] ∧ Text.trim query ≠ [] then [Text.trim query] else terms

/-- The Unicode tables of the standard library and of the normalization package. -/
structure UnicodeTables where
  /-- `char::is_alphabetic`. -/
  isAlphabetic : Char → Bool
  /-- `unicode_fold`. -/
  unicodeFold : Text → Text

/-- `requires_unicode_fold`. -/
def requiresUnicodeFold (unicode : UnicodeTables) (request : PagedSearchRequest) : Bool :=
  (queryTerms request).any fun term => term.any fun character =>
    unicode.isAlphabetic character &&
      !((0x3400 ≤ character.toNat && character.toNat ≤ 0x4dbf) ||
        (0x4e00 ≤ character.toNat && character.toNat ≤ 0x9fff) ||
        (0xf900 ≤ character.toNat && character.toNat ≤ 0xfaff))

/-! ## Article numbers -/

/-- The digits of `chinese_number`. -/
def chineseDigit : Nat → Char
  | 0 => '零' | 1 => '一' | 2 => '二' | 3 => '三' | 4 => '四'
  | 5 => '五' | 6 => '六' | 7 => '七' | 8 => '八' | _ => '九'

/-- One place of `chinese_number`: what is written, and whether a digit has been written. -/
def chinesePlace (value : Nat) (state : Text × Bool) (place : Nat × Char) : Text × Bool :=
  let digit := value / place.1 % 10
  if 0 < digit then (state.1 ++ [chineseDigit digit, place.2], true)
  else if state.2 ∧ place.1 / 10 ≤ value % place.1 ∧ state.1.getLast? ≠ some '零' then
    (state.1 ++ ['零'], state.2)
  else state

/-- `chinese_number`. -/
def chineseNumber (value : Nat) : Text :=
  if value < 10 then [chineseDigit value]
  else if value < 20 then
    if value = 10 then ['十'] else ['十', chineseDigit (value % 10)]
  else
    let places := [(10000, '万'), (1000, '千'), (100, '百'), (10, '十')]
    (places.foldl (chinesePlace value) ([], false)).1 ++
      (if 0 < value % 10 then [chineseDigit (value % 10)] else [])

/-- The number of a text of digits. -/
def parseDecimal (digits : Text) : Nat :=
  digits.foldl (fun value digit => value * 10 + (digit.toNat - '0'.toNat)) 0

/-- Numbers are of 32 bits. -/
def checkedU32 (value : Nat) : Option Nat := if value < 2 ^ 32 then some value else none

/-- The accumulator of `parse_article_ordinal`. -/
structure OrdinalParts where
  total : Nat
  «section» : Nat
  pending : Nat

/-- A character of `parse_article_ordinal`. -/
def ordinalStep (parts : OrdinalParts) (character : Char) : Option OrdinalParts :=
  let unit (value : Nat) : Option OrdinalParts := do
    let pending := if parts.pending = 0 then 1 else parts.pending
    let written ← checkedU32 (pending * value)
    let «section» ← checkedU32 (parts.section + written)
    some ⟨parts.total, «section», 0⟩
  match character with
  | '零' => some { parts with pending := 0 }
  | '一' => some { parts with pending := 1 }
  | '二' => some { parts with pending := 2 }
  | '两' => some { parts with pending := 2 }
  | '三' => some { parts with pending := 3 }
  | '四' => some { parts with pending := 4 }
  | '五' => some { parts with pending := 5 }
  | '六' => some { parts with pending := 6 }
  | '七' => some { parts with pending := 7 }
  | '八' => some { parts with pending := 8 }
  | '九' => some { parts with pending := 9 }
  | '十' => unit 10
  | '百' => unit 100
  | '千' => unit 1000
  | '万' => do
      let «section» ← checkedU32 (parts.section + parts.pending)
      let written ← checkedU32 («section» * 10000)
      let total ← checkedU32 (parts.total + written)
      some ⟨total, 0, 0⟩
  | _ => none

/-- `parse_article_ordinal`. -/
def parseArticleOrdinal (raw : Text) : Option Nat :=
  if raw.all Char.isDigit then
    if raw = [] then none else (checkedU32 (parseDecimal raw)).filter (0 < ·)
  else do
    let parts ← raw.foldlM ordinalStep ⟨0, 0, 0⟩
    let number ← checkedU32 (parts.total + parts.section)
    let number ← checkedU32 (number + parts.pending)
    -- Only the canonical spelling is accepted, so that no other article is selected.
    if 0 < number ∧ chineseNumber number = raw then some number else none

/-- A number with its digits. -/
def decimal (value : Nat) : Text := Nat.toDigits 10 value

/-- What `split_law_article_query` finds: the law name, and the two spellings of the number. -/
structure LawArticleQuery where
  lawName : Text
  articleNumber : Text
  arabicArticleNumber : Text
  deriving DecidableEq

/-- The text around the first occurrence of a character. -/
def splitAtCharacter (marker : Char) (text : Text) : Option (Text × Text) :=
  match text.span (· ≠ marker) with
  | (_, []) => none
  | (before, _ :: after) => some (before, after)

/-- The addition to an article number, in both spellings. -/
def articleAddition (tail : Text) : Option (Text × Text) :=
  match tail with
  | [] => some ([], [])
  | '之' :: addition => do
      let number ← parseArticleOrdinal addition
      some ('之' :: chineseNumber number, '之' :: decimal number)
  | _ => none

/-- `split_law_article_query`. -/
def splitLawArticleQuery (query : Text) : Option LawArticleQuery := do
  let (before, suffix) ← splitAtCharacter '第' query
  let lawName := (Text.trim before).rdropWhile fun character =>
    character ∈ [' ', '，', ',', '：', ':']
  let (rawNumber, behind) ← splitAtCharacter '条' suffix
  if rawNumber = [] then none
  else do
    let base ← parseArticleOrdinal rawNumber
    let (canonicalSuffix, arabicSuffix) ← articleAddition (Text.trim behind)
    some ⟨lawName, '第' :: chineseNumber base ++ '条' :: canonicalSuffix,
      '第' :: decimal base ++ '条' :: arabicSuffix⟩

example : splitLawArticleQuery "民法典第二百条之一".toList =
    some ⟨"民法典".toList, "第二百条之一".toList, "第200条之1".toList⟩ := by decide

/-- `normalize_law_name`. -/
def normalizeLawName (value : Text) : Text :=
  Text.trim (Text.trimMatches (fun character => character ∈ ['《', '》', '"', '\''])
    (Text.trim value))

end LawyerAssistance.Retrieval

import LawyerAssistance.Retrieval.Cache
import Mathlib.Data.List.Infix

/-!
# The index only accelerates

Every article which a term of ideographs matches has all bigrams of the term in the index that
is built from the corpus. So the candidates of the index are a superset of the matches, every
statement selects the same rows with them, and none binds more values than its budget.
-/

namespace LawyerAssistance.Retrieval

/-! ## Bigrams of terms -/

/-- The bigrams of a term are its adjacent characters. -/
theorem mem_termBigrams {term bigram : Text} :
    bigram ∈ termBigrams term ↔ ∃ first second, bigram = [first, second] ∧
      [first, second] <:+: term := by
  rw [termBigrams, (List.perm_insertionSort _ _).mem_iff, List.mem_dedup, List.mem_map]
  have adjacent : ∀ pair : Char × Char, pair ∈ term.zip term.tail ↔ [pair.1, pair.2] <:+: term := by
    intro pair
    induction term with
    | nil => simp
    | cons character rest inductionHypothesis =>
        cases rest with
        | nil =>
            simp only [List.tail_cons, List.zip_nil_right, List.not_mem_nil, false_iff]
            intro inside
            have length := inside.length_le
            simp at length
        | cons next rest =>
            rw [List.tail_cons] at inductionHypothesis ⊢
            obtain ⟨first, second⟩ := pair
            have split : [first, second] <:+: character :: next :: rest ↔
                [first, second] <+: character :: next :: rest ∨
                  [first, second] <:+: next :: rest := List.infix_cons_iff
            rw [List.zip_cons_cons, List.mem_cons, inductionHypothesis, split]
            simp [List.cons_prefix_cons]
  constructor
  · rintro ⟨pair, member, rfl⟩
    exact ⟨pair.1, pair.2, rfl, (adjacent pair).mp member⟩
  · rintro ⟨first, second, rfl, inside⟩
    exact ⟨(first, second), (adjacent (first, second)).mpr inside, rfl⟩

theorem nodup_termBigrams (term : Text) : (termBigrams term).Nodup :=
  (List.perm_insertionSort _ _).nodup_iff.mpr (List.nodup_dedup _)

/-- A term of two characters or more has a bigram. -/
theorem termBigrams_ne_nil {term : Text} (long : 2 ≤ term.length) : termBigrams term ≠ [] := by
  intro empty
  match term, long with
  | first :: second :: rest, _ =>
      have member : [first, second] ∈ termBigrams (first :: second :: rest) :=
        mem_termBigrams.mpr ⟨first, second, rfl, ⟨[], rest, rfl⟩⟩
      rw [empty] at member
      cases member

/-! ## Postings -/

section Postings

variable {index : SearchIndex} {bigrams : List Text} {candidates : List Int} {rowid : Int}

/-- An article with all bigrams is selected, unless there are too many. -/
theorem mem_articleRowidsForBigrams (distinct : bigrams.Nodup) (nonempty : bigrams ≠ [])
    (posted : ∀ bigram ∈ bigrams, (bigram, rowid) ∈ index.articleBigrams)
    (selected : articleRowidsForBigrams index bigrams = .ok (some candidates)) :
    rowid ∈ candidates := by
  rw [articleRowidsForBigrams, if_neg nonempty] at selected
  split_ifs at selected with many
  · cases selected
  · obtain ⟨rows, run, selected⟩ := bind_eq_ok.mp selected
    obtain ⟨_, run⟩ := refuseIf_bind_eq_ok.mp run
    cases run
    split_ifs at selected with tooMany
    · cases selected
    · cases selected
      rw [sortRowids, (List.perm_insertionSort _ _).mem_iff]
      dsimp only [bigramStatement] at tooMany ⊢
      rw [List.length_take] at tooMany
      rw [List.take_of_length_le (by omega), List.mem_filter]
      have member (bigram : Text) (among : bigram ∈ bigrams) :
          (bigram, rowid) ∈ index.articleBigrams.filter fun posting =>
            bigrams.contains posting.1 :=
        List.mem_filter.mpr ⟨posted bigram among, by simpa using among⟩
      constructor
      · obtain ⟨bigram, among⟩ := List.exists_mem_of_ne_nil bigrams nonempty
        exact List.mem_dedup.mpr (List.mem_map.mpr ⟨_, member bigram among, rfl⟩)
      · rw [decide_eq_true_eq]
        refine ((List.perm_ext_iff_of_nodup (List.nodup_dedup _) distinct).mpr fun bigram => ?_).length_eq
        rw [List.mem_dedup, List.mem_map]
        constructor
        · rintro ⟨posting, found, rfl⟩
          have among := (List.mem_filter.mp (List.mem_filter.mp found).1).2
          simpa using among
        · intro among
          exact ⟨(bigram, rowid), List.mem_filter.mpr ⟨member bigram among, by simp⟩, rfl⟩

/-- What is gathered before stays in the union. -/
theorem mem_unionRowids {rows : List Int} {terms : List (List Text)}
    (selected : unionRowids index rows terms = .ok (some candidates))
    (member : rowid ∈ rows ∨ ∃ bigrams ∈ terms, ∀ found,
      articleRowidsForBigrams index bigrams = .ok (some found) → rowid ∈ found) :
    rowid ∈ candidates := by
  induction terms generalizing rows with
  | nil =>
      cases selected
      rw [sortRowids, (List.perm_insertionSort _ _).mem_iff]
      obtain gathered | ⟨bigrams, among, _⟩ := member
      · exact gathered
      · cases among
  | cons first rest inductionHypothesis =>
      rw [unionRowids] at selected
      obtain ⟨found, probe, selected⟩ := bind_eq_ok.mp selected
      cases found with
      | none => cases selected
      | some found =>
          dsimp only at selected
          split_ifs at selected with tooMany
          · cases selected
          · refine inductionHypothesis selected ?_
            obtain gathered | ⟨bigrams, among, matched⟩ := member
            · exact .inl (List.mem_dedup.mpr (List.mem_append_left _ gathered))
            · obtain rfl | among := List.mem_cons.mp among
              · exact .inl (List.mem_dedup.mpr (List.mem_append_right _ (matched found probe)))
              · exact .inr ⟨bigrams, among, matched⟩

/-- The probe of the index binds few values, so it runs. -/
theorem articleRowidsForBigrams_total (index : SearchIndex) (bigrams : List Text) :
    ∃ rowids, articleRowidsForBigrams index bigrams = .ok rowids := by
  rw [articleRowidsForBigrams]
  split_ifs with empty many
  · exact ⟨_, rfl⟩
  · exact ⟨_, rfl⟩
  · have few : ¬ maxSqliteParameters < (bigramStatement index bigrams).values.length := by
      rw [bigramStatement, List.length_map]
      rw [maxIndexQueryParameters] at many
      rw [maxSqliteParameters]
      omega
    have run : (bigramStatement index bigrams).run = .ok (bigramStatement index bigrams).rows :=
      refuseIf_bind_eq_ok.mpr ⟨few, rfl⟩
    simp only [run, bind, Except.bind]
    split_ifs
    · exact ⟨_, rfl⟩
    · exact ⟨_, rfl⟩

/-- The union of probes runs. -/
theorem unionRowids_total (index : SearchIndex) (rows : List Int) (terms : List (List Text)) :
    ∃ rowids, unionRowids index rows terms = .ok rowids := by
  induction terms generalizing rows with
  | nil => exact ⟨_, rfl⟩
  | cons bigrams rest inductionHypothesis =>
      obtain ⟨found, probe⟩ := articleRowidsForBigrams_total index bigrams
      simp only [unionRowids, probe, bind, Except.bind]
      cases found with
      | none => exact ⟨_, rfl⟩
      | some found =>
          dsimp only
          split_ifs
          · exact ⟨_, rfl⟩
          · exact inductionHypothesis _

/-- The probe for the terms of a query runs. -/
theorem articleRowidsForTerms_total (index : SearchIndex) (terms : List Text)
    (matchMode : SearchMatchMode) :
    ∃ rowids, articleRowidsForTerms index terms matchMode = .ok rowids := by
  rw [articleRowidsForTerms]
  split_ifs
  · exact ⟨_, rfl⟩
  · exact ⟨_, rfl⟩
  · exact unionRowids_total index [] _
  · exact articleRowidsForBigrams_total index _

end Postings

/-! ## Literal matches of ideographs -/

/-- Lower case neither makes nor changes an ideograph. -/
theorem toLower_of_isCjk {character : Char}
    (cjk : isCjkIdeograph character = true ∨ isCjkIdeograph character.toLower = true) :
    character.toLower = character := by
  by_cases upper : character.val ≥ 'A'.val ∧ character.val ≤ 'Z'.val
  · have letter : character.toLower.toNat = (character.val + ('a'.val - 'A'.val)).toNat := by
      refine congrArg Char.toNat (dif_pos upper : character.toLower = _)
    have bound : character.toNat ≤ 90 := upper.2
    have small : character.toLower.toNat < 0x3400 := by
      rw [letter, UInt32.toNat_add]
      have difference : ('a'.val - 'A'.val).toNat = 32 := rfl
      have reduced := Nat.mod_le (character.val.toNat + ('a'.val - 'A'.val).toNat) (2 ^ 32)
      have same : character.val.toNat = character.toNat := rfl
      omega
    simp only [isCjkIdeograph, Bool.or_eq_true, Bool.and_eq_true, decide_eq_true_eq] at cjk
    omega
  · exact dif_neg upper

theorem isWhitespace_of_isCjk {character : Char} (cjk : isCjkIdeograph character = true) :
    Text.isWhitespace character = false := by
  simp only [isCjkIdeograph, Bool.or_eq_true, Bool.and_eq_true, decide_eq_true_eq] at cjk
  simp only [Text.isWhitespace, Bool.or_eq_false_iff, Bool.and_eq_false_iff, decide_eq_false_iff_not,
    beq_eq_false_iff_ne]
  omega

/-! ## Terms of ideographs are parts of the query -/

/-- A form which is an ideograph is the character itself. -/
theorem halfWidth_of_isCjk {character : Char} (cjk : isCjkIdeograph (halfWidth character) = true) :
    halfWidth character = character := by
  by_cases wide : 0xff01 ≤ character.toNat ∧ character.toNat ≤ 0xff5e
  · simp only [isCjkIdeograph, toNat_halfWidth wide, Bool.or_eq_true, Bool.and_eq_true,
      decide_eq_true_eq] at cjk
    omega
  · rw [halfWidth, if_neg wide] at cjk ⊢
    split_ifs at cjk ⊢ with space
    · exact absurd cjk (by simp [isCjkIdeograph])
    · rfl

/-- What the loop writes, when it is of ideographs, stands in the text; behind it white space may
be pending. -/
theorem exists_canonicalStep (text : Text) :
    (text.foldl canonicalStep ([], false)).1.all isCjkIdeograph = true →
      ∃ before after, text = before ++ (text.foldl canonicalStep ([], false)).1 ++ after ∧
        ((text.foldl canonicalStep ([], false)).1 ≠ [] →
          (text.foldl canonicalStep ([], false)).2 = false → after = []) := by
  induction text using List.reverseRecOn with
  | nil => exact fun _ => ⟨[], [], rfl, fun _ _ => rfl⟩
  | append_singleton text character inductionHypothesis =>
      rw [List.foldl_append, List.foldl_cons, List.foldl_nil]
      generalize text.foldl canonicalStep ([], false) = state at inductionHypothesis
      obtain ⟨written, pending⟩ := state
      dsimp only at inductionHypothesis
      rw [canonicalStep]
      dsimp only
      split_ifs with white space
      · intro cjk
        obtain ⟨before, after, parts, _⟩ := inductionHypothesis cjk
        exact ⟨before, after ++ [character], by rw [parts]; simp, fun _ ended => absurd ended (by decide)⟩
      · intro cjk
        rw [List.all_append, Bool.and_eq_true, List.all_cons, Bool.and_eq_true] at cjk
        exact absurd cjk.2.1 (by decide)
      · intro cjk
        rw [List.all_append, Bool.and_eq_true, List.all_cons, Bool.and_eq_true] at cjk
        rw [halfWidth_of_isCjk cjk.2.1]
        obtain ⟨before, after, parts, ended⟩ := inductionHypothesis cjk.1
        by_cases none : written = []
        · rw [none] at parts ⊢
          exact ⟨before ++ after, [], by rw [parts]; simp, fun _ _ => rfl⟩
        · have still : pending = false := by
            cases pending with
            | false => rfl
            | true => exact absurd (by simp [none]) space
          rw [ended none still, List.append_nil] at parts
          exact ⟨before, [], by rw [parts]; simp, fun _ _ => rfl⟩

theorem trim_within (text : Text) : Text.trim text <:+: text := by
  obtain ⟨front, back, parts, _, _⟩ := Text.exists_trimMatches Text.isWhitespace text
  exact ⟨front, back, parts.symm⟩

theorem canonicalQuery_infix {input : Text}
    (cjk : (canonicalQuery input).all isCjkIdeograph = true) : canonicalQuery input <:+: input := by
  obtain ⟨before, after, parts, _⟩ := exists_canonicalStep (Text.trim input) cjk
  exact .trans ⟨before, after, parts.symm⟩ (trim_within input)

/-- The parts between separators are parts of a text, the first one at its front. -/
theorem exists_splitOnP (separates : Char → Bool) (text : Text) :
    ∃ first others, text.splitOnP separates = first :: others ∧ first <+: text ∧
      ∀ word ∈ others, word <:+: text := by
  induction text with
  | nil => exact ⟨[], [], rfl, List.prefix_rfl, nofun⟩
  | cons character rest inductionHypothesis =>
      obtain ⟨first, others, parts, atFront, inside⟩ := inductionHypothesis
      rw [List.splitOnP_cons_eq_if_modifyHead, parts]
      split_ifs with separator
      · refine ⟨[], first :: others, rfl, List.nil_prefix, fun word member => ?_⟩
        obtain rfl | member := List.mem_cons.mp member
        · exact List.infix_cons atFront.isInfix
        · exact List.infix_cons (inside word member)
      · exact ⟨character :: first, others, rfl, List.cons_prefix_cons.mpr ⟨rfl, atFront⟩,
          fun word member => List.infix_cons (inside word member)⟩

/-- Words are parts of a text. -/
theorem splitWhitespace_within {text word : Text} (member : word ∈ splitWhitespace text) :
    word <:+: text := by
  have among := (List.mem_filter.mp member).1
  obtain ⟨first, others, parts, atFront, inside⟩ := exists_splitOnP Text.isWhitespace text
  rw [parts] at among
  obtain rfl | among := List.mem_cons.mp among
  · exact atFront.isInfix
  · exact inside word among

/-- A term of ideographs is a part of the query, or of the selected article number. -/
theorem infix_of_mem_queryTerms {request : PagedSearchRequest} {term : Text}
    (member : term ∈ queryTerms request) (cjk : term.all isCjkIdeograph = true) :
    term <:+: (exactArticleTerm request).getD request.query := by
  rw [queryTerms] at member
  generalize (exactArticleTerm request).getD request.query = query at member ⊢
  dsimp only at member
  split_ifs at member with phrase printable empty
  · rw [List.mem_singleton] at member
    rw [member] at cjk ⊢
    exact canonicalQuery_infix cjk
  · cases member
  · rw [List.mem_singleton] at member
    rw [member]
    exact trim_within query
  · obtain ⟨word, among, rfl⟩ := List.mem_map.mp (List.mem_filter.mp member).1
    exact (trim_within word).trans (splitWhitespace_within (List.mem_of_mem_take among))

section Matches

variable {unicode : UnicodeTables} {corpus : Corpus} {request : PagedSearchRequest}
  {article : LawArticle} {document : LawDocument} {term column : Text}

/-- A column which is like a term of ideographs contains it. -/
theorem infix_of_columnLike (cjk : term.all isCjkIdeograph = true) (nonempty : term ≠ [])
    (found : columnLike column (likePattern term) = true) : term <:+: column := by
  rw [List.all_eq_true] at cjk
  have uncut : Text.trim term = term :=
    Text.trimMatches_eq_self fun character member => isWhitespace_of_isCjk (cjk character member)
  rw [columnLike, likePattern, uncut, if_neg nonempty,
    Like.likeMatches_contains (by decide)] at found
  have lower : term.map Char.toLower = term :=
    (List.map_congr_left fun character member => toLower_of_isCjk (.inl (cjk character member))).trans
      (List.map_id _)
  obtain ⟨before, after, parts⟩ := found
  rw [lower] at parts
  obtain ⟨front, rest, parts', sameFront, _⟩ := List.map_eq_append_iff.mp parts.symm
  obtain ⟨before, middle, rfl, _, sameMiddle⟩ := List.map_eq_append_iff.mp sameFront
  have kept : middle = term := by
    rw [← sameMiddle]
    refine ((List.map_congr_left fun character member => ?_).trans (List.map_id _)).symm
    refine toLower_of_isCjk (.inr (cjk _ ?_))
    rw [← sameMiddle]
    exact List.mem_map_of_mem member
  exact ⟨before, rest, by rw [parts', kept]⟩

/-- A term of ideographs which matches is in a part of the article. -/
theorem exists_part_of_termMatches (literal : requiresUnicodeFold unicode request = false)
    (cjk : term.all isCjkIdeograph = true) (nonempty : term ≠ [])
    (matched : termMatches unicode corpus request article document term = true) :
    ∃ part, ArticlePart corpus article document part ∧ term <:+: part := by
  have inside {column : Text} (part : ArticlePart corpus article document column)
      (found : columnLike (foldedColumn unicode request column)
        (likePattern (foldedColumn unicode request term)) = true) :
      ∃ part, ArticlePart corpus article document part ∧ term <:+: part := by
    rw [foldedColumn, foldedColumn, literal, if_neg (by simp), if_neg (by simp)] at found
    exact ⟨column, part, infix_of_columnLike cjk nonempty found⟩
  simp only [termMatches, Bool.or_eq_true, List.any_eq_true] at matched
  obtain (((title | ⟨entry, member, name | normalized⟩) | number) | articleTitle) | content := matched
  · exact inside .documentTitle title
  · exact inside (.aliasName member) name
  · exact inside (.normalizedAlias member) normalized
  · exact inside .articleNumber number
  · exact inside .articleTitle articleTitle
  · exact inside .content content

/-- A joined article is made of rows of the tables. -/
theorem mem_joinedArticles {row : JoinedArticle} : row ∈ corpus.joinedArticles ↔
    row.article ∈ corpus.articles ∧
      (row.document ∈ corpus.documents ∧ row.document.id = row.article.documentId) ∧
      row.version ∈ corpus.versions ∧ row.version.id = row.article.versionId := by
  rw [Corpus.joinedArticles]
  simp only [List.mem_flatMap, List.mem_filter, List.mem_map, decide_eq_true_eq]
  constructor
  · rintro ⟨article, articleMember, document, documentMember, version, versionMember, rfl⟩
    exact ⟨articleMember, documentMember, versionMember⟩
  · rintro ⟨articleMember, documentMember, versionMember⟩
    exact ⟨row.article, articleMember, row.document, documentMember, row.version, versionMember, rfl⟩

/-- The bigrams of a term of ideographs in a part of an article are recorded for the article. -/
theorem posted_of_part {row : JoinedArticle} (manifest : Text)
    (cjk : term.all isCjkIdeograph = true) (joined : row ∈ corpus.joinedArticles) {part : Text}
    (inArticle : ArticlePart corpus row.article row.document part) (inside : term <:+: part)
    {bigram : Text} (among : bigram ∈ termBigrams term) :
    (bigram, row.article.rowid) ∈ (buildSearchIndex corpus manifest).articleBigrams := by
  obtain ⟨articleMember, ⟨documentMember, sameDocument⟩, _⟩ := mem_joinedArticles.mp joined
  obtain ⟨first, second, rfl, adjacent⟩ := mem_termBigrams.mp among
  rw [List.all_eq_true] at cjk
  exact mem_buildArticleBigrams inArticle articleMember documentMember sameDocument
    (cjk first (adjacent.subset (by simp))) (cjk second (adjacent.subset (by simp)))
    (adjacent.trans inside)

/-- Of the terms of ideographs which an article has to match, the article has one, and all of them
unless any of them is enough. -/
theorem exists_part_of_articleMatches (literal : requiresUnicodeFold unicode request = false)
    (cjk : ∀ term ∈ queryTerms request, term.all isCjkIdeograph = true ∧ term ≠ [])
    (some' : queryTerms request ≠ [])
    (matched : articleMatches unicode corpus request article document = true) :
    (∃ term ∈ queryTerms request, ∃ part, ArticlePart corpus article document part ∧
      term <:+: part) ∧
    (request.matchMode ≠ .any → ∀ term ∈ queryTerms request,
      ∃ part, ArticlePart corpus article document part ∧ term <:+: part) := by
  obtain ⟨sample, amongSample⟩ := List.exists_mem_of_ne_nil _ some'
  rw [articleMatches] at matched
  cases selector : exactArticleTerm request with
  | some articleNumber =>
      rw [selector] at matched
      dsimp only at matched
      have every (term : Text) (among : term ∈ queryTerms request) :
          ∃ part, ArticlePart corpus article document part ∧ term <:+: part := by
        have inside := infix_of_mem_queryTerms among (cjk term among).1
        rw [selector, Option.getD_some, ← beq_iff_eq.mp matched] at inside
        exact ⟨article.articleNumber, .articleNumber, inside⟩
      exact ⟨⟨sample, amongSample, every sample amongSample⟩, fun _ => every⟩
  | none =>
      rw [selector] at matched
      dsimp only at matched
      rw [if_neg some'] at matched
      by_cases allMode : request.matchMode = .all
      · rw [if_pos allMode, List.all_eq_true] at matched
        have every (term : Text) (among : term ∈ queryTerms request) :=
          exists_part_of_termMatches literal (cjk term among).1 (cjk term among).2
            (matched term among)
        exact ⟨⟨sample, amongSample, every sample amongSample⟩, fun _ => every⟩
      · rw [if_neg allMode, List.any_eq_true] at matched
        obtain ⟨term, among, found⟩ := matched
        have inPart := exists_part_of_termMatches literal (cjk term among).1 (cjk term among).2 found
        refine ⟨⟨term, among, inPart⟩, fun notAny other amongOther => ?_⟩
        have phrase : request.matchMode = .phrase := by
          cases mode : request.matchMode with
          | all => exact absurd mode allMode
          | any => exact absurd mode notAny
          | phrase => rfl
        have single : ∀ first ∈ queryTerms request, ∀ second ∈ queryTerms request,
            first = second := by
          rw [queryTerms, phrase, if_pos rfl]
          dsimp only
          split_ifs <;> simp
        rw [single other amongOther term among]
        exact inPart

/-- The candidates of the index have every article which matches. -/
theorem mem_articleRowidsForTerms {row : JoinedArticle} {manifest : Text} {candidates : List Int}
    (literal : requiresUnicodeFold unicode request = false) (joined : row ∈ corpus.joinedArticles)
    (matched : articleMatches unicode corpus request row.article row.document = true)
    (selected : articleRowidsForTerms (buildSearchIndex corpus manifest) (queryTerms request)
      request.matchMode = .ok (some candidates)) : row.article.rowid ∈ candidates := by
  rw [articleRowidsForTerms] at selected
  by_cases unsupported : (queryTerms request).any
      (fun term => term.length < 2 || !term.all isCjkIdeograph) = true
  · rw [if_pos unsupported] at selected
    cases selected
  rw [if_neg unsupported] at selected
  by_cases empty : queryTerms request = []
  · rw [if_pos empty] at selected
    cases selected
  rw [if_neg empty] at selected
  rw [Bool.not_eq_true, List.any_eq_false] at unsupported
  have supported (term : Text) (among : term ∈ queryTerms request) :
      term.all isCjkIdeograph = true ∧ 2 ≤ term.length := by
    have plain := unsupported term among
    simp only [Bool.or_eq_true, Bool.not_eq_true', not_or, decide_eq_true_eq, Nat.not_lt,
      Bool.not_eq_false] at plain
    exact ⟨plain.2, plain.1⟩
  have nonempty (term : Text) (among : term ∈ queryTerms request) : term ≠ [] := by
    rintro rfl
    have long := (supported [] among).2
    simp at long
  obtain ⟨⟨term, among, part, inArticle, inside⟩, every⟩ := exists_part_of_articleMatches literal
    (fun term among => ⟨(supported term among).1, nonempty term among⟩) empty matched
  by_cases anyMode : request.matchMode = .any
  · -- The candidates of the term which matches are in the union.
    rw [if_pos anyMode] at selected
    refine mem_unionRowids selected (.inr ⟨termBigrams term, List.mem_map_of_mem among,
      fun rows probe => ?_⟩)
    exact mem_articleRowidsForBigrams (nodup_termBigrams term)
      (termBigrams_ne_nil (supported term among).2)
      (fun _ => posted_of_part manifest (supported term among).1 joined inArticle inside) probe
  · -- The article has all terms, so it has all their bigrams.
    rw [if_neg anyMode] at selected
    refine mem_articleRowidsForBigrams ((List.perm_insertionSort _ _).nodup_iff.mpr
      (List.nodup_dedup _)) ?_ ?_ selected
    · obtain ⟨bigram, member⟩ := List.exists_mem_of_ne_nil _
        (termBigrams_ne_nil (supported term among).2)
      exact List.ne_nil_of_mem ((List.perm_insertionSort _ _).mem_iff.mpr
        (List.mem_dedup.mpr (List.mem_flatMap.mpr ⟨term, among, member⟩)))
    · intro bigram member
      rw [(List.perm_insertionSort _ _).mem_iff, List.mem_dedup, List.mem_flatMap] at member
      obtain ⟨term, among, member⟩ := member
      obtain ⟨part, inArticle, inside⟩ := every anyMode term among
      exact posted_of_part manifest (supported term among).1 joined inArticle inside member

end Matches

/-! ## Statements with candidates -/

section Statements

variable (unicode : UnicodeTables) (corpus : Corpus) (today : Text) (request : PagedSearchRequest)

/-- The candidates have every article which a request selects. -/
def Covers (candidates : List Int) : Prop :=
  ∀ row ∈ corpus.joinedArticles, articleFilters corpus today request row = true →
    articleMatches unicode corpus request row.article row.document = true →
      row.article.rowid ∈ candidates

/-- The statements of a search bind no more values than their budget. -/
structure StatementsFit (candidates : Option (List Int)) : Prop where
  count : (countStatement unicode corpus today request candidates).values.length ≤
    maxSqliteParameters
  articlePage : (articlePageStatement unicode corpus today request candidates).values.length ≤
    maxSqliteParameters
  documentPage : (documentPageStatement unicode corpus today request candidates).values.length ≤
    maxSqliteParameters
  preview : ∀ laws : List LawSearchResult, laws.length ≤ request.limit →
    (previewStatement unicode corpus today request candidates laws).values.length ≤
      maxSqliteParameters

variable {unicode corpus today request} {candidates : List Int}

/-- Candidates which have every selected article do not restrict the rows. -/
theorem Covers.matchedArticles_eq (covers : Covers unicode corpus today request candidates) :
    matchedArticles unicode corpus today request (some candidates) =
      matchedArticles unicode corpus today request none := by
  refine List.filter_congr fun row member => ?_
  cases filtered : articleFilters corpus today request row with
  | false => rfl
  | true =>
      cases matched : articleMatches unicode corpus request row.article row.document with
      | false => rfl
      | true =>
          have among := covers row member filtered matched
          cases candidates with
          | nil => cases among
          | cons first rest => simpa [candidateAllowed] using among

/-- Candidates whose number was checked fit all statements. -/
theorem statementsFit_of_rowsFit {candidates : Option (List Int)} {count : Nat}
    (few : (candidates.getD []).length ≤ count)
    (fits : candidateRowsFitSourceQueries unicode request count = true) :
    StatementsFit unicode corpus today request candidates := by
  simp only [candidateRowsFitSourceQueries, fitsSqliteParameterLimit, Bool.and_eq_true,
    decide_eq_true_eq, List.length_append, List.length_cons, List.length_nil] at fits
  obtain ⟨⟨⟨countFits, flatFits⟩, groupedFits⟩, previewFits⟩ := fits
  constructor
  · simp only [countStatement, candidateValues, List.length_append, List.length_map]
    omega
  · simp only [articlePageStatement, candidateValues, pageValues, List.length_append,
      List.length_map, List.length_cons, List.length_nil]
    omega
  · simp only [documentPageStatement, candidateValues, pageValues, List.length_append,
      List.length_map, List.length_cons, List.length_nil]
    omega
  · intro laws fewLaws
    simp only [previewStatement, candidateValues, List.length_append, List.length_map]
    omega

theorem Statement.run_of_fits {ρ : Type} {statement : Statement ρ}
    (fits : statement.values.length ≤ maxSqliteParameters) :
    statement.run = .ok statement.rows :=
  refuseIf_bind_eq_ok.mpr ⟨Nat.not_lt.mpr fits, rfl⟩

theorem length_page_le {α : Type} (rows : List α) : (page request rows).length ≤ request.limit :=
  List.length_take_le _ _

variable (fits : candidateRowsFitSourceQueries unicode request candidates.length = true)
  (covers : Covers unicode corpus today request candidates)

include fits covers

/-- The counts are the same with the candidates. -/
theorem countStatement_run_eq :
    (countStatement unicode corpus today request (some candidates)).run =
      (countStatement unicode corpus today request none).run := by
  have with' : StatementsFit unicode corpus today request (some candidates) :=
    statementsFit_of_rowsFit (Nat.le_refl _) fits
  have without : StatementsFit unicode corpus today request none :=
    statementsFit_of_rowsFit (Nat.zero_le _) fits
  rw [Statement.run_of_fits with'.count, Statement.run_of_fits without.count, countStatement,
    covers.matchedArticles_eq]
  rfl

/-- The pages are the same with the candidates. -/
theorem searchView_eq (counts : Nat × Nat) :
    searchView unicode corpus today request (some candidates) (some counts) =
      searchView unicode corpus today request none (some counts) := by
  have with' : StatementsFit unicode corpus today request (some candidates) :=
    statementsFit_of_rowsFit (Nat.le_refl _) fits
  have without : StatementsFit unicode corpus today request none :=
    statementsFit_of_rowsFit (Nat.zero_le _) fits
  have documents : (documentPageStatement unicode corpus today request (some candidates)).rows =
      (documentPageStatement unicode corpus today request none).rows := by
    simp only [documentPageStatement, covers.matchedArticles_eq]
  have articles : (articlePageStatement unicode corpus today request (some candidates)).rows =
      (articlePageStatement unicode corpus today request none).rows := by
    simp only [articlePageStatement, covers.matchedArticles_eq]
  have previews : groupedPagePreviews unicode corpus today request (some candidates)
      (documentPageStatement unicode corpus today request none).rows =
        groupedPagePreviews unicode corpus today request none
          (documentPageStatement unicode corpus today request none).rows := by
    have few : (documentPageStatement unicode corpus today request none).rows.length ≤
        request.limit := length_page_le _
    rw [groupedPagePreviews, groupedPagePreviews,
      Statement.run_of_fits (with'.preview _ few), Statement.run_of_fits (without.preview _ few)]
    simp only [previewStatement, covers.matchedArticles_eq]
  rw [searchView, searchView]
  cases request.view with
  | grouped =>
      simp only [searchGroupedWithCandidates, Statement.run_of_fits with'.documentPage,
        Statement.run_of_fits without.documentPage, documents]
      exact congrArg _ (by simp only [bind, Except.bind, previews])
  | flat =>
      simp only [searchFlatWithCandidatesPage, Statement.run_of_fits with'.articlePage,
        Statement.run_of_fits without.articlePage, articles]
      rfl

end Statements

/-! ## Pages of plans -/

/-- The index of the corpus gives no candidates, or few enough which have every article that a
request selects. -/
theorem indexedCandidates_cases (unicode : UnicodeTables) (corpus : Corpus)
    (manifest today : Text) (request : PagedSearchRequest) :
    indexedCandidates unicode (some (buildSearchIndex corpus manifest)) request = .ok none ∨
      ∃ candidates,
        indexedCandidates unicode (some (buildSearchIndex corpus manifest)) request =
          .ok (some candidates) ∧
        candidateRowsFitSourceQueries unicode request candidates.length = true ∧
        Covers unicode corpus today request candidates := by
  cases literal : requiresUnicodeFold unicode request with
  | true =>
      left
      rw [indexedCandidates, literal, if_pos rfl]
      rfl
  | false =>
      obtain ⟨rowids, probe⟩ := articleRowidsForTerms_total (buildSearchIndex corpus manifest)
        (queryTerms request) request.matchMode
      have probed : indexedCandidates unicode (some (buildSearchIndex corpus manifest)) request =
          .ok (rowids.filter fun candidates =>
            candidateRowsFitSourceQueries unicode request candidates.length) := by
        rw [indexedCandidates, literal, if_neg (by simp)]
        simp only [probe, bind, Except.bind]
        rfl
      rw [probed]
      cases rowids with
      | none => exact .inl rfl
      | some candidates =>
          rw [Option.filter_some]
          split_ifs with fits
          · exact .inr ⟨candidates, rfl, fits, fun row member _ matched =>
              mem_articleRowidsForTerms literal member matched probe⟩
          · exact .inl rfl

theorem indexedCandidates_none (unicode : UnicodeTables) (request : PagedSearchRequest) :
    indexedCandidates unicode none request = .ok none := by
  rw [indexedCandidates]
  split_ifs <;> rfl

/-- The page of a plan is the same with the index of the corpus and without an index. -/
theorem pageOf_index_eq {unicode : UnicodeTables} {database : LegalDatabase}
    {estimates : CacheEstimates} {manifest today : Text} (plan : QueryPlan) :
    pageOf ⟨unicode, database, some (buildSearchIndex database.corpus manifest), estimates⟩ today
        plan =
      pageOf ⟨unicode, database, none, estimates⟩ today plan := by
  rw [pageOf, pageOf]
  cases plan.exact with
  | some selector => rfl
  | none =>
      dsimp only
      rw [indexedCandidates_none]
      obtain scan | ⟨candidates, probed, fits, covers⟩ := indexedCandidates_cases unicode
        database.corpus manifest today plan.request
      · rw [scan]
      · rw [probed]
        simp only [bind, Except.bind, countStatement_run_eq fits covers]
        cases (countStatement unicode database.corpus today plan.request none).run with
        | error error => rfl
        | ok counts => exact searchView_eq fits covers counts

/-- A search with the index of the corpus responds as a search without an index does, and the
statements with admitted candidates bind no more values than their budget. -/
theorem index_only_accelerates (unicode : UnicodeTables) (database : LegalDatabase)
    (estimates : CacheEstimates) (manifest today : Text) (request : PagedSearchRequest) :
    let index := buildSearchIndex database.corpus manifest
    freshPage ⟨unicode, database, some index, estimates⟩ today request =
        freshPage ⟨unicode, database, none, estimates⟩ today request ∧
      ∀ rewritten candidates, indexedCandidates unicode (some index) rewritten = .ok candidates →
        candidates.isSome → StatementsFit unicode database.corpus today rewritten candidates := by
  intro index
  constructor
  · rw [freshPage_eq, freshPage_eq]
    have samePlan : planRequest ⟨unicode, database, some index, estimates⟩ request =
        planRequest ⟨unicode, database, none, estimates⟩ request := rfl
    rw [samePlan]
    cases planned : planRequest ⟨unicode, database, none, estimates⟩ request with
    | error error => rfl
    | ok plan =>
        simp only [bind, Except.bind]
        rw [pageOf_index_eq plan]
  · intro rewritten candidates probed present
    obtain scan | ⟨admitted, found, fits, _⟩ := indexedCandidates_cases unicode database.corpus
      manifest today rewritten
    · rw [scan] at probed
      cases probed
      cases present
    · rw [found] at probed
      cases probed
      exact statementsFit_of_rowsFit (Nat.le_refl _) fits

end LawyerAssistance.Retrieval

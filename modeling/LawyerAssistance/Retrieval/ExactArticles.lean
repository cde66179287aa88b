import LawyerAssistance.Retrieval.NumeralParsers

/-!
# Exact articles

The article which a query names, and the article which `split_law_article_query` opens for it. The
spelling in digits always names the article of the query. The Chinese one does when the numbers
are below 100000: `chinese_number` leaves out the digits of the places from 100000 on.
-/

namespace LawyerAssistance.Retrieval

/-! ## What a text names -/

/-- What is written behind an article number: nothing, or the numeral of an addition. -/
def WritesAddition (tail : Text) : Option Nat → Prop
  | none => tail = []
  | some number => ∃ raw, tail = '之' :: raw ∧ Denotes raw number

/-- A text names an article: the numeral between its first `第` and the `条` which follows, and
the addition behind it. -/
def WritesArticle (text : Text) (base : Nat) (addition : Option Nat) : Prop :=
  ∃ before raw behind, text = before ++ '第' :: (raw ++ '条' :: behind) ∧ '第' ∉ before ∧
    '条' ∉ raw ∧ Denotes raw base ∧ WritesAddition (Text.trim behind) addition

section Numerals

variable {raw : Text} {number value : Nat}

/-- The digits of a number mean the number. -/
theorem denotes_decimal (number : Nat) : Denotes (decimal number) number := by
  have digits (character : Char) (among : character ∈ decimal number) :
      character.isDigit = true := Nat.isDigit_of_mem_toDigits (by decide) (by decide) among
  have same : (decimal number).map halfWidth = decimal number := by
    rw [List.map_congr_left fun character among => halfWidth_of_isDigit (digits character among),
      List.map_id']
  have step : (fun value (digit : Char) => value * 10 + (digit.toNat - '0'.toNat)) =
      fun value digit => 10 * value + (digit.toNat - '0'.toNat) := by
    funext value digit
    rw [Nat.mul_comm]
  refine .inl ⟨Nat.toDigits_ne_nil, fun character among => ?_, ?_⟩
  · rw [halfWidth_of_isDigit (digits character among)]
    exact digits character among
  · rw [same, parseDecimal, step, ← Nat.ofDigitChars_eq_foldl]
    exact Nat.ofDigitChars_ten_toDigits

theorem inNumeral_decimal : ∀ character ∈ decimal number, InNumeral character :=
  fun _ among => .inl (Nat.isDigit_of_mem_toDigits (by decide) (by decide) among)

/-- The digits which are written of a number from 20 on mean what it leaves below 100000. -/
theorem denotes_chineseNumber_mod (large : 20 ≤ value) (some : chineseNumber value ≠ []) :
    Denotes (chineseNumber value) (value % 100000) :=
  .inr (isChinese_chineseNumber large some)

theorem inNumeral_chineseNumber (positive : 0 < value) :
    ∀ character ∈ chineseNumber value, InNumeral character := by
  intro character among
  refine .inr ?_
  by_cases small : value < 100000
  · exact (isChinese_of_small positive small).letters character among
  · have large : 20 ≤ value := by omega
    exact (isChinese_chineseNumber large (List.ne_nil_of_mem among)).letters character among

theorem Denotes.ne_nil (denotes : Denotes raw number) : raw ≠ [] := by
  obtain decimal | ⟨nonempty, _⟩ | ⟨rest, _, rfl, _⟩ := denotes
  · exact decimal.nonempty
  · exact nonempty
  · exact List.cons_ne_nil _ _

/-- What `chinese_number` writes means its number when that is below 100000. -/
theorem denotes_chineseNumber_iff (positive : 0 < value) :
    Denotes (chineseNumber value) value ↔ value < 100000 := by
  constructor
  · intro denotes
    by_contra large
    have whole := denotes.unique (denotes_chineseNumber_mod (by omega) denotes.ne_nil)
    have small : value % 100000 < 100000 := Nat.mod_lt _ (by decide)
    omega
  · exact fun small => .inr (isChinese_of_small positive small)

theorem parseArticleOrdinal_pos (accepted : parseArticleOrdinal raw = some number) :
    0 < number := by
  obtain ⟨_, _, _, positive, _⟩ | ⟨positive, _⟩ := parseArticleOrdinal_eq_some.mp accepted
  · exact positive
  · exact positive

/-- What is accepted means its number. -/
theorem denotes_of_parseArticleOrdinal (accepted : parseArticleOrdinal raw = some number) :
    Denotes raw number := by
  obtain ⟨nonempty, digits, same, _⟩ | ⟨positive, small, rfl⟩ :=
    parseArticleOrdinal_eq_some.mp accepted
  · have plain (character : Char) (among : character ∈ raw) :=
      halfWidth_of_isDigit (List.all_eq_true.mp digits character among)
    refine .inl ⟨nonempty, fun character among => ?_, ?_⟩
    · rw [plain character among]
      exact List.all_eq_true.mp digits character among
    · rw [List.map_congr_left plain, List.map_id']
      exact same
  · rw [← chineseNumber_eq_chineseSpelling positive small]
    exact .inr (isChinese_of_small positive small)

end Numerals

/-! ## The spellings of an article -/

/-- An article, with its numbers written one way. -/
def articleSpelling (write : Nat → Text) (base : Nat) (addition : Option Nat) : Text :=
  '第' :: write base ++ '条' :: (addition.elim [] fun number => '之' :: write number)

section Spellings

variable {write : Nat → Text} {base : Nat} {addition : Option Nat}

/-- A spelling names its article when its numerals mean its numbers. -/
theorem writesArticle_articleSpelling_iff
    (inBase : ∀ character ∈ write base, InNumeral character)
    (inAddition : ∀ number, addition = some number → ∀ character ∈ write number,
      InNumeral character) :
    WritesArticle (articleSpelling write base addition) base addition ↔
      Denotes (write base) base ∧ ∀ number, addition = some number →
        Denotes (write number) number := by
  have unmarked : '条' ∉ write base := fun among => (inBase '条' among).apart.2.2.1 rfl
  have tail : WritesAddition
      (Text.trim (addition.elim [] fun number => '之' :: write number)) addition ↔
        ∀ number, addition = some number → Denotes (write number) number := by
    cases addition with
    | none => exact ⟨fun _ => nofun, fun _ => rfl⟩
    | some number =>
        have kept : Text.trim ('之' :: write number) = '之' :: write number := by
          refine Text.trimMatches_eq_self fun character among => ?_
          obtain rfl | among := List.mem_cons.mp among
          · decide
          · exact (inAddition number rfl character among).apart.1
        dsimp only [Option.elim_some]
        rw [kept]
        constructor
        · rintro ⟨raw, same, denotes⟩ _ written
          cases same
          cases written
          exact denotes
        · exact fun denotes => ⟨_, rfl, denotes number rfl⟩
  rw [← tail]
  constructor
  · rintro ⟨before, raw, behind, same, first, last, denotes, written⟩
    have cut : [] ++ '第' :: (write base ++ '条' ::
        (addition.elim [] fun number => '之' :: write number)) =
          before ++ '第' :: (raw ++ '条' :: behind) := same
    obtain ⟨rfl, rest⟩ := append_cons_inj_of_notMem_left List.not_mem_nil first cut
    obtain ⟨rfl, rfl⟩ := append_cons_inj_of_notMem_left unmarked last rest
    exact ⟨denotes, written⟩
  · rintro ⟨denotes, written⟩
    exact ⟨[], _, _, rfl, List.not_mem_nil, unmarked, denotes, written⟩

/-- What `split_law_article_query` opens: the article which the query names, in two spellings. -/
theorem splitLawArticleQuery_eq_some {query : Text} {selector : LawArticleQuery}
    (split : splitLawArticleQuery query = some selector) :
    ∃ base addition, WritesArticle query base addition ∧ 0 < base ∧
      (∀ number, addition = some number → 0 < number) ∧
      selector.articleNumber = articleSpelling chineseNumber base addition ∧
      selector.arabicArticleNumber = articleSpelling decimal base addition := by
  rw [splitLawArticleQuery] at split
  obtain ⟨⟨before, rest⟩, cut, searched⟩ := Option.bind_eq_some_iff.mp split
  obtain ⟨⟨raw, behind⟩, cut', parsed⟩ := Option.bind_eq_some_iff.mp searched
  obtain ⟨rfl, first⟩ := splitAtCharacter_eq_some.mp cut
  obtain ⟨rfl, last⟩ := splitAtCharacter_eq_some.mp cut'
  dsimp only at parsed
  clear split searched
  split_ifs at parsed
  obtain ⟨base, accepted, rest⟩ := Option.bind_eq_some_iff.mp parsed
  obtain ⟨⟨canonical, arabic⟩, added, same⟩ := Option.bind_eq_some_iff.mp rest
  cases same
  have names (addition : Option Nat) (writes : WritesAddition (Text.trim behind) addition) :
      WritesArticle (before ++ '第' :: (raw ++ '条' :: behind)) base addition :=
    ⟨before, raw, behind, rfl, first, last, denotes_of_parseArticleOrdinal accepted, writes⟩
  rw [articleAddition.eq_def] at added
  split at added
  · next empty =>
      cases added
      exact ⟨base, none, names none empty, parseArticleOrdinal_pos accepted, fun _ => nofun,
        rfl, rfl⟩
  · next numeral marked =>
      obtain ⟨number, accepted', added⟩ := Option.bind_eq_some_iff.mp added
      cases added
      refine ⟨base, some number,
        names _ ⟨numeral, marked, denotes_of_parseArticleOrdinal accepted'⟩,
        parseArticleOrdinal_pos accepted, fun other same => ?_, rfl, rfl⟩
      cases same
      exact parseArticleOrdinal_pos accepted'
  · cases added

end Spellings

/-! ## Canonical queries -/

/-- What the loop of `canonical_query` writes behind a text. -/
def canonicalBehind : Bool → Text → Text
  | _, [] => []
  | pending, character :: rest =>
      if Text.isWhitespace (halfWidth character) then canonicalBehind true rest
      else (if pending then [' '] else []) ++ halfWidth character :: canonicalBehind false rest

section Canonical

variable {character marker : Char} {text before written behind raw back : Text}
  {pending : Bool} {number base : Nat} {addition : Option Nat}

/-- The form of a character which is not below 128 is itself. -/
theorem eq_of_halfWidth_eq (same : halfWidth character = marker) (large : 128 ≤ marker.toNat) :
    character = marker := by
  by_cases wide : 0xff01 ≤ character.toNat ∧ character.toNat ≤ 0xff5e
  · have code := toNat_halfWidth wide
    rw [same] at code
    omega
  · rw [halfWidth, if_neg wide] at same
    split_ifs at same
    · subst same
      exact absurd large (by decide)
    · exact same

/-- A character and its form are both white space or not. -/
theorem isWhitespace_halfWidth (character : Char) :
    Text.isWhitespace (halfWidth character) = Text.isWhitespace character := by
  by_cases space : character.toNat = 0x3000
  · obtain rfl : character = '\u3000' := Char.ext (UInt32.toNat_inj.mp space)
    decide
  by_cases wide : 0xff01 ≤ character.toNat ∧ character.toNat ≤ 0xff5e
  · have code := toNat_halfWidth wide
    have plain (letter : Char) (visible : 33 ≤ letter.toNat ∧ letter.toNat ≤ 126 ∨
        0xff01 ≤ letter.toNat) : Text.isWhitespace letter = false := by
      simp only [Text.isWhitespace, Bool.or_eq_false_iff, Bool.and_eq_false_iff,
        decide_eq_false_iff_not, beq_eq_false_iff_ne]
      omega
    rw [plain _ (.inl (by omega)), plain _ (.inr wide.1)]
  · rw [halfWidth, if_neg space, if_neg wide]

theorem canonicalBehind_of_white (white : Text.isWhitespace character = true) :
    canonicalBehind pending (character :: text) = canonicalBehind true text := by
  rw [canonicalBehind, isWhitespace_halfWidth, if_pos white]

theorem canonicalBehind_of_visible (visible : Text.isWhitespace character = false) :
    canonicalBehind pending (character :: text) =
      (if pending then [' '] else []) ++ halfWidth character :: canonicalBehind false text := by
  rw [canonicalBehind, isWhitespace_halfWidth, if_neg (Bool.eq_false_iff.mp visible)]

/-- The loop appends to what is written. -/
theorem foldl_canonicalStep (some : written ≠ []) :
    (text.foldl canonicalStep (written, pending)).1 = written ++ canonicalBehind pending text := by
  induction text generalizing written pending with
  | nil => exact (List.append_nil written).symm
  | cons character text inductionHypothesis =>
      have nonempty : written.isEmpty = false := List.isEmpty_eq_false_iff.mpr some
      rw [List.foldl_cons, canonicalStep]
      dsimp only
      rw [isWhitespace_halfWidth]
      cases white : Text.isWhitespace character with
      | true =>
          rw [if_pos rfl, inductionHypothesis some, canonicalBehind_of_white white]
      | false =>
          rw [if_neg Bool.false_ne_true, canonicalBehind_of_visible white, nonempty]
          cases pending with
          | true =>
              rw [inductionHypothesis (by simp)]
              simp
          | false =>
              rw [inductionHypothesis (by simp)]
              simp

/-- A canonical query is what the loop writes of the trimmed query. -/
theorem canonicalQuery_eq_canonicalBehind (input : Text) :
    canonicalQuery input = canonicalBehind false (Text.trim input) := by
  have kept := Text.kept_trimMatches Text.isWhitespace input
  rw [← Text.trim] at kept
  rw [canonicalQuery]
  cases same : Text.trim input with
  | nil => rfl
  | cons first rest =>
      rw [same] at kept
      have visible : Text.isWhitespace first = false := kept.first rfl
      have step : canonicalStep ([], false) first = ([halfWidth first], false) := by
        rw [canonicalStep]
        dsimp only
        rw [isWhitespace_halfWidth, visible]
        rfl
      rw [List.foldl_cons, step, foldl_canonicalStep (List.cons_ne_nil _ _),
        canonicalBehind_of_visible visible]
      rfl

/-- Characters which are not white space are written, in their forms. -/
theorem mem_canonicalBehind (among : character ∈ text)
    (visible : Text.isWhitespace character = false) :
    halfWidth character ∈ canonicalBehind pending text := by
  induction text generalizing pending with
  | nil => cases among
  | cons first rest inductionHypothesis =>
      obtain rfl | among := List.mem_cons.mp among
      · rw [canonicalBehind_of_visible visible]
        exact List.mem_append_right _ List.mem_cons_self
      · cases white : Text.isWhitespace first with
        | true =>
            rw [canonicalBehind_of_white white]
            exact inductionHypothesis among
        | false =>
            rw [canonicalBehind_of_visible white]
            exact List.mem_append_right _ (List.mem_cons_of_mem _ (inductionHypothesis among))

/-- What is written behind white space starts with white space. -/
theorem head?_canonicalBehind (first : (canonicalBehind true text).head? = some character) :
    character = ' ' := by
  induction text with
  | nil => cases first
  | cons letter rest inductionHypothesis =>
      cases white : Text.isWhitespace letter with
      | true =>
          rw [canonicalBehind_of_white white] at first
          exact inductionHypothesis first
      | false =>
          rw [canonicalBehind_of_visible white] at first
          exact (Option.some.inj first).symm

/-- What is written without white space stands so in the text. -/
theorem canonicalBehind_eq_append (visible : ∀ character ∈ raw, Text.isWhitespace character = false)
    (same : canonicalBehind false text = raw ++ behind) :
    ∃ front rest, text = front ++ rest ∧ front.map halfWidth = raw ∧
      canonicalBehind false rest = behind := by
  induction raw generalizing text with
  | nil => exact ⟨[], text, rfl, rfl, same⟩
  | cons first raw inductionHypothesis =>
      rw [List.forall_mem_cons] at visible
      cases text with
      | nil => cases same
      | cons character rest =>
          cases white : Text.isWhitespace character with
          | true =>
              rw [canonicalBehind_of_white white] at same
              have blank : first = ' ' := head?_canonicalBehind (by rw [same]; rfl)
              rw [blank] at visible
              cases visible.1
          | false =>
              rw [canonicalBehind_of_visible white] at same
              obtain ⟨rfl, others⟩ := List.cons.inj same
              obtain ⟨front, rest, rfl, rfl, left⟩ := inductionHypothesis visible.2 others
              exact ⟨character :: front, rest, rfl, rfl, left⟩

/-- The text is cut where the loop writes a character. -/
theorem canonicalBehind_eq_append_cons (visible : Text.isWhitespace marker = false)
    (same : canonicalBehind pending text = before ++ marker :: behind) :
    ∃ front character rest, text = front ++ character :: rest ∧ halfWidth character = marker ∧
      canonicalBehind false rest = behind ∧ ∀ other ∈ front,
        Text.isWhitespace other = true ∨ halfWidth other ∈ before := by
  induction text generalizing pending before with
  | nil =>
      rw [canonicalBehind] at same
      exact absurd same.symm (List.append_ne_nil_of_right_ne_nil _ (List.cons_ne_nil _ _))
  | cons first text inductionHypothesis =>
      cases white : Text.isWhitespace first with
      | true =>
          rw [canonicalBehind_of_white white] at same
          obtain ⟨front, character, rest, rfl, form, written, cut⟩ := inductionHypothesis same
          refine ⟨first :: front, character, rest, rfl, form, written, ?_⟩
          rw [List.forall_mem_cons]
          exact ⟨.inl white, cut⟩
      | false =>
          rw [canonicalBehind_of_visible white] at same
          -- The first character is the marker, or stands in front of it.
          have here (passed : Text) (inPassed : ∀ other ∈ passed, other ∈ before)
              (left : halfWidth first :: canonicalBehind false text = passed ++ marker :: behind) :
              ∃ front character rest, first :: text = front ++ character :: rest ∧
                halfWidth character = marker ∧ canonicalBehind false rest = behind ∧
                  ∀ other ∈ front, Text.isWhitespace other = true ∨ halfWidth other ∈ before := by
            cases passed with
            | nil =>
                obtain ⟨rfl, others⟩ := List.cons.inj left
                exact ⟨[], first, text, rfl, rfl, others, fun _ => nofun⟩
            | cons next passed =>
                obtain ⟨rfl, others⟩ := List.cons.inj left
                rw [List.forall_mem_cons] at inPassed
                obtain ⟨front, character, rest, rfl, form, written, cut⟩ :=
                  inductionHypothesis others
                refine ⟨first :: front, character, rest, rfl, form, written, ?_⟩
                rw [List.forall_mem_cons]
                exact ⟨.inr inPassed.1, fun other among =>
                  (cut other among).imp_right fun inside => inPassed.2 _ inside⟩
          cases pending with
          | false => exact here before (fun _ => id) same
          | true =>
              cases before with
              | nil =>
                  obtain ⟨blank, _⟩ := List.cons.inj same
                  rw [← blank] at visible
                  cases visible
              | cons blank before =>
                  exact here before (fun _ => List.mem_cons_of_mem _) (List.cons.inj same).2

/-- A numeral in wide digits means what its forms mean. -/
theorem denotes_of_map_halfWidth (denotes : Denotes (raw.map halfWidth) number) :
    Denotes raw number := by
  obtain decimal | chinese := denotes
  · refine .inl ⟨?_, fun character among => ?_, ?_⟩
    · rintro rfl
      exact decimal.nonempty rfl
    · rw [← halfWidth_halfWidth]
      exact decimal.digits _ (List.mem_map_of_mem among)
    · rw [← decimal.value, List.map_map]
      exact congrArg parseDecimal (List.map_congr_left fun character _ =>
        (halfWidth_halfWidth character).symm)
  · have large : numeralLetters.all (fun letter => decide (128 ≤ letter.toNat)) = true := by decide
    have plain (character : Char) (among : character ∈ raw) : halfWidth character = character := by
      have letter := chinese.letters _ (List.mem_map_of_mem among)
      exact (eq_of_halfWidth_eq rfl
        (of_decide_eq_true (List.all_eq_true.mp large _ letter))).symm
    rw [List.map_congr_left plain, List.map_id'] at chinese
    exact .inr chinese

theorem Denotes.visible (denotes : Denotes raw number) :
    ∀ character ∈ raw, Text.isWhitespace character = false := by
  intro character among
  obtain decimal | chinese := denotes
  · rw [← isWhitespace_halfWidth]
    exact (InNumeral.apart (.inl (decimal.digits character among))).1
  · exact (InNumeral.apart (.inr (chinese.letters character among))).1

/-- The addition behind a text is that of what the loop writes of it. -/
theorem writesAddition_of_canonicalBehind
    (writes : WritesAddition (Text.trim (canonicalBehind false text)) addition) :
    WritesAddition (Text.trim text) addition := by
  have blank {other : Text} (white : ∀ character ∈ canonicalBehind false other,
      Text.isWhitespace character = true) : ∀ character ∈ other,
        Text.isWhitespace character = true := by
    intro character among
    by_contra visible
    rw [Bool.not_eq_true] at visible
    have inside := white _ (@mem_canonicalBehind _ _ false among visible)
    rw [isWhitespace_halfWidth, visible] at inside
    cases inside
  obtain ⟨front, back, same, inFront, inBack⟩ :=
    Text.exists_trimMatches Text.isWhitespace (canonicalBehind false text)
  rw [← Text.trim] at same
  cases addition with
  | none =>
      rw [show Text.trim (canonicalBehind false text) = [] from writes, List.append_nil] at same
      refine Text.trimMatches_eq_nil (blank fun character among => ?_)
      rw [same] at among
      obtain among | among := List.mem_append.mp among
      · exact inFront character among
      · exact inBack character among
  | some number =>
      obtain ⟨raw, marked, denotes⟩ := writes
      rw [marked, List.append_assoc, List.cons_append] at same
      obtain ⟨first, character, rest, rfl, form, written, cut⟩ :=
        canonicalBehind_eq_append_cons (by decide) same
      obtain rfl := eq_of_halfWidth_eq form (by decide)
      obtain ⟨numeral, last, rfl, rfl, left⟩ := canonicalBehind_eq_append denotes.visible written
      have denotes := denotes_of_map_halfWidth denotes
      have white : ∀ character ∈ first, Text.isWhitespace character = true := by
        intro character among
        obtain white | inside := cut character among
        · exact white
        · rw [← isWhitespace_halfWidth]
          exact inFront _ inside
      have kept : Text.trim ('之' :: numeral) = '之' :: numeral := by
        refine Text.trimMatches_eq_self ?_
        rw [List.forall_mem_cons]
        exact ⟨by decide, denotes.visible⟩
      refine ⟨numeral, ?_, denotes⟩
      rw [Text.trim, Text.trimMatches_append_left white, ← List.cons_append,
        Text.trimMatches_append_right (blank (left ▸ inBack)), ← Text.trim, kept]

/-- The article of a canonical query is the article of the query. -/
theorem writesArticle_of_canonicalQuery {input : Text}
    (writes : WritesArticle (canonicalQuery input) base addition) :
    WritesArticle input base addition := by
  obtain ⟨before, raw, behind, same, first, last, denotes, writes⟩ := writes
  rw [canonicalQuery_eq_canonicalBehind] at same
  obtain ⟨front, character, rest, cutFront, form, written, cut⟩ :=
    canonicalBehind_eq_append_cons (by decide) same
  obtain rfl := eq_of_halfWidth_eq form (by decide)
  obtain ⟨numeral, rest, rfl, rfl, closed⟩ := canonicalBehind_eq_append denotes.visible written
  have ends : ∀ character ∈ ['条'], Text.isWhitespace character = false := by
    intro character among
    obtain rfl := List.mem_singleton.mp among
    decide
  obtain ⟨«end», rest, rfl, forms, behindSame⟩ := canonicalBehind_eq_append ends closed
  obtain ⟨character, rfl, form⟩ := List.map_eq_singleton_iff.mp forms
  obtain rfl := eq_of_halfWidth_eq form (by decide)
  subst behindSame
  have inNumeral : '条' ∉ numeral := fun among => last (List.mem_map.mpr ⟨'条', among, by decide⟩)
  have outside (other : Text) (white : ∀ character ∈ other, Text.isWhitespace character = true) :
      '第' ∉ other := by
    intro among
    cases white '第' among
  have inFront : '第' ∉ front := by
    intro among
    obtain white | inside := cut '第' among
    · cases white
    · exact first inside
  obtain ⟨left, right, whole, inLeft, inRight⟩ :=
    Text.exists_trimMatches Text.isWhitespace input
  rw [← Text.trim, cutFront] at whole
  refine ⟨left ++ front, numeral, rest ++ right, ?_, ?_, inNumeral,
    denotes_of_map_halfWidth denotes, ?_⟩
  · rw [whole]
    simp
  · rw [List.mem_append, not_or]
    exact ⟨outside left inLeft, inFront⟩
  · rw [Text.trim, Text.trimMatches_append_right inRight, ← Text.trim]
    exact writesAddition_of_canonicalBehind writes

end Canonical

/-! ## The citation validator -/

namespace CitationValidator

/-- `parse_article_number` of `citations/src/lib.rs`, which is written as that of the first
search. -/
def parseArticleNumber (value : Text) : Option ParsedArticleNumber :=
  FirstSearch.parseArticleNumber value

/-- `integer_to_chinese` of `citations/src/lib.rs`, which is written as that of the first
search. -/
def integerToChinese (value : Nat) : Text := FirstSearch.integerToChinese value

end CitationValidator

/-! ## Exact selection -/

/-- A well formed numeral: digits of a number of 32 bits which is not zero, or the usual Chinese
numeral of such a number below 100000. -/
def WellFormed (raw : Text) (number : Nat) : Prop :=
  (raw ≠ [] ∧ raw.all Char.isDigit = true ∧ parseDecimal raw = number ∧ 0 < number ∧
      number < 2 ^ 32) ∨
    (0 < number ∧ number < 100000 ∧ raw = chineseSpelling number)

/-- A text names one article at most. -/
theorem WritesArticle.unique {text : Text} {base base' : Nat} {addition addition' : Option Nat}
    (writes : WritesArticle text base addition) (writes' : WritesArticle text base' addition') :
    base = base' ∧ addition = addition' := by
  obtain ⟨before, raw, behind, rfl, first, last, denotes, tail⟩ := writes
  obtain ⟨before', raw', behind', same, first', last', denotes', tail'⟩ := writes'
  obtain ⟨rfl, rest⟩ := append_cons_inj_of_notMem_left first first' same
  obtain ⟨rfl, rfl⟩ := append_cons_inj_of_notMem_left last last' rest
  refine ⟨denotes.unique denotes', ?_⟩
  cases addition with
  | none =>
      cases addition' with
      | none => rfl
      | some number =>
          obtain ⟨_, marked, _⟩ := tail'
          rw [show Text.trim behind = [] from tail] at marked
          cases marked
  | some number =>
      obtain ⟨numeral, marked, meant⟩ := tail
      cases addition' with
      | none =>
          rw [show Text.trim behind = [] from tail'] at marked
          cases marked
      | some number' =>
          obtain ⟨numeral', marked', meant'⟩ := tail'
          rw [marked] at marked'
          cases marked'
          rw [meant.unique meant']

/-- Both spellings name the article of the query when its numbers are below 100000. -/
theorem writesArticle_of_splitLawArticleQuery {query : Text} {selector : LawArticleQuery}
    (split : splitLawArticleQuery query = some selector) :
    ∃ base addition, WritesArticle query base addition ∧
      ((WritesArticle selector.articleNumber base addition ∧
          WritesArticle selector.arabicArticleNumber base addition) ↔
        base < 100000 ∧ ∀ number, addition = some number → number < 100000) := by
  obtain ⟨base, addition, writes, positive, positive', spelled, spelled'⟩ :=
    splitLawArticleQuery_eq_some split
  refine ⟨base, addition, writes, ?_⟩
  have chinese := writesArticle_articleSpelling_iff (inNumeral_chineseNumber positive)
    (fun number same => inNumeral_chineseNumber (positive' number same))
  have arabic := writesArticle_articleSpelling_iff (@inNumeral_decimal base)
    (fun number (_ : addition = some number) => @inNumeral_decimal number)
  rw [spelled, spelled', chinese, arabic, denotes_chineseNumber_iff positive]
  constructor
  · rintro ⟨⟨small, smallAddition⟩, _⟩
    exact ⟨small, fun number same =>
      (denotes_chineseNumber_iff (positive' number same)).mp (smallAddition number same)⟩
  · rintro ⟨small, smallAddition⟩
    exact ⟨⟨small, fun number same =>
      (denotes_chineseNumber_iff (positive' number same)).mpr (smallAddition number same)⟩,
      denotes_decimal base, fun number _ => denotes_decimal number⟩

/-- The article which a query names is the article of both spellings when its numbers are below
100000. Only well formed numerals are accepted, what the three parsers accept they read alike, and
the printers and the parsers are inverse to each other below 100000. -/
theorem exact_selection_names_its_article_iff (query : Text) :
    (∀ selector, splitLawArticleQuery query = some selector →
      ∃ base addition, WritesArticle query base addition ∧
        ((WritesArticle selector.articleNumber base addition ∧
            WritesArticle selector.arabicArticleNumber base addition) ↔
          base < 100000 ∧ ∀ number, addition = some number → number < 100000)) ∧
    (∀ input base addition, WritesArticle (canonicalQuery input) base addition →
      WritesArticle input base addition) ∧
    (∀ text base base' addition addition', WritesArticle text base addition →
      WritesArticle text base' addition' → base = base' ∧ addition = addition') ∧
    (∀ raw number, parseArticleOrdinal raw = some number ↔ WellFormed raw number) ∧
    (∀ raw number first validated, parseArticleOrdinal raw = some number →
      FirstSearch.parseArticleNumber raw = some first →
        CitationValidator.parseArticleNumber raw = some validated →
          first = ⟨number, none⟩ ∧ validated = ⟨number, none⟩) ∧
    ∀ number, 0 < number → number < 100000 →
      FirstSearch.integerToChinese number = chineseNumber number ∧
        CitationValidator.integerToChinese number = chineseNumber number ∧
        parseArticleOrdinal (chineseNumber number) = some number ∧
        FirstSearch.parseArticleNumber (chineseNumber number) = some ⟨number, none⟩ ∧
        CitationValidator.parseArticleNumber (chineseNumber number) = some ⟨number, none⟩ := by
  have alike {raw : Text} {number : Nat} {first : ParsedArticleNumber}
      (accepted : parseArticleOrdinal raw = some number)
      (parsed : FirstSearch.parseArticleNumber raw = some first) : first = ⟨number, none⟩ := by
    rw [FirstSearch.parseArticleNumber_of_parseArticleOrdinal accepted] at parsed
    split_ifs at parsed
    exact (Option.some.inj parsed).symm
  refine ⟨?_, ?_, ?_, ?_, ?_, ?_⟩
  · exact fun _ => writesArticle_of_splitLawArticleQuery
  · exact fun _ _ _ => writesArticle_of_canonicalQuery
  · exact fun _ _ _ _ _ writes writes' => writes.unique writes'
  · exact fun _ _ => parseArticleOrdinal_eq_some
  · intro raw number first validated accepted parsed parsed'
    rw [CitationValidator.parseArticleNumber] at parsed'
    exact ⟨alike accepted parsed, alike accepted parsed'⟩
  intro number positive small
  have spelled := chineseNumber_eq_chineseSpelling positive small
  have printed : FirstSearch.integerToChinese number = chineseNumber number := by
    rw [FirstSearch.integerToChinese_eq_chineseSpelling, spelled]
  have accepted : parseArticleOrdinal (chineseNumber number) = some number :=
    parseArticleOrdinal_eq_some.mpr (.inr ⟨positive, small, spelled⟩)
  have parsed : FirstSearch.parseArticleNumber (chineseNumber number) = some ⟨number, none⟩ := by
    rw [FirstSearch.parseArticleNumber_of_parseArticleOrdinal accepted]
    exact if_pos (Nat.le_of_lt_succ small)
  exact ⟨printed, printed, accepted, parsed, parsed⟩

/-- A query for the article 123456 opens the article 23456. -/
theorem long_number_opens_another_article :
    splitLawArticleQuery "民法典第123456条".toList =
        some ⟨"民法典".toList, "第二万三千四百五十六条".toList, "第123456条".toList⟩ ∧
      WritesArticle "民法典第123456条".toList 123456 none ∧
      WritesArticle "第二万三千四百五十六条".toList 23456 none ∧
      ¬ ∃ base addition, WritesArticle "民法典第123456条".toList base addition ∧
        WritesArticle "第二万三千四百五十六条".toList base addition := by
  have split : splitLawArticleQuery "民法典第123456条".toList =
      some ⟨"民法典".toList, "第二万三千四百五十六条".toList, "第123456条".toList⟩ := by
    decide
  have written : WritesArticle "民法典第123456条".toList 123456 none :=
    ⟨"民法典".toList, "123456".toList, [], rfl, by decide, by decide,
      denotes_of_parseArticleOrdinal (by decide), rfl⟩
  have opened : WritesArticle "第二万三千四百五十六条".toList 23456 none :=
    ⟨[], "二万三千四百五十六".toList, [], rfl, by decide, by decide,
      denotes_of_parseArticleOrdinal (by decide), rfl⟩
  refine ⟨split, written, opened, ?_⟩
  rintro ⟨base, addition, names, names'⟩
  have first := (names.unique written).1
  have second := (names'.unique opened).1
  omega

end LawyerAssistance.Retrieval

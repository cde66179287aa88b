import LawyerAssistance.Retrieval.ArticleNumerals
import Mathlib.Data.List.TakeDrop

/-!
# The numeral parsers of the first search

`parse_article_number` and `integer_to_chinese` of `retrieval/src/lib.rs`, which the citation
validator has again, line for line. On a numeral which the paged search accepts they accept the
same number, up to 99999, and both printers write the usual numeral.
-/

namespace LawyerAssistance.Retrieval

open PlaceNumerals

/-! ## Cuts at a character -/

section Cuts

variable {marker : Char} {text before after : Text}

/-- A text is cut at the first occurrence of the character. -/
theorem splitAtCharacter_eq_some : splitAtCharacter marker text = some (before, after) ↔
    text = before ++ marker :: after ∧ marker ∉ before := by
  rw [splitAtCharacter, List.span_eq_takeWhile_dropWhile]
  constructor
  · intro cut
    cases rest : text.dropWhile (fun character => decide (character ≠ marker)) with
    | nil =>
        rw [rest] at cut
        cases cut
    | cons first others =>
        rw [rest] at cut
        cases cut
        have stops : first = marker := by
          have head := List.head?_dropWhile_not (fun character => decide (character ≠ marker)) text
          rw [rest] at head
          simpa using head
        refine ⟨?_, fun among => ?_⟩
        · subst stops
          rw [← rest, List.takeWhile_append_dropWhile]
        · simpa using List.mem_takeWhile_imp among
  · rintro ⟨rfl, plain⟩
    have taken : ∀ character ∈ before, decide (character ≠ marker) = true := fun character among =>
      decide_eq_true fun same => plain (same ▸ among)
    rw [List.takeWhile_append_of_pos taken, List.dropWhile_append_of_pos taken,
      List.takeWhile_cons_of_neg (by simp), List.dropWhile_cons_of_neg (by simp), List.append_nil]

/-- A text without the character is not cut. -/
theorem splitAtCharacter_eq_none (plain : marker ∉ text) : splitAtCharacter marker text = none := by
  cases cut : splitAtCharacter marker text with
  | none => rfl
  | some parts =>
      obtain ⟨before, after⟩ := parts
      refine absurd ?_ plain
      rw [(splitAtCharacter_eq_some.mp cut).1]
      exact List.mem_append_right _ List.mem_cons_self

end Cuts

/-! ## The first search -/

/-- `ParsedArticleNumber`. -/
structure ParsedArticleNumber where
  base : Nat
  subarticle : Option Nat
  deriving DecidableEq

namespace FirstSearch

/-- `MAX_ARTICLE_ORDINAL`. -/
def maxArticleOrdinal : Nat := 99999

/-- `chinese_digit`. -/
def chineseDigit : Char → Option Nat
  | '零' | '〇' => some 0
  | '一' => some 1
  | '二' | '两' => some 2
  | '三' => some 3
  | '四' => some 4
  | '五' => some 5
  | '六' => some 6
  | '七' => some 7
  | '八' => some 8
  | '九' => some 9
  | _ => none

/-- The units below ten thousand. -/
def chineseUnit : Char → Option Nat
  | '十' => some 10
  | '百' => some 100
  | '千' => some 1000
  | _ => none

/-- The loop of `parse_chinese_under_ten_thousand`. -/
structure OrdinalState where
  total : Nat
  pendingDigit : Option Nat
  previousUnit : Nat
  sawUnit : Bool

/-- A character of the loop. -/
def ordinalStep (state : OrdinalState) (character : Char) : Option OrdinalState :=
  match chineseDigit character with
  | some digit =>
      if digit = 0 then some { state with pendingDigit := none }
      else if state.pendingDigit.isSome then none
      else some { state with pendingDigit := some digit }
  | none => do
      let unit ← chineseUnit character
      if state.previousUnit ≤ unit then none
      else do
        let written ← checkedU32 (state.pendingDigit.getD 1 * unit)
        let total ← checkedU32 (state.total + written)
        some ⟨total, none, unit, true⟩

/-- A digit of a text of digits only. -/
def digitStep (accumulator : Nat) (character : Char) : Option Nat := do
  let moved ← checkedU32 (accumulator * 10)
  let digit ← chineseDigit character
  checkedU32 (moved + digit)

/-- `parse_chinese_under_ten_thousand`. -/
def parseChineseUnderTenThousand (value : Text) : Option Nat :=
  if value = [] then none
  else if value.all fun character => (chineseDigit character).isSome then
    value.foldlM digitStep 0
  else do
    let state ← value.foldlM ordinalStep ⟨0, none, 10000, false⟩
    if state.sawUnit then checkedU32 (state.total + state.pendingDigit.getD 0) else none

/-- The sections of `parse_chinese_ordinal`. -/
def parseChineseSections (value : Text) : Option Nat :=
  match splitAtCharacter '万' value with
  | none => parseChineseUnderTenThousand value
  | some (first, second) =>
      if '万' ∈ second ∨ first = [] then none
      else do
        let upper ← parseChineseUnderTenThousand first
        let lower ← if second = [] then some 0 else parseChineseUnderTenThousand second
        let moved ← checkedU32 (upper * 10000)
        checkedU32 (moved + lower)

/-- `parse_chinese_ordinal`. -/
def parseChineseOrdinal (value : Text) : Option Nat :=
  (parseChineseSections value).filter (0 < ·)

/-- `strip_prefix`, of a character. -/
def stripFirst (character : Char) (text : Text) : Text :=
  if text.head? = some character then text.tail else text

/-- `strip_suffix`, of a character. -/
def stripLast (character : Char) (text : Text) : Text :=
  if text.getLast? = some character then text.dropLast else text

/-- `parse_ordinal_component`. -/
def parseOrdinalComponent (value : Text) : Option Nat :=
  let ordinal := stripLast '条' (stripFirst '第' (Text.trim value))
  if ordinal = [] ∨ ordinal.any Text.isWhitespace = true then none
  else do
    let parsed ←
      if ordinal.all Char.isDigit then checkedU32 (parseDecimal ordinal)
      else parseChineseOrdinal ordinal
    if 1 ≤ parsed ∧ parsed ≤ maxArticleOrdinal then some parsed else none

/-- `parse_article_number`. -/
def parseArticleNumber (value : Text) : Option ParsedArticleNumber :=
  let value := Text.trim value
  match splitAtCharacter '之' value with
  | some (base, subarticle) =>
      if '之' ∈ subarticle ∨ base.getLast? ≠ some '条' then none
      else do
        let subarticle ← parseOrdinalComponent subarticle
        let base ← parseOrdinalComponent base
        some ⟨base, some subarticle⟩
  | none => do
      let base ← parseOrdinalComponent value
      some ⟨base, none⟩

/-- The loop of `integer_to_chinese`: what is written, whether a digit was, and whether a zero is
due. -/
def chinesePosition (value : Nat) (state : Text × Bool × Bool) (position : Nat) :
    Text × Bool × Bool :=
  let digit := value / 10 ^ position % 10
  if digit = 0 then
    (state.1, state.2.1, state.2.2 || (state.2.1 && decide (value % 10 ^ position ≠ 0)))
  else
    (state.1 ++ (if state.2.2 then ['零'] else []) ++
      (if digit = 1 ∧ position = 1 ∧ state.2.1 = false then [] else [Retrieval.chineseDigit digit]) ++
        placeName position, true, false)

/-- `integer_to_chinese`. -/
def integerToChinese (value : Nat) : Text :=
  ([4, 3, 2, 1, 0].foldl (chinesePosition value) ([], false, false)).1

example : parseArticleNumber "第一百二十条之一".toList = some ⟨120, some 1⟩ := by decide

/-! ## Reading the usual numerals -/

section Reading

variable {bound value total previous written : Nat} {raw : Text} {saw : Bool}

theorem chineseDigit_of_digit (small : written < 10) :
    chineseDigit (Retrieval.chineseDigit written) = some written := by
  interval_cases written <;> rfl

theorem ordinalStep_of_digit {state : OrdinalState} (positive : 0 < written)
    (small : written < 10) (none : state.pendingDigit = none) :
    ordinalStep state (Retrieval.chineseDigit written) =
      some { state with pendingDigit := some written } := by
  rw [ordinalStep, chineseDigit_of_digit small]
  dsimp only
  rw [if_neg (Nat.ne_of_gt positive), none]
  rfl

/-- A unit below the one before multiplies the pending digit. -/
theorem ordinalStep_of_unit {place : Nat} (positive : 0 < place) (small : place < 4)
    (below : 10 ^ place < previous) (fits : total + written * 10 ^ place < 2 ^ 32) :
    (placeName place).foldlM ordinalStep ⟨total, some written, previous, saw⟩ =
      some ⟨total + written * 10 ^ place, none, 10 ^ place, true⟩ := by
  have product : written * 10 ^ place < 2 ^ 32 := by omega
  interval_cases place
  all_goals
    norm_num at product fits below
    simp only [placeName, List.foldlM_cons, List.foldlM_nil, ordinalStep, chineseDigit,
      chineseUnit, Option.bind_eq_bind, Option.bind_some, Option.getD_some]
    rw [if_neg (Nat.not_le.mpr below), checkedU32_eq_some.mpr ⟨product, rfl⟩]
    dsimp only [Option.bind_some]
    rw [checkedU32_eq_some.mpr ⟨fits, rfl⟩]
    rfl

theorem not_all_digits {place : Nat} (positive : 0 < place) (small : place < 4) (rest : Text) :
    (placeName place ++ rest).all (fun character => (chineseDigit character).isSome) = false := by
  interval_cases place <;> rfl

/-- The loop adds a numeral to its total, and sees a unit unless there are digits only. -/
theorem foldlM_ordinalStep (reads : Reads Retrieval.chineseDigit placeName bound raw value)
    (small : bound ≤ 4) (below : 10 ^ bound ≤ previous) (fits : total + value < 2 ^ 32) :
    ∃ state, raw.foldlM ordinalStep ⟨total, none, previous, saw⟩ = some state ∧
      state.total + state.pendingDigit.getD 0 = total + value ∧
      (raw.all (fun character => (chineseDigit character).isSome) = false →
        state.sawUnit = true) ∧ (saw = true → state.sawUnit = true) := by
  induction reads generalizing total previous saw with
  | nothing => exact ⟨_, rfl, rfl, nofun, id⟩
  | zero _ _ inductionHypothesis =>
      obtain ⟨state, folded, sum, seen, kept⟩ := inductionHypothesis small below fits
      exact ⟨state, folded, sum, fun letters => seen letters, kept⟩
  | @place bound place written value text lower positive digit rest inductionHypothesis =>
      rw [List.foldlM_cons, ordinalStep_of_digit positive digit rfl]
      dsimp only [Option.bind_eq_bind, Option.bind_some]
      rw [List.foldlM_append, List.all_cons, chineseDigit_of_digit digit]
      obtain rfl | unit := Nat.eq_zero_or_pos place
      · obtain ⟨rfl, rfl⟩ := eq_nil_of_reads_zero rest rfl
        exact ⟨_, rfl, by simp, nofun, id⟩
      · have less : 10 ^ place < previous :=
          (Nat.pow_lt_pow_right (by decide) lower).trans_le below
        rw [ordinalStep_of_unit unit (by omega) less (by omega)]
        obtain ⟨state, folded, sum, seen, kept⟩ := @inductionHypothesis
          (total + written * 10 ^ place) (10 ^ place) true (by omega) (Nat.le_refl _) (by omega)
        exact ⟨state, folded, by omega, fun _ => kept rfl, fun _ => kept rfl⟩

/-- A numeral of digits only has the number of its digit. -/
theorem foldlM_digitStep (reads : Reads Retrieval.chineseDigit placeName bound raw value)
    (small : bound ≤ 4)
    (digits : raw.all (fun character => (chineseDigit character).isSome) = true) :
    raw.foldlM digitStep 0 = some value := by
  induction reads with
  | nothing => rfl
  | zero _ _ inductionHypothesis => exact inductionHypothesis small digits
  | @place bound place written value text lower positive digit rest inductionHypothesis =>
      rw [List.all_cons, Bool.and_eq_true] at digits
      obtain rfl | unit := Nat.eq_zero_or_pos place
      · obtain ⟨rfl, rfl⟩ := eq_nil_of_reads_zero rest rfl
        have step : digitStep 0 (Retrieval.chineseDigit written) = some written := by
          interval_cases written <;> rfl
        rw [List.foldlM_cons, step, pow_zero, Nat.mul_one, Nat.add_zero]
        rfl
      · rw [not_all_digits unit (by omega) text] at digits
        cases digits.2

/-- A numeral below ten thousand is parsed. -/
theorem parseChineseUnderTenThousand_of_reads
    (reads : Reads Retrieval.chineseDigit placeName 4 raw value) (nonempty : raw ≠ []) :
    parseChineseUnderTenThousand raw = some value := by
  have short := reads.lt
  rw [parseChineseUnderTenThousand, if_neg nonempty]
  cases digits : raw.all (fun character => (chineseDigit character).isSome) with
  | true =>
      rw [if_pos rfl]
      exact foldlM_digitStep reads (Nat.le_refl 4) digits
  | false =>
      rw [if_neg Bool.false_ne_true]
      obtain ⟨state, folded, sum, seen, _⟩ := @foldlM_ordinalStep 4 value 0 10000 raw false reads
        (Nat.le_refl 4) (Nat.le_refl _) (by omega)
      rw [folded]
      dsimp only [Option.bind_eq_bind, Option.bind_some]
      rw [if_pos (seen digits)]
      exact checkedU32_eq_some.mpr ⟨by omega, by omega⟩

/-- A numeral below ten thousand has no name of ten thousand. -/
theorem notMem_of_reads (reads : Reads Retrieval.chineseDigit placeName bound raw value)
    (small : bound ≤ 4) : '万' ∉ raw := by
  have digits : ∀ written < 10, '万' ≠ Retrieval.chineseDigit written := by decide
  induction reads with
  | nothing => exact List.not_mem_nil
  | zero _ _ inductionHypothesis =>
      exact List.not_mem_cons_of_ne_of_not_mem (by decide) (inductionHypothesis small)
  | @place bound place written value text lower positive digit rest inductionHypothesis =>
      have names : '万' ∉ placeName place := by
        have less : place < 4 := lower.trans_le small
        clear inductionHypothesis rest lower
        interval_cases place <;> decide
      refine List.not_mem_cons_of_ne_of_not_mem (digits written digit) ?_
      rw [List.mem_append, not_or]
      exact ⟨names, inductionHypothesis (by omega)⟩

/-- The numeral of a number below 100000 is parsed. -/
theorem parseChineseOrdinal_chineseSpelling (positive : 0 < value) (small : value < 100000) :
    parseChineseOrdinal (chineseSpelling value) = some value := by
  have sections : parseChineseSections (chineseSpelling value) = some value := by
    by_cases few : value < 20
    · interval_cases value <;> rfl
    rw [← chineseNumber_eq_chineseSpelling positive small,
      chineseNumber_eq_spell (Nat.not_lt.mp few), parseChineseSections, spell]
    have whole := mod_succ value 4
    rw [Nat.mod_eq_of_lt (show value < 10 ^ 5 from small)] at whole
    by_cases zero : digitAt value 4 = 0
    · rw [zero, Nat.zero_mul, Nat.zero_add] at whole
      have reads := @reads_spell _ Retrieval.chineseDigit placeName value 4
      rw [if_pos zero, splitAtCharacter_eq_none (notMem_of_reads reads (Nat.le_refl 4))]
      dsimp only
      rw [← whole] at reads
      refine parseChineseUnderTenThousand_of_reads reads fun empty => ?_
      rw [empty] at reads
      cases reads
      exact absurd positive (by decide)
    · have reads := @reads_spellBehind _ Retrieval.chineseDigit placeName value 4 false
      have digit := digitAt_lt value 4
      have upper : parseChineseUnderTenThousand [Retrieval.chineseDigit (digitAt value 4)] =
          some (digitAt value 4) := by
        generalize digitAt value 4 = written at digit
        interval_cases written <;> rfl
      have first : '万' ∉ [Retrieval.chineseDigit (digitAt value 4)] := by
        have digits : ∀ written < 10, '万' ∉ [Retrieval.chineseDigit written] := by decide
        exact digits _ digit
      rw [if_neg zero, if_neg (by simp)]
      have cut : splitAtCharacter '万' ([Retrieval.chineseDigit (digitAt value 4)] ++
          (placeName 4 ++ spellBehind Retrieval.chineseDigit placeName value 4 false)) =
          some ([Retrieval.chineseDigit (digitAt value 4)],
            spellBehind Retrieval.chineseDigit placeName value 4 false) :=
        splitAtCharacter_eq_some.mpr ⟨rfl, first⟩
      have sum (lower : Nat) (left : lower = value % 10 ^ 4) :
          ((checkedU32 (digitAt value 4 * 10000)).bind fun moved => checkedU32 (moved + lower)) =
            some value := by
        rw [checkedU32_eq_some.mpr ⟨by omega, rfl⟩, Option.bind_some]
        exact checkedU32_eq_some.mpr ⟨by omega, by omega⟩
      rw [cut]
      dsimp only
      rw [if_neg (not_or.mpr ⟨notMem_of_reads reads (Nat.le_refl 4), List.cons_ne_nil _ _⟩), upper]
      dsimp only [Option.bind_eq_bind, Option.bind_some]
      split_ifs with empty
      · rw [empty] at reads
        refine sum 0 ?_
        generalize value % 10 ^ 4 = left at reads
        cases reads
        rfl
      · rw [parseChineseUnderTenThousand_of_reads reads empty, Option.bind_some]
        exact sum _ rfl
  rw [parseChineseOrdinal, sections, Option.filter_some, if_pos (decide_eq_true positive)]

end Reading

/-! ## The printer -/

/-- The positions of `integer_to_chinese` below a position. -/
def positionsFrom : Nat → List Nat
  | 0 => []
  | place + 1 => place :: positionsFrom place

section Printer

variable {value place : Nat}

/-- A position which is left out makes a zero due when something follows. -/
theorem chinesePosition_of_zero {written : Text} {started pending : Bool}
    (zero : digitAt value place = 0) : chinesePosition value (written, started, pending) place =
      (written, started, pending || (started && decide (value % 10 ^ place ≠ 0))) := by
  rw [chinesePosition]
  exact if_pos zero

theorem chinesePosition_of_digit {state : Text × Bool × Bool} (digit : digitAt value place ≠ 0) :
    chinesePosition value state place =
      (state.1 ++ (if state.2.2 then ['零'] else []) ++
        (if digitAt value place = 1 ∧ place = 1 ∧ state.2.1 = false then []
          else [Retrieval.chineseDigit (digitAt value place)]) ++ placeName place, true, false) := by
  rw [chinesePosition]
  exact if_neg digit

/-- Behind a digit the printer writes what is left, with the zero which is due. -/
theorem foldl_chinesePosition (written : Text) (due pending : Bool)
    (same : value % 10 ^ place ≠ 0 → pending = due) :
    ((positionsFrom place).foldl (chinesePosition value) (written, true, pending)).1 =
      written ++ spellBehind Retrieval.chineseDigit placeName value place due := by
  induction place generalizing written due pending with
  | zero => exact (List.append_nil written).symm
  | succ place inductionHypothesis =>
      rw [positionsFrom, List.foldl_cons, spellBehind]
      rw [mod_succ] at same
      by_cases zero : digitAt value place = 0
      · rw [chinesePosition_of_zero zero, if_pos zero]
        refine inductionHypothesis written true _ fun left => ?_
        rw [decide_eq_true left]
        exact Bool.or_true pending
      · have positive : 0 < digitAt value place * 10 ^ place :=
          Nat.mul_pos (Nat.pos_of_ne_zero zero) (Nat.pow_pos (by decide))
        have written : ¬ (digitAt value place = 1 ∧ place = 1 ∧ true = false) :=
          fun parts => absurd parts.2.2 (by decide)
        rw [chinesePosition_of_digit zero, if_neg zero, same (by omega)]
        dsimp only
        rw [if_neg written, inductionHypothesis _ false false fun _ => rfl]
        simp [Retrieval.chineseDigit]

/-- Before the first digit nothing is due, and the one of a first ten is left out. -/
theorem foldl_chinesePosition_start :
    ((positionsFrom place).foldl (chinesePosition value) ([], false, false)).1 =
      spell Retrieval.chineseDigit placeName (some 1) value place := by
  induction place with
  | zero => rfl
  | succ place inductionHypothesis =>
      rw [positionsFrom, List.foldl_cons, spell]
      by_cases zero : digitAt value place = 0
      · rw [chinesePosition_of_zero zero, if_pos zero]
        exact inductionHypothesis
      · have ten : (digitAt value place = 1 ∧ place = 1 ∧ false = false) ↔
            (digitAt value place = 1 ∧ some 1 = some place) := by
          rw [Option.some_inj]
          exact and_congr_right fun _ => ⟨fun same => same.1.symm, fun same => ⟨same.symm, rfl⟩⟩
        rw [chinesePosition_of_digit zero, if_neg zero,
          foldl_chinesePosition _ false false fun _ => rfl]
        dsimp only
        rw [if_congr ten rfl rfl]
        simp only [Bool.false_eq_true, if_false, List.nil_append, List.append_assoc]

theorem integerToChinese_eq_chineseSpelling (value : Nat) :
    integerToChinese value = chineseSpelling value := by
  rw [chineseSpelling, ← foldl_chinesePosition_start]
  rfl

end Printer

/-! ## The same numbers -/

section Agreement

variable {number : Nat} {raw : Text}

/-- The characters of a numeral which the paged search accepts. -/
theorem inNumeral_of_parseArticleOrdinal (accepted : parseArticleOrdinal raw = some number) :
    ∀ character ∈ raw, InNumeral character := by
  intro character among
  obtain ⟨_, digits, _⟩ | ⟨positive, small, rfl⟩ := parseArticleOrdinal_eq_some.mp accepted
  · exact .inl (List.all_eq_true.mp digits character among)
  · rw [← chineseNumber_eq_chineseSpelling positive small] at among
    exact .inr ((isChinese_of_small positive small).letters character among)

/-- The first search accepts the numerals of the paged search, up to its bound. -/
theorem parseArticleNumber_of_parseArticleOrdinal
    (accepted : parseArticleOrdinal raw = some number) :
    parseArticleNumber raw = if number ≤ maxArticleOrdinal then some ⟨number, none⟩ else none := by
  have plain (character : Char) (among : character ∈ raw) :=
    (inNumeral_of_parseArticleOrdinal accepted character among).apart
  have kept : Text.trim raw = raw :=
    Text.trimMatches_eq_self fun character among => (plain character among).1
  have unmarked : '之' ∉ raw := fun among => (plain '之' among).2.2.2 rfl
  have noFirst : stripFirst '第' raw = raw := by
    refine if_neg fun first => ?_
    exact (plain '第' (List.mem_of_head? first)).2.1 rfl
  have noLast : stripLast '条' raw = raw := by
    refine if_neg fun last => ?_
    exact (plain '条' (List.mem_of_getLast? last)).2.2.1 rfl
  have white : raw.any Text.isWhitespace = false := by
    rw [List.any_eq_false]
    exact fun character among => by simp [(plain character among).1]
  have component : parseOrdinalComponent raw =
      if number ≤ maxArticleOrdinal then some number else none := by
    rw [parseOrdinalComponent, kept, noFirst, noLast]
    obtain ⟨nonempty, digits, value, positive, small⟩ | ⟨positive, small, same⟩ :=
      parseArticleOrdinal_eq_some.mp accepted
    · rw [if_neg (by simp [nonempty, white]), if_pos digits, checkedU32_eq_some.mpr
        ⟨value.symm ▸ small, value⟩]
      exact if_congr (and_iff_right positive) rfl rfl
    · have letters : raw.all Char.isDigit = false := by
        obtain ⟨first, rest, spelled, letter⟩ := chineseNumber_letter positive small
        rw [same, ← chineseNumber_eq_chineseSpelling positive small, spelled, List.all_cons]
        have none : first.isDigit = false := by
          rw [← Bool.not_eq_true]
          intro digit
          rw [halfWidth_of_isDigit digit, digit] at letter
          cases letter
        rw [none, Bool.false_and]
      have nonempty : raw ≠ [] := by
        rintro rfl
        cases letters
      rw [if_neg (by simp [nonempty, white]), if_neg (by simp [letters]), same,
        parseChineseOrdinal_chineseSpelling positive small]
      exact if_congr (and_iff_right positive) rfl rfl
  rw [parseArticleNumber, kept, splitAtCharacter_eq_none unmarked]
  dsimp only
  rw [component]
  split_ifs
  · rfl
  · rfl

end Agreement

end FirstSearch

end LawyerAssistance.Retrieval

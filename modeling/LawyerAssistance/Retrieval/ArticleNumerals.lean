import LawyerAssistance.Retrieval.Requests
import LawyerAssistance.Std.PlaceNumerals
import Mathlib.Tactic.IntervalCases

/-!
# Numerals of articles

The numbers which the spellings of an article mean. `chinese_number` writes the numeral of what is
left of a number below 100000, and `parse_article_ordinal` accepts the numbers in digits and the
usual Chinese numerals of the numbers below 100000.
-/

namespace LawyerAssistance.Retrieval

open PlaceNumerals

/-! ## What numerals mean -/

/-- The name of a place of a Chinese numeral. -/
def placeName : Nat → Text
  | 1 => ['十']
  | 2 => ['百']
  | 3 => ['千']
  | 4 => ['万']
  | _ => []

/-- A numeral of digits, which may be wide. -/
structure IsDecimal (raw : Text) (number : Nat) : Prop where
  nonempty : raw ≠ []
  digits : ∀ character ∈ raw, (halfWidth character).isDigit = true
  value : parseDecimal (raw.map halfWidth) = number

/-- A Chinese numeral of a number below 100000, well spelled or not. It may start with a ten
without its one. -/
def IsChinese (raw : Text) (number : Nat) : Prop :=
  (raw ≠ [] ∧ Reads chineseDigit placeName 5 raw number) ∨
    ∃ rest value, raw = '十' :: rest ∧ Reads chineseDigit placeName 1 rest value ∧
      number = 10 + value

/-- A numeral means a number. -/
def Denotes (raw : Text) (number : Nat) : Prop := IsDecimal raw number ∨ IsChinese raw number

/-- The usual Chinese numeral of a number below 100000. -/
def chineseSpelling (number : Nat) : Text := spell chineseDigit placeName (some 1) number 5

/-! ## The printer -/

/-- The places of `chinese_number` up to one. -/
def placesFrom : Nat → List (Nat × Char)
  | 0 => []
  | place + 1 => (10 ^ (place + 1), (placeName (place + 1)).headD ' ') :: placesFrom place

section Printer

variable {value place : Nat} {written : Text}

/-- The digit of the ones, as `chinese_number` writes it. -/
def onesDigit (value : Nat) : Text := if 0 < value % 10 then [chineseDigit (value % 10)] else []

theorem onesDigit_eq : onesDigit value = if digitAt value 0 = 0 then []
    else [chineseDigit (digitAt value 0)] := by
  rw [onesDigit, digitAt, pow_zero, Nat.div_one]
  split_ifs with positive zero
  · omega
  · rfl
  · rfl
  · omega

theorem placeName_succ (small : place < 4) :
    placeName (place + 1) = [(placeName (place + 1)).headD ' '] ∧
      (placeName (place + 1)).headD ' ' ≠ '零' := by
  interval_cases place <;> decide

theorem chinesePlace_of_digit {state : Text × Bool} {letter : Char}
    (digit : digitAt value place ≠ 0) : chinesePlace value state (10 ^ place, letter) =
      (state.1 ++ [chineseDigit (digitAt value place), letter], true) := by
  rw [chinesePlace]
  exact if_pos (Nat.pos_of_ne_zero digit)

/-- A place which is left out before the first digit is not seen. -/
theorem chinesePlace_of_not_emitted {letter : Char} (zero : digitAt value place = 0) :
    chinesePlace value (written, false) (10 ^ place, letter) = (written, false) := by
  rw [chinesePlace]
  dsimp only
  rw [if_neg (by rw [← digitAt, zero]; exact Nat.lt_irrefl 0), if_neg (fun parts => Bool.false_ne_true parts.1)]

/-- A place which is left out behind a digit is seen when a digit follows. -/
theorem chinesePlace_of_zero {letter : Char} (zero : digitAt value (place + 1) = 0)
    (plain : written.getLast? ≠ some '零') :
    chinesePlace value (written, true) (10 ^ (place + 1), letter) =
      (written ++ (if digitAt value place ≠ 0 then ['零'] else []), true) := by
  have due : 10 ^ (place + 1) / 10 ≤ value % 10 ^ (place + 1) ↔ digitAt value place ≠ 0 := by
    rw [digitAt_ne_zero_iff, pow_succ, Nat.mul_div_cancel _ (by decide)]
  rw [chinesePlace]
  dsimp only
  rw [if_neg (by rw [← digitAt, zero]; exact Nat.lt_irrefl 0)]
  by_cases follows : digitAt value place ≠ 0
  · rw [if_pos ⟨rfl, due.mpr follows, plain⟩, if_pos follows]
  · rw [if_neg (fun parts => follows (due.mp parts.2.1)), if_neg follows, List.append_nil]

theorem nothing_due {follows : Prop} [Decidable follows] {zero : Text} :
    (if false = true ∧ follows then zero else []) = [] := if_neg fun parts => nomatch parts.1

/-- Behind a digit the printer writes the zero of the places left out as soon as it sees that a
digit follows. -/
theorem foldl_chinesePlace (value : Nat) (small : place ≤ 4) (due : Bool) (written : Text)
    (plain : written.getLast? ≠ some '零') :
    ((placesFrom place).foldl (chinesePlace value) (written ++
        (if due = true ∧ digitAt value place ≠ 0 then ['零'] else []), true)).1 ++
      onesDigit value = written ++ spellBehind chineseDigit placeName value (place + 1) due := by
  induction place generalizing written due with
  | zero =>
      rw [placesFrom, List.foldl_nil, onesDigit_eq, spellBehind]
      by_cases zero : digitAt value 0 = 0
      · simp [zero, spellBehind]
      · cases due <;> simp [zero, placeName, chineseDigit, spellBehind]
  | succ place inductionHypothesis =>
      obtain ⟨letter, plainLetter⟩ := placeName_succ (show place < 4 by omega)
      rw [placesFrom, List.foldl_cons, spellBehind]
      by_cases zero : digitAt value (place + 1) = 0
      · rw [if_neg (fun parts => parts.2 zero), List.append_nil, chinesePlace_of_zero zero plain,
          if_pos zero]
        simpa using inductionHypothesis (by omega) true written plain
      · rw [chinesePlace_of_digit zero, if_neg zero]
        have behind := inductionHypothesis (by omega) false (written ++
          (if due = true ∧ digitAt value (place + 1) ≠ 0 then ['零'] else []) ++
            [chineseDigit (digitAt value (place + 1)), (placeName (place + 1)).headD ' '])
          (by simpa using plainLetter)
        rw [nothing_due, List.append_nil] at behind
        dsimp only
        rw [behind, letter]
        simp [zero, chineseDigit]

/-- Up to the first digit the printer writes nothing. -/
theorem foldl_chinesePlace_start (small : place ≤ 4) :
    ((placesFrom place).foldl (chinesePlace value) ([], false)).1 ++ onesDigit value =
      spell chineseDigit placeName none value (place + 1) := by
  induction place with
  | zero =>
      rw [placesFrom, List.foldl_nil, onesDigit_eq, spell]
      by_cases zero : digitAt value 0 = 0
      · simp [zero, spell]
      · simp [zero, placeName, spellBehind]
  | succ place inductionHypothesis =>
      obtain ⟨letter, plainLetter⟩ := placeName_succ (show place < 4 by omega)
      rw [placesFrom, List.foldl_cons, spell]
      by_cases zero : digitAt value (place + 1) = 0
      · rw [chinesePlace_of_not_emitted zero, if_pos zero]
        exact inductionHypothesis (by omega)
      · rw [chinesePlace_of_digit zero, if_neg zero]
        have behind := foldl_chinesePlace value (show place ≤ 4 by omega) false ([] ++
          [chineseDigit (digitAt value (place + 1)), (placeName (place + 1)).headD ' '])
          (by simpa using plainLetter)
        rw [nothing_due, List.append_nil] at behind
        dsimp only
        rw [behind, letter]
        simp

theorem chineseNumber_eq_spell (large : 20 ≤ value) :
    chineseNumber value = spell chineseDigit placeName none value 5 := by
  rw [chineseNumber, if_neg (by omega), if_neg (by omega)]
  exact foldl_chinesePlace_start (Nat.le_refl 4)

theorem chineseNumber_eq_chineseSpelling (positive : 0 < value) (small : value < 100000) :
    chineseNumber value = chineseSpelling value := by
  by_cases few : value < 20
  · interval_cases value <;> rfl
  · rw [chineseNumber_eq_spell (by omega), chineseSpelling, spell_bare_of_not_first]
    rw [Nat.mod_eq_of_lt (show value < 10 ^ 5 from small)]
    omega

end Printer

/-! ## The accumulator -/

section Accumulator

variable {bound value total «section» pending written : Nat} {raw : Text}

/-- The number of `parse_article_ordinal`, before its spelling is checked. -/
def ordinalValue (raw : Text) : Option Nat := do
  let parts ← raw.foldlM ordinalStep ⟨0, 0, 0⟩
  let number ← checkedU32 (parts.total + parts.section)
  checkedU32 (number + parts.pending)

theorem checkedU32_eq_some {number : Nat} : checkedU32 value = some number ↔
    value < 2 ^ 32 ∧ value = number := by
  rw [checkedU32]
  split_ifs with small
  · rw [Option.some_inj]
    exact (and_iff_right small).symm
  · exact ⟨nofun, fun both => absurd both.1 small⟩

theorem ordinalStep_digit (parts : OrdinalParts) (positive : 0 < written) (small : written < 10) :
    ordinalStep parts (chineseDigit written) = some { parts with pending := written } := by
  interval_cases written <;> rfl

/-- A unit below ten thousand multiplies the pending digit. -/
theorem ordinalStep_unit {place : Nat} (positive : 0 < place) (small : place < 4)
    (digit : 0 < pending) (fits : «section» + pending * 10 ^ place < 2 ^ 32) :
    (placeName place).foldlM ordinalStep ⟨total, «section», pending⟩ =
      some ⟨total, «section» + pending * 10 ^ place, 0⟩ := by
  have product : pending * 10 ^ place < 2 ^ 32 := by omega
  interval_cases place
  all_goals
    simp only [placeName, List.foldlM_cons, List.foldlM_nil, ordinalStep]
    norm_num at product fits ⊢
    rw [if_neg (Nat.ne_of_gt digit), checkedU32_eq_some.mpr ⟨product, rfl⟩]
    dsimp only [Option.bind_some]
    rw [checkedU32_eq_some.mpr ⟨fits, rfl⟩]
    rfl

theorem eq_nil_of_reads_zero (reads : Reads chineseDigit placeName bound raw value)
    (none : bound = 0) : raw = [] ∧ value = 0 := by
  induction reads with
  | nothing => exact ⟨rfl, rfl⟩
  | zero _ positive inductionHypothesis => exact absurd (inductionHypothesis none).2 (by omega)
  | place below => omega

/-- The accumulator adds a numeral below ten thousand to its section. -/
theorem foldlM_ordinalStep (total «section» : Nat)
    (reads : Reads chineseDigit placeName bound raw value) (small : bound ≤ 4) (fits : «section» + value < 2 ^ 32) :
    ∃ parts, raw.foldlM ordinalStep ⟨total, «section», 0⟩ = some parts ∧ parts.total = total ∧
      parts.section + parts.pending = «section» + value := by
  induction reads generalizing «section» with
  | nothing => exact ⟨_, rfl, rfl, rfl⟩
  | zero _ _ inductionHypothesis => exact inductionHypothesis «section» small fits
  | @place bound place written value text below positive digit rest inductionHypothesis =>
      rw [List.foldlM_cons, ordinalStep_digit _ positive digit]
      dsimp only [Option.bind_eq_bind, Option.bind_some]
      rw [List.foldlM_append]
      obtain rfl | unit := Nat.eq_zero_or_pos place
      · obtain ⟨rfl, rfl⟩ := eq_nil_of_reads_zero rest rfl
        exact ⟨_, rfl, rfl, by simp⟩
      · rw [ordinalStep_unit unit (by omega) positive (by omega)]
        obtain ⟨parts, folded, sameTotal, sum⟩ := inductionHypothesis _ (by omega)
          (show «section» + written * 10 ^ place + value < 2 ^ 32 by omega)
        exact ⟨parts, folded, sameTotal, by omega⟩

/-- The accumulator reads a numeral below 100000. -/
theorem foldlM_ordinalStep_whole (reads : Reads chineseDigit placeName bound raw value)
    (small : bound ≤ 5) : ∃ parts, raw.foldlM ordinalStep ⟨0, 0, 0⟩ = some parts ∧
      parts.total + parts.section + parts.pending = value := by
  induction reads with
  | nothing => exact ⟨_, rfl, rfl⟩
  | zero _ _ inductionHypothesis => exact inductionHypothesis small
  | @place bound place written value text below positive digit rest inductionHypothesis =>
      by_cases lower : place < 4
      · have whole : Reads chineseDigit placeName 4
            (chineseDigit written :: (placeName place ++ text)) (written * 10 ^ place + value) :=
          .place lower positive digit rest
        have short := whole.lt
        obtain ⟨parts, folded, sameTotal, sum⟩ := foldlM_ordinalStep 0 0 whole
          (Nat.le_refl 4) (by omega)
        exact ⟨parts, folded, by omega⟩
      · obtain rfl : place = 4 := by omega
        have short := rest.lt
        have tenThousand : (placeName 4).foldlM ordinalStep ⟨0, 0, written⟩ =
            some ⟨written * 10 ^ 4, 0, 0⟩ := by
          interval_cases written <;> rfl
        rw [List.foldlM_cons, ordinalStep_digit _ positive digit]
        dsimp only [Option.bind_eq_bind, Option.bind_some]
        rw [List.foldlM_append, tenThousand]
        obtain ⟨parts, folded, sameTotal, sum⟩ := foldlM_ordinalStep (written * 10 ^ 4) 0
          rest (Nat.le_refl 4) (by omega)
        exact ⟨parts, folded, by omega⟩

/-- A Chinese numeral has the number which it means. -/
theorem ordinalValue_of_isChinese (chinese : IsChinese raw value) :
    ordinalValue raw = some value := by
  have finish (parts : OrdinalParts) (small : value < 2 ^ 32)
      (sum : parts.total + parts.section + parts.pending = value) :
      ((checkedU32 (parts.total + parts.section)).bind fun number =>
        checkedU32 (number + parts.pending)) = some value := by
    rw [checkedU32_eq_some.mpr ⟨by omega, rfl⟩, Option.bind_some]
    exact checkedU32_eq_some.mpr ⟨by omega, sum⟩
  obtain ⟨_, reads⟩ | ⟨rest, ones, rfl, reads, rfl⟩ := chinese
  · have short := reads.lt
    obtain ⟨parts, folded, sum⟩ := foldlM_ordinalStep_whole reads (Nat.le_refl 5)
    rw [ordinalValue, folded]
    exact finish parts (by omega) sum
  · have short := reads.lt
    obtain ⟨parts, folded, sameTotal, sum⟩ := foldlM_ordinalStep 0 10 reads
      (by decide) (by omega)
    have ten : ('十' :: rest).foldlM ordinalStep ⟨0, 0, 0⟩ = some parts := by
      rw [List.foldlM_cons, ← folded]
      rfl
    rw [ordinalValue, ten]
    exact finish parts (by omega) (by omega)

end Accumulator

/-! ## What is accepted -/

section Accepted

variable {value number : Nat} {raw : Text}

theorem isChinese_chineseNumber (large : 20 ≤ value) (some : chineseNumber value ≠ []) :
    IsChinese (chineseNumber value) (value % 100000) := by
  refine .inl ⟨some, ?_⟩
  rw [chineseNumber_eq_spell large]
  exact reads_spell value 5

/-- The numeral of a number which is not zero is not empty, and starts with a letter. -/
theorem chineseNumber_letter (positive : 0 < value) (small : value < 100000) :
    ∃ first rest, chineseNumber value = first :: rest ∧ (halfWidth first).isDigit = false := by
  have letters : ∀ written < 10, (halfWidth (chineseDigit written)).isDigit = false := by decide
  by_cases few : value < 10
  · rw [chineseNumber, if_pos few]
    exact ⟨_, _, rfl, letters value few⟩
  by_cases teens : value < 20
  · rw [chineseNumber, if_neg few, if_pos teens]
    split_ifs
    · exact ⟨_, _, rfl, by decide⟩
    · exact ⟨_, _, rfl, by decide⟩
  rw [chineseNumber_eq_spell (by omega)]
  have left : value % 10 ^ 5 ≠ 0 := by
    rw [Nat.mod_eq_of_lt (show value < 10 ^ 5 from small)]
    omega
  clear small
  generalize 5 = place at left
  induction place with
  | zero => exact absurd (Nat.mod_one value) left
  | succ place inductionHypothesis =>
      rw [mod_succ] at left
      rw [spell]
      by_cases zero : digitAt value place = 0
      · rw [if_pos zero]
        refine inductionHypothesis ?_
        rwa [zero, Nat.zero_mul, Nat.zero_add] at left
      · rw [if_neg zero, if_neg (by simp)]
        exact ⟨_, _, rfl, letters _ (digitAt_lt value place)⟩

/-- The numeral of a number below 100000 means the number. -/
theorem isChinese_of_small (positive : 0 < value) (small : value < 100000) :
    IsChinese (chineseNumber value) value := by
  by_cases few : value < 20
  · by_cases ones : value < 10
    · refine .inl ⟨by rw [chineseNumber, if_pos ones]; exact List.cons_ne_nil _ _, ?_⟩
      have read : Reads chineseDigit placeName 5 [chineseDigit value] (value * 10 ^ 0 + 0) :=
        @Reads.place _ _ _ 5 0 value 0 [] (by decide) positive ones .nothing
      rw [chineseNumber, if_pos ones]
      rwa [pow_zero, Nat.mul_one] at read
    · rw [chineseNumber, if_neg ones, if_pos few]
      split_ifs with ten
      · exact .inr ⟨[], 0, rfl, .nothing, ten⟩
      · have read : Reads chineseDigit placeName 1 [chineseDigit (value % 10)]
            (value % 10 * 10 ^ 0 + 0) :=
          @Reads.place _ _ _ 1 0 (value % 10) 0 [] (by decide) (by omega)
            (Nat.mod_lt _ (by decide)) .nothing
        refine .inr ⟨_, value % 10, rfl, ?_, by omega⟩
        rwa [pow_zero, Nat.mul_one] at read
  · obtain ⟨first, rest, same, _⟩ := chineseNumber_letter positive small
    have whole := isChinese_chineseNumber (Nat.not_lt.mp few) (same ▸ List.cons_ne_nil first rest)
    rwa [Nat.mod_eq_of_lt small] at whole

/-- The characters of Chinese numerals. -/
def numeralLetters : List Char :=
  ['零', '一', '二', '两', '三', '四', '五', '六', '七', '八', '九', '十', '百', '千', '万']

/-- Only the characters of Chinese numerals are accumulated. -/
theorem mem_numeralLetters {parts next : OrdinalParts} {character : Char}
    (stepped : ordinalStep parts character = some next) : character ∈ numeralLetters := by
  rw [ordinalStep.eq_def] at stepped
  dsimp only at stepped
  split at stepped
  all_goals first
    | cases stepped; done
    | simp [numeralLetters]

theorem isDigit_halfWidth_of_ordinalStep {parts next : OrdinalParts} {character : Char}
    (stepped : ordinalStep parts character = some next) :
    (halfWidth character).isDigit = false := by
  have letters : numeralLetters.all (fun letter => !(halfWidth letter).isDigit) = true := by decide
  simpa using List.all_eq_true.mp letters character (mem_numeralLetters stepped)

/-- The characters of what is accumulated. -/
theorem mem_numeralLetters_of_foldlM {parts final : OrdinalParts}
    (folded : raw.foldlM ordinalStep parts = some final) :
    ∀ character ∈ raw, character ∈ numeralLetters := by
  induction raw generalizing parts with
  | nil => exact fun _ => nofun
  | cons first rest inductionHypothesis =>
      rw [List.foldlM_cons] at folded
      obtain ⟨next, stepped, folded⟩ := Option.bind_eq_some_iff.mp folded
      rw [List.forall_mem_cons]
      exact ⟨mem_numeralLetters stepped, inductionHypothesis folded⟩

/-- A Chinese numeral is written with the characters of Chinese numerals. -/
theorem IsChinese.letters (chinese : IsChinese raw value) :
    ∀ character ∈ raw, character ∈ numeralLetters := by
  have summed := ordinalValue_of_isChinese chinese
  rw [ordinalValue] at summed
  obtain ⟨parts, folded, _⟩ := Option.bind_eq_some_iff.mp summed
  exact mem_numeralLetters_of_foldlM folded

/-- A character of numerals. -/
def InNumeral (character : Char) : Prop :=
  character.isDigit = true ∨ character ∈ numeralLetters

/-- The characters of numerals are none of those which stand around a numeral. -/
theorem InNumeral.apart {character : Char} (inNumeral : InNumeral character) :
    Text.isWhitespace character = false ∧ character ≠ '第' ∧ character ≠ '条' ∧
      character ≠ '之' := by
  obtain digit | among := inNumeral
  · rw [Char.isDigit, Bool.and_eq_true, decide_eq_true_eq, decide_eq_true_eq] at digit
    have least : 48 ≤ character.toNat := digit.1
    have most : character.toNat ≤ 57 := digit.2
    refine ⟨?_, ?_, ?_, ?_⟩
    · simp only [Text.isWhitespace, Bool.or_eq_false_iff, Bool.and_eq_false_iff,
        decide_eq_false_iff_not, beq_eq_false_iff_ne]
      omega
    · rintro rfl
      exact absurd most (by decide)
    · rintro rfl
      exact absurd most (by decide)
    · rintro rfl
      exact absurd most (by decide)
  · have letters : numeralLetters.all (fun character => !Text.isWhitespace character &&
        (character != '第' && (character != '条' && character != '之'))) = true := by decide
    simpa using List.all_eq_true.mp letters character among

/-- A text means one number at most. -/
theorem Denotes.unique {other : Nat} (denotes : Denotes raw value) (denotes' : Denotes raw other) :
    value = other := by
  have apart {number : Nat} (decimal : IsDecimal raw number) : ordinalValue raw = none := by
    obtain ⟨first, rest, rfl⟩ := List.exists_cons_of_ne_nil decimal.nonempty
    have digit := decimal.digits first List.mem_cons_self
    cases stepped : ordinalStep ⟨0, 0, 0⟩ first with
    | some next =>
        rw [isDigit_halfWidth_of_ordinalStep stepped] at digit
        cases digit
    | none =>
        rw [ordinalValue, List.foldlM_cons, stepped]
        rfl
  obtain decimal | chinese := denotes
  · obtain decimal' | chinese' := denotes'
    · exact decimal.value.symm.trans decimal'.value
    · have none := (ordinalValue_of_isChinese chinese').symm.trans (apart decimal)
      cases none
  · obtain decimal' | chinese' := denotes'
    · have none := (ordinalValue_of_isChinese chinese).symm.trans (apart decimal')
      cases none
    · exact Option.some.inj ((ordinalValue_of_isChinese chinese).symm.trans
        (ordinalValue_of_isChinese chinese'))

/-- A text without digits is accumulated, and accepted when it is the numeral of its number. -/
theorem parseArticleOrdinal_of_letters (letters : raw.all Char.isDigit = false) :
    parseArticleOrdinal raw = some number ↔
      ordinalValue raw = some number ∧ 0 < number ∧ chineseNumber number = raw := by
  have parts : parseArticleOrdinal raw = (ordinalValue raw).bind fun number =>
      if 0 < number ∧ chineseNumber number = raw then some number else none := by
    rw [parseArticleOrdinal, if_neg (by rw [letters]; exact Bool.false_ne_true), ordinalValue]
    cases raw.foldlM ordinalStep ⟨0, 0, 0⟩ with
    | none => rfl
    | some parts =>
        dsimp only [Option.bind_eq_bind, Option.bind_some]
        cases checkedU32 (parts.total + parts.section) with
        | none => rfl
        | some partial_ => rfl
  rw [parts, Option.bind_eq_some_iff]
  constructor
  · rintro ⟨found, same, spelled⟩
    split_ifs at spelled with canonical
    cases spelled
    exact ⟨same, canonical⟩
  · rintro ⟨same, canonical⟩
    exact ⟨number, same, if_pos canonical⟩

theorem halfWidth_of_isDigit {character : Char} (digit : character.isDigit = true) :
    halfWidth character = character := by
  rw [Char.isDigit, Bool.and_eq_true, decide_eq_true_eq, decide_eq_true_eq] at digit
  have least : 48 ≤ character.toNat := digit.1
  have most : character.toNat ≤ 57 := digit.2
  rw [halfWidth, if_neg (by omega), if_neg (by omega)]

/-- What is accepted: digits of a number of 32 bits, and the usual Chinese numerals. -/
theorem parseArticleOrdinal_eq_some : parseArticleOrdinal raw = some number ↔
    (raw ≠ [] ∧ raw.all Char.isDigit = true ∧ parseDecimal raw = number ∧ 0 < number ∧
        number < 2 ^ 32) ∨
      (0 < number ∧ number < 100000 ∧ raw = chineseSpelling number) := by
  have spelled : (0 < number ∧ number < 100000 ∧ raw = chineseSpelling number) ↔
      (0 < number ∧ number < 100000 ∧ raw = chineseNumber number) :=
    and_congr_right fun positive => and_congr_right fun small => by
      rw [chineseNumber_eq_chineseSpelling positive small]
  rw [spelled]
  cases digits : raw.all Char.isDigit with
  | true =>
      have noSpelling : ¬ (0 < number ∧ number < 100000 ∧ raw = chineseNumber number) := by
        rintro ⟨positive, small, rfl⟩
        obtain ⟨first, rest, same, letter⟩ := chineseNumber_letter positive small
        have digit := List.all_eq_true.mp digits first (same ▸ List.mem_cons_self)
        rw [halfWidth_of_isDigit digit, digit] at letter
        cases letter
      rw [parseArticleOrdinal, if_pos digits, or_iff_left noSpelling]
      split_ifs with empty
      · exact ⟨nofun, fun parts => absurd empty parts.1⟩
      · rw [Option.filter_eq_some_iff, checkedU32_eq_some, decide_eq_true_eq]
        constructor
        · rintro ⟨⟨small, same⟩, positive⟩
          exact ⟨empty, rfl, same, positive, same ▸ small⟩
        · rintro ⟨_, _, same, positive, small⟩
          exact ⟨⟨same.symm ▸ small, same⟩, positive⟩
  | false =>
      rw [parseArticleOrdinal_of_letters digits]
      constructor
      · rintro ⟨summed, positive, rfl⟩
        refine .inr ⟨positive, ?_, rfl⟩
        by_cases few : number < 20
        · omega
        · have some : chineseNumber number ≠ [] := by
            intro empty
            rw [empty] at digits
            cases digits
          have whole := ordinalValue_of_isChinese (isChinese_chineseNumber (Nat.not_lt.mp few) some)
          rw [summed, Option.some_inj] at whole
          rw [whole]
          exact Nat.mod_lt _ (by decide)
      · rintro (⟨_, all, _⟩ | ⟨positive, small, rfl⟩)
        · cases all
        · exact ⟨ordinalValue_of_isChinese (isChinese_of_small positive small), positive, rfl⟩

end Accepted

end LawyerAssistance.Retrieval

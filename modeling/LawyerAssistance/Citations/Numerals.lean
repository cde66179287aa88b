import LawyerAssistance.Citations.Mentions
import Mathlib.Tactic.IntervalCases

/-!
# The numbers of article numerals

What `normalize_article_number` reads. A well-formed numeral below ten thousand writes every digit
but zero with the unit of its place, from the highest one down, and one zero for the places which
are left out between two digits. The reading of such a numeral, and of ASCII digits, is its number;
the bounds of the type `u32` refuse a text and never change what is read.
-/

namespace LawyerAssistance.Citations

/-! ## Well-formed numerals -/

/-- The letters of a digit. -/
def digitLetters : Nat → List Char
  | 0 => ['零', '〇']
  | 1 => ['一']
  | 2 => ['二', '两']
  | 3 => ['三']
  | 4 => ['四']
  | 5 => ['五']
  | 6 => ['六']
  | 7 => ['七']
  | 8 => ['八']
  | 9 => ['九']
  | _ => []

/-- The unit of a place. -/
def placeUnit : Nat → List Char
  | 1 => ['十']
  | 2 => ['百']
  | 3 => ['千']
  | _ => []

/-- A digit at a place. The one of a ten may be left out. -/
inductive WritesDigit : Nat → Nat → List Char → Prop
  | letter {place digit : Nat} {letter : Char} (positive : 0 < digit)
      (spelled : letter ∈ digitLetters digit) : WritesDigit place digit [letter]
  | bareTen : WritesDigit 1 1 []

/-- What stands for the places which are left out in front of a digit: a zero, if there are any. -/
inductive WritesZero : Bool → List Char → Prop
  | none : WritesZero false []
  | zero {letter : Char} (spelled : letter ∈ digitLetters 0) : WritesZero true [letter]

/-- What a numeral writes behind a digit, of the places below a place, and its number. A zero is
due when a place was left out. -/
inductive WritesBehind : Nat → Bool → List Char → Nat → Prop
  | nothing {due : Bool} : WritesBehind 0 due [] 0
  | leftOut {place value : Nat} {due : Bool} {text : List Char}
      (rest : WritesBehind place true text value) : WritesBehind (place + 1) due text value
  | written {place digit value : Nat} {due : Bool} {zero letters text : List Char}
      (zeros : WritesZero due zero) (first : WritesDigit place digit letters)
      (rest : WritesBehind place false text value) :
      WritesBehind (place + 1) due (zero ++ (letters ++ (placeUnit place ++ text)))
        (digit * 10 ^ place + value)

/-- A well-formed numeral of a number below ten thousand. -/
inductive IsNumeral : List Char → Nat → Prop
  | numeral {place digit value : Nat} {letters text : List Char} (below : place < 4)
      (first : WritesDigit place digit letters) (rest : WritesBehind place false text value) :
      IsNumeral (letters ++ (placeUnit place ++ text)) (digit * 10 ^ place + value)

/-- ASCII digits and their number. -/
structure IsDigits (text : List Char) (number : Nat) : Prop where
  nonempty : text ≠ []
  digits : ∀ character ∈ text, character.isDigit = true
  value : decimalValue text = number

/-- The text without its white space. -/
def compactText (raw : List Char) : List Char :=
  raw.filter fun character => Text.isWhitespace character = false

/-- A spelling of a number, up to white space. -/
def Spells (raw : List Char) (number : Nat) : Prop :=
  IsNumeral (compactText raw) number ∨ IsDigits (compactText raw) number

/-- The numbers of articles. -/
def IsArticleNumber (number : Nat) : Prop := 0 < number ∧ number < 2 ^ 32

instance (number : Nat) : Decidable (IsArticleNumber number) :=
  inferInstanceAs (Decidable (_ ∧ _))

/-! ## Reading without a bound -/

/-- The total and the section of the loop, over all natural numbers. -/
def readUnbounded : Nat × Nat → List Char → Option Nat
  | (total, sectionValue), [] => some (total + sectionValue)
  | (total, sectionValue), character :: rest =>
      match chineseDigit character with
      | some digit => readUnbounded (total, sectionValue * 10 + digit) rest
      | none =>
          match chineseUnit character with
          | some unit =>
              readUnbounded (total + (if sectionValue = 0 then 1 else sectionValue) * unit, 0) rest
          | none => none

/-- What a text says without a bound: the number of its ASCII digits, or the sum of its loop. -/
def unboundedNumber (raw : List Char) : Option Nat :=
  let compact := compactText raw
  if compact = [] then none
  else if compact.all Char.isDigit = true then some (decimalValue compact)
  else readUnbounded (0, 0) compact

section Bounds

variable {total sectionValue number : Nat} {saw : Bool} {text : List Char}

theorem checkedU32_of_le {value : Nat} (large : 2 ^ 32 ≤ value) : checkedU32 value = none :=
  if_neg (Nat.not_lt.mpr large)

theorem checkedU32_bind_add {Result : Type} (value more : Nat) (next : Nat → Option Result) :
    (checkedU32 value).bind (fun checked => (checkedU32 (checked + more)).bind next) =
      (checkedU32 (value + more)).bind next := by
  by_cases fits : value < 2 ^ 32
  · rw [checkedU32, if_pos fits, Option.bind_some]
  · rw [checkedU32_of_le (Nat.not_lt.mp fits), checkedU32_of_le (by omega), Option.bind_none,
      Option.bind_none]

theorem checkedU32_bind_add' {Result : Type} (value more : Nat) (next : Nat → Option Result) :
    (checkedU32 value).bind (fun checked => (checkedU32 (more + checked)).bind next) =
      (checkedU32 (more + value)).bind next := by
  simpa only [Nat.add_comm] using checkedU32_bind_add value more next

theorem chineseUnit_pos {character : Char} {unit : Nat}
    (known : chineseUnit character = some unit) : 0 < unit := by
  unfold chineseUnit at known
  split at known <;> cases known <;> decide

/-- The loop only adds. -/
theorem le_of_readUnbounded (read : readUnbounded (total, sectionValue) text = some number) :
    total ≤ number ∧ sectionValue ≤ number := by
  induction text generalizing total sectionValue with
  | nil =>
      cases read
      exact ⟨Nat.le_add_right _ _, Nat.le_add_left _ _⟩
  | cons character rest inductionHypothesis =>
      rw [readUnbounded] at read
      split at read
      · have larger := inductionHypothesis read
        omega
      · split at read
        · next unit known =>
            have positive := chineseUnit_pos known
            have larger := inductionHypothesis read
            split_ifs at larger with zero
            · omega
            · have most := Nat.le_mul_of_pos_right sectionValue positive
              omega
        · cases read

theorem readUnbounded_bind_eq_none (large : 2 ^ 32 ≤ total ∨ 2 ^ 32 ≤ sectionValue) :
    (readUnbounded (total, sectionValue) text).bind checkedU32 = none := by
  cases read : readUnbounded (total, sectionValue) text with
  | none => rfl
  | some number =>
      have larger := le_of_readUnbounded read
      exact checkedU32_of_le (by omega)

/-- The checked loop ends with the sum of the unbounded one, or refuses it. -/
theorem readNumeral_eq (total sectionValue : Nat) (saw : Bool) (text : List Char) :
    ((readNumeral (total, sectionValue, saw) text).bind fun state =>
        if state.2.2 = false then none else checkedU32 (state.1 + state.2.1)) =
      if saw = false ∧ text = [] then none
      else (readUnbounded (total, sectionValue) text).bind checkedU32 := by
  induction text generalizing total sectionValue saw with
  | nil => cases saw <;> simp [readNumeral, readUnbounded]
  | cons character rest inductionHypothesis =>
      have seen (more nextSection : Nat) :
          ((readNumeral (more, nextSection, true) rest).bind fun state =>
            if state.2.2 = false then none else checkedU32 (state.1 + state.2.1)) =
          (readUnbounded (more, nextSection) rest).bind checkedU32 := by
        rw [inductionHypothesis, if_neg (by simp)]
      rw [if_neg (by simp), readNumeral, readUnbounded]
      cases known : chineseDigit character with
      | some digit =>
          dsimp only
          simp only [Option.bind_eq_bind, checkedU32_bind_add, Option.bind_assoc]
          by_cases fits : sectionValue * 10 + digit < 2 ^ 32
          · rw [checkedU32, if_pos fits, Option.bind_some, seen]
          · rw [checkedU32_of_le (Nat.not_lt.mp fits), Option.bind_none,
              readUnbounded_bind_eq_none (.inr (Nat.not_lt.mp fits))]
      | none =>
          cases chineseUnit character with
          | none => rfl
          | some unit =>
              dsimp only
              simp only [Option.bind_eq_bind, Option.bind_some, checkedU32_bind_add',
                Option.bind_assoc]
              generalize (if sectionValue = 0 then 1 else sectionValue) * unit = scaled
              by_cases fits : total + scaled < 2 ^ 32
              · rw [checkedU32, if_pos fits, Option.bind_some, seen]
              · rw [checkedU32_of_le (Nat.not_lt.mp fits), Option.bind_none,
                  readUnbounded_bind_eq_none (.inl (Nat.not_lt.mp fits))]

/-- A checked number of an article. -/
theorem checkedU32_filter (number : Nat) : (checkedU32 number).filter (fun value => 0 < value) =
    (some number).filter fun number => IsArticleNumber number := by
  rw [checkedU32, Option.filter_some]
  by_cases fits : number < 2 ^ 32
  · rw [if_pos fits, Option.filter_some]
    simp only [IsArticleNumber, fits, and_true]
  · rw [if_neg fits, if_neg (by simpa using fun article => fits article.2)]
    rfl

/-- The number of the loop, when it is one of an article. -/
theorem readNumeral_filter (text : List Char) : (do
      let (total, sectionValue, sawDigit) ← readNumeral (0, 0, false) text
      if sawDigit = false then none
      else (checkedU32 (total + sectionValue)).filter fun number => 0 < number) =
    if text = [] then none
    else (readUnbounded (0, 0) text).filter fun number => IsArticleNumber number := by
  have loop := readNumeral_eq 0 0 false text
  rw [if_congr (and_iff_right rfl) rfl rfl] at loop
  have filtered := congrArg (Option.filter fun number => decide (0 < number)) loop
  calc
    _ = ((readNumeral (0, 0, false) text).bind fun state =>
          if state.2.2 = false then none
          else checkedU32 (state.1 + state.2.1)).filter (fun number => 0 < number) := by
      cases readNumeral (0, 0, false) text with
      | none => rfl
      | some state =>
          dsimp only [Option.bind_eq_bind, Option.bind_some]
          split_ifs <;> rfl
    _ = _ := by
      rw [filtered]
      split_ifs
      · rfl
      · cases readUnbounded (0, 0) text with
        | none => rfl
        | some number => exact checkedU32_filter number

/-- The bounds refuse a text and change nothing else. -/
theorem normalizeArticleNumber_eq (raw : List Char) : normalizeArticleNumber raw =
    (unboundedNumber raw).filter fun number => IsArticleNumber number := by
  have loop := readNumeral_filter (compactText raw)
  rw [normalizeArticleNumber, unboundedNumber]
  dsimp only
  rw [← compactText]
  by_cases empty : compactText raw = []
  · rw [if_pos empty, if_neg (fun digits => digits.1 empty), loop, if_pos empty]
    rfl
  rw [if_neg empty]
  rw [if_neg empty] at loop
  by_cases digits : (compactText raw).all Char.isDigit = true
  · rw [if_pos ⟨empty, digits⟩, if_pos digits, checkedU32_filter]
  · rw [if_neg (fun parts => digits parts.2), if_neg digits, loop]

end Bounds

/-! ## Reading well-formed numerals -/

section Reading

variable {place digit number value total : Nat} {due : Bool} {raw letters text zero : List Char}
  {letter : Char}

theorem digit_lt_ten (spelled : letter ∈ digitLetters digit) : digit < 10 := by
  by_contra large
  obtain ⟨more, rfl⟩ := Nat.exists_eq_add_of_le' (Nat.not_lt.mp large)
  cases spelled

theorem chineseDigit_of_mem (spelled : letter ∈ digitLetters digit) :
    chineseDigit letter = some digit := by
  have small := digit_lt_ten spelled
  have known : ∀ digit < 10, (digitLetters digit).all
      (fun letter => chineseDigit letter = some digit) = true := by decide
  simpa using List.all_eq_true.mp (known digit small) letter spelled

theorem WritesDigit.pos (first : WritesDigit place digit letters) : 0 < digit := by
  cases first with
  | letter positive _ => exact positive
  | bareTen => exact Nat.one_pos

theorem WritesDigit.lt_ten (first : WritesDigit place digit letters) : digit < 10 := by
  cases first with
  | letter _ spelled => exact digit_lt_ten spelled
  | bareTen => decide

/-- A place behind which nothing is left adds less than one of the place above. -/
theorem WritesBehind.lt (behind : WritesBehind place due text value) : value < 10 ^ place := by
  induction behind with
  | nothing => exact Nat.one_pos
  | @leftOut place _ _ _ _ inductionHypothesis =>
      rw [pow_succ]
      omega
  | @written place digit _ _ _ _ _ _ first _ inductionHypothesis =>
      have most : digit * 10 ^ place ≤ 9 * 10 ^ place :=
        Nat.mul_le_mul_right _ (Nat.le_of_lt_succ first.lt_ten)
      rw [pow_succ]
      omega

/-- A well-formed numeral has a positive number below ten thousand. -/
theorem IsNumeral.bounds (numeral : IsNumeral text number) : 0 < number ∧ number < 10000 := by
  cases numeral with
  | @numeral place digit value _ _ below first rest =>
      have one : 1 * 10 ^ place ≤ digit * 10 ^ place := Nat.mul_le_mul_right _ first.pos
      have most : digit * 10 ^ place ≤ 9 * 10 ^ place :=
        Nat.mul_le_mul_right _ (Nat.le_of_lt_succ first.lt_ten)
      have power : 0 < 10 ^ place := Nat.pow_pos (by decide)
      have largest : 10 ^ (place + 1) ≤ 10 ^ 4 := Nat.pow_le_pow_right (by decide) below
      have left := rest.lt
      rw [pow_succ] at largest
      omega

/-- A digit with its unit is added to the total. -/
theorem readUnbounded_unit (below : place + 1 < 4) (first : WritesDigit (place + 1) digit letters) :
    readUnbounded (total, 0) (letters ++ (placeUnit (place + 1) ++ text)) =
      readUnbounded (total + digit * 10 ^ (place + 1), 0) text := by
  have unit : ∃ name, placeUnit (place + 1) = [name] ∧ chineseDigit name = none ∧
      chineseUnit name = some (10 ^ (place + 1)) := by
    have small : place < 3 := Nat.lt_of_succ_lt_succ below
    clear first
    interval_cases place
    · exact ⟨'十', rfl, rfl, rfl⟩
    · exact ⟨'百', rfl, rfl, rfl⟩
    · exact ⟨'千', rfl, rfl, rfl⟩
  obtain ⟨name, placed, noDigit, unit⟩ := unit
  cases first with
  | letter positive spelled =>
      rw [placed, List.singleton_append, List.singleton_append, readUnbounded,
        chineseDigit_of_mem spelled]
      dsimp only
      rw [readUnbounded, noDigit, unit]
      dsimp only
      rw [Nat.zero_mul, Nat.zero_add, if_neg (Nat.ne_of_gt positive)]
  | bareTen =>
      rw [placed, List.nil_append, List.singleton_append, readUnbounded, noDigit, unit]
      rfl

theorem readUnbounded_one (first : WritesDigit 0 digit letters) :
    readUnbounded (total, 0) letters = some (total + digit) := by
  cases first with
  | letter _ spelled =>
      rw [readUnbounded, chineseDigit_of_mem spelled]
      dsimp only
      rw [Nat.zero_mul, Nat.zero_add, readUnbounded]

theorem readUnbounded_zero (zeros : WritesZero due zero) :
    readUnbounded (total, 0) (zero ++ text) = readUnbounded (total, 0) text := by
  cases zeros with
  | none => rfl
  | zero spelled =>
      rw [List.singleton_append, readUnbounded, chineseDigit_of_mem spelled]

/-- A digit with what is behind it is added to the total. -/
theorem readUnbounded_place (below : place < 4) (first : WritesDigit place digit letters)
    (behind : WritesBehind place false text value)
    (rest : ∀ total, readUnbounded (total, 0) text = some (total + value)) :
    readUnbounded (total, 0) (letters ++ (placeUnit place ++ text)) =
      some (total + (digit * 10 ^ place + value)) := by
  cases place with
  | zero =>
      cases behind
      rw [show placeUnit 0 ++ [] = [] from rfl, List.append_nil, readUnbounded_one first, pow_zero,
        Nat.mul_one, Nat.add_zero]
  | succ place => rw [readUnbounded_unit below first, rest, Nat.add_assoc]

/-- What a numeral writes behind a digit is added to the total. -/
theorem readUnbounded_behind (behind : WritesBehind place due text value) (small : place ≤ 4)
    (total : Nat) : readUnbounded (total, 0) text = some (total + value) := by
  induction behind generalizing total with
  | nothing => rfl
  | leftOut _ inductionHypothesis => exact inductionHypothesis (by omega) total
  | written zeros first rest inductionHypothesis =>
      rw [readUnbounded_zero zeros]
      exact readUnbounded_place small first rest (inductionHypothesis (by omega))

/-- A numeral is not one of ASCII digits. -/
theorem IsNumeral.no_digits (numeral : IsNumeral text number) :
    text ≠ [] ∧ text.all Char.isDigit = false := by
  have plain : ∀ digit < 10, (digitLetters digit).all (fun letter => !letter.isDigit) = true := by
    decide
  cases numeral with
  | numeral _ first _ =>
      cases first with
      | letter _ spelled =>
          have letters := List.all_eq_true.mp (plain _ (digit_lt_ten spelled)) _ spelled
          rw [Bool.not_eq_true'] at letters
          exact ⟨List.cons_ne_nil _ _, by rw [List.singleton_append, List.all_cons, letters]; rfl⟩
      | bareTen => exact ⟨List.cons_ne_nil _ _, rfl⟩

/-- A text of ASCII digits is no other numeral, and means its number. -/
theorem unboundedNumber_of_spells (spells : Spells raw number) :
    unboundedNumber raw = some number := by
  rw [unboundedNumber]
  obtain numeral | digits := spells
  · rw [if_neg numeral.no_digits.1, if_neg (by simp [numeral.no_digits.2])]
    generalize compactText raw = compact at numeral
    cases numeral with
    | numeral below first rest =>
        rw [readUnbounded_place below first rest (readUnbounded_behind rest below.le), Nat.zero_add]
  · rw [if_neg digits.nonempty, if_pos (List.all_eq_true.mpr digits.digits), digits.value]

theorem normalizeArticleNumber_of_spells (spells : Spells raw number) :
    normalizeArticleNumber raw = if IsArticleNumber number then some number else none := by
  rw [normalizeArticleNumber_eq, unboundedNumber_of_spells spells, Option.filter_some]
  exact if_congr (decide_eq_true_iff) rfl rfl

end Reading

/-- Numerals of articles are read as the numbers which they mean: a well-formed Chinese numeral
below ten thousand always, and ASCII digits where their number is positive and of the type `u32`,
where others are refused. Two spellings of numbers of articles are read alike exactly when the
numbers are the same, and whatever a text is, the bounds of the type only refuse it. -/
theorem article_numerals_are_read (raw : List Char) :
    (∀ number, IsNumeral (compactText raw) number → normalizeArticleNumber raw = some number) ∧
    (∀ number, IsDigits (compactText raw) number → normalizeArticleNumber raw =
      if IsArticleNumber number then some number else none) ∧
    (∀ other number otherNumber, Spells raw number → Spells other otherNumber →
      IsArticleNumber number → IsArticleNumber otherNumber →
        (normalizeArticleNumber raw = normalizeArticleNumber other ↔ number = otherNumber)) ∧
    normalizeArticleNumber raw =
      (unboundedNumber raw).filter fun number => IsArticleNumber number := by
  refine ⟨fun number numeral => ?_, fun number digits => ?_, ?_, normalizeArticleNumber_eq raw⟩
  · have bounds := numeral.bounds
    rw [normalizeArticleNumber_of_spells (.inl numeral), if_pos ⟨bounds.1, by omega⟩]
  · exact normalizeArticleNumber_of_spells (.inr digits)
  · intro other number otherNumber spells otherSpells article otherArticle
    rw [normalizeArticleNumber_of_spells spells, normalizeArticleNumber_of_spells otherSpells,
      if_pos article, if_pos otherArticle, Option.some_inj]

/-- Two units one behind the other are no numeral. -/
theorem not_isNumeral_ten_ten : ¬ ∃ number, IsNumeral ['十', '十'] number := by
  have noDigit (digit : Nat) : '十' ∉ digitLetters digit := fun spelled =>
    nomatch (show chineseDigit '十' = none from rfl).symm.trans (chineseDigit_of_mem spelled)
  rintro ⟨number, numeral⟩
  generalize shown : ['十', '十'] = text at numeral
  cases numeral with
  | numeral _ first rest =>
      cases first with
      | letter _ spelled =>
          obtain ⟨rfl, _⟩ := List.cons.inj shown
          exact noDigit _ spelled
      | bareTen =>
          obtain ⟨_, behind⟩ := List.cons.inj shown
          cases rest with
          | leftOut rest =>
              cases rest
              cases behind
          | written zeros first _ =>
              cases zeros
              cases first with
              | letter _ spelled =>
                  obtain ⟨rfl, _⟩ := List.cons.inj behind
                  exact noDigit _ spelled

/-- Zero is no number of an article, a number beyond the type is refused, and two tens one behind
the other are given the number of twenty. -/
theorem digits_without_a_number :
    (IsDigits (compactText ['0']) 0 ∧ normalizeArticleNumber ['0'] = none) ∧
    (IsDigits (compactText "4294967296".toList) 4294967296 ∧
      normalizeArticleNumber "4294967296".toList = none) ∧
    (¬ ∃ number, IsNumeral ['十', '十'] number) ∧
    normalizeArticleNumber ['十', '十'] = normalizeArticleNumber ['二', '十'] ∧
    normalizeArticleNumber ['二', '十'] = some 20 := by
  have zero : IsDigits (compactText ['0']) 0 := ⟨by decide, List.all_eq_true.mp rfl, rfl⟩
  have beyond : IsDigits (compactText "4294967296".toList) 4294967296 :=
    ⟨by decide, List.all_eq_true.mp rfl, rfl⟩
  refine ⟨⟨zero, ?_⟩, ⟨beyond, ?_⟩, not_isNumeral_ten_ten, rfl, rfl⟩
  · rw [normalizeArticleNumber_of_spells (.inr zero)]
    exact if_neg fun article => Nat.lt_irrefl 0 article.1
  · rw [normalizeArticleNumber_of_spells (.inr beyond)]
    exact if_neg fun article => Nat.lt_irrefl _ article.2

end LawyerAssistance.Citations

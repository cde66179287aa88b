import LawyerAssistance.Retrieval.Statements
import Mathlib.Tactic.IntervalCases
import Mathlib.Tactic.Linarith
import Mathlib.Tactic.Ring

/-!
# Dates as texts

The statements of the search compare dates as texts. A text which `known_iso_date_predicate` lets
through is a date of the calendar, and of two such texts the one of the later date is the greater
one.
-/

namespace LawyerAssistance.Retrieval

/-! ## The calendar -/

/-- The days of a month. -/
def daysOfMonth (year month : Nat) : Nat :=
  if month = 2 then if year % 400 = 0 ∨ year % 4 = 0 ∧ year % 100 ≠ 0 then 29 else 28
  else if month ∈ [4, 6, 9, 11] then 30 else 31

/-- A date of the calendar. -/
structure CalendarDate where
  year : Nat
  month : Nat
  day : Nat
  inYear : 1 ≤ month ∧ month ≤ 12
  inMonth : 1 ≤ day ∧ day ≤ daysOfMonth year month

/-- The order of the calendar. -/
def CalendarDate.compare (first second : CalendarDate) : Ordering :=
  (Ord.compare first.year second.year).then
    ((Ord.compare first.month second.month).then (Ord.compare first.day second.day))

/-- Digits of a number, as many as a part of a date has. -/
structure IsPart (size : Nat) (digits : Text) (value : Nat) : Prop where
  length : digits.length = size
  isDigit : ∀ digit ∈ digits, digit.isDigit = true
  parsed : parseDecimal digits = value

/-- A text is a date, written `YYYY-MM-DD`. -/
def WritesDate (column : Text) (date : CalendarDate) : Prop :=
  ∃ year month day, column = year ++ '-' :: (month ++ '-' :: day) ∧ IsPart 4 year date.year ∧
    IsPart 2 month date.month ∧ IsPart 2 day date.day

/-! ## Digits -/

section Digits

variable {digit : Char} {digits first second rest rest' : Text} {size value value' : Nat}

/-- The value of a digit. -/
def digitValue (digit : Char) : Nat := digit.toNat - '0'.toNat

theorem digitValue_of_isDigit (isDigit : digit.isDigit = true) :
    digit.toNat = 48 + digitValue digit ∧ digitValue digit < 10 := by
  rw [Char.isDigit, Bool.and_eq_true, decide_eq_true_eq, decide_eq_true_eq] at isDigit
  have least : 48 ≤ digit.toNat := isDigit.1
  have most : digit.toNat ≤ 57 := isDigit.2
  have zero : '0'.toNat = 48 := rfl
  rw [digitValue, zero]
  omega

/-- What was read before the digits counts for what they can hold. -/
theorem foldl_decimal (value : Nat) :
    digits.foldl (fun value digit => value * 10 + (digit.toNat - '0'.toNat)) value =
      value * 10 ^ digits.length + parseDecimal digits := by
  induction digits generalizing value with
  | nil => simp [parseDecimal]
  | cons next digits inductionHypothesis =>
      rw [parseDecimal, List.foldl_cons, List.foldl_cons, inductionHypothesis,
        inductionHypothesis, List.length_cons, pow_succ]
      ring

theorem parseDecimal_cons (digit : Char) (digits : Text) :
    parseDecimal (digit :: digits) = digitValue digit * 10 ^ digits.length + parseDecimal digits := by
  rw [parseDecimal, List.foldl_cons, foldl_decimal, Nat.zero_mul, Nat.zero_add]
  rfl

theorem parseDecimal_lt (isDigit : ∀ digit ∈ digits, digit.isDigit = true) :
    parseDecimal digits < 10 ^ digits.length := by
  induction digits with
  | nil => exact Nat.one_pos
  | cons digit digits inductionHypothesis =>
      rw [List.forall_mem_cons] at isDigit
      have less := inductionHypothesis isDigit.2
      have small := (digitValue_of_isDigit isDigit.1).2
      rw [parseDecimal_cons, List.length_cons, pow_succ]
      nlinarith

/-- The greater first part decides, whatever the second ones are. -/
theorem compare_of_parts {bound high high' low low' : Nat} (less : low < bound)
    (less' : low' < bound) : compare (high * bound + low) (high' * bound + low') =
      (compare high high').then (compare low low') := by
  obtain lower | rfl | greater := Nat.lt_trichotomy high high'
  · rw [Nat.compare_eq_lt.mpr lower, Ordering.lt_then, Nat.compare_eq_lt]
    nlinarith
  · rw [Nat.compare_eq_eq.mpr rfl, Ordering.eq_then]
    obtain lower | rfl | greater := Nat.lt_trichotomy low low'
    · rw [Nat.compare_eq_lt.mpr lower, Nat.compare_eq_lt]
      omega
    · rw [Nat.compare_eq_eq.mpr rfl, Nat.compare_eq_eq.mpr rfl]
    · rw [Nat.compare_eq_gt.mpr greater, Nat.compare_eq_gt]
      omega
  · rw [Nat.compare_eq_gt.mpr greater, Ordering.gt_then, Nat.compare_eq_gt]
    nlinarith

/-- Numbers are compared as what is added to one number. -/
theorem compare_add_left (base : Nat) : compare (base + value) (base + value') =
    compare value value' := by
  obtain lower | rfl | greater := Nat.lt_trichotomy value value'
  · rw [Nat.compare_eq_lt.mpr lower, Nat.compare_eq_lt]
    omega
  · rw [Nat.compare_eq_eq.mpr rfl, Nat.compare_eq_eq.mpr rfl]
  · rw [Nat.compare_eq_gt.mpr greater, Nat.compare_eq_gt]
    omega

/-- Digits are compared as their numbers are. -/
theorem binaryCompare_digits (sameLength : first.length = second.length)
    (isDigit : ∀ digit ∈ first, digit.isDigit = true)
    (isDigit' : ∀ digit ∈ second, digit.isDigit = true) :
    binaryCompare first second = compare (parseDecimal first) (parseDecimal second) := by
  induction first generalizing second with
  | nil =>
      obtain rfl := List.length_eq_zero_iff.mp sameLength.symm
      rfl
  | cons digit first inductionHypothesis =>
      cases second with
      | nil => cases sameLength
      | cons digit' second =>
          have sameLength := Nat.succ.inj sameLength
          rw [List.forall_mem_cons] at isDigit isDigit'
          have code := (digitValue_of_isDigit isDigit.1).1
          have code' := (digitValue_of_isDigit isDigit'.1).1
          have heads : compare digit.toNat digit'.toNat =
              compare (digitValue digit) (digitValue digit') := by
            rw [code, code']
            exact compare_add_left 48
          rw [binaryCompare, heads, inductionHypothesis sameLength isDigit.2 isDigit'.2,
            parseDecimal_cons, parseDecimal_cons, ← sameLength,
            compare_of_parts (parseDecimal_lt isDigit.2)
              (sameLength ▸ parseDecimal_lt isDigit'.2)]

/-- Texts of one length are compared before what follows them. -/
theorem binaryCompare_append (sameLength : first.length = second.length) :
    binaryCompare (first ++ rest) (second ++ rest') =
      (binaryCompare first second).then (binaryCompare rest rest') := by
  induction first generalizing second with
  | nil =>
      obtain rfl := List.length_eq_zero_iff.mp sameLength.symm
      rfl
  | cons character first inductionHypothesis =>
      cases second with
      | nil => cases sameLength
      | cons character' second =>
          rw [List.cons_append, List.cons_append, binaryCompare, binaryCompare,
            inductionHypothesis (Nat.succ.inj sameLength), Ordering.then_assoc]

theorem IsPart.binaryCompare_eq (part : IsPart size first value)
    (part' : IsPart size second value') : binaryCompare first second = compare value value' := by
  rw [← part.parsed, ← part'.parsed]
  exact binaryCompare_digits (part.length.trans part'.length.symm) part.isDigit part'.isDigit

end Digits

/-! ## Dates -/

section Dates

variable {column column' : Text} {date date' : CalendarDate}

/-- Of two dates the later one is the greater text. -/
theorem binaryCompare_dates (writes : WritesDate column date)
    (writes' : WritesDate column' date') :
    binaryCompare column column' = date.compare date' := by
  obtain ⟨year, month, day, rfl, inYear, inMonth, inDay⟩ := writes
  obtain ⟨year', month', day', rfl, inYear', inMonth', inDay'⟩ := writes'
  have dash (first second : Text) :
      binaryCompare ('-' :: first) ('-' :: second) = binaryCompare first second := rfl
  rw [binaryCompare_append (inYear.length.trans inYear'.length.symm), dash,
    binaryCompare_append (inMonth.length.trans inMonth'.length.symm), dash,
    inYear.binaryCompare_eq inYear', inMonth.binaryCompare_eq inMonth',
    inDay.binaryCompare_eq inDay']
  rfl

/-- The days of a month, as the predicate has them. -/
theorem daysOfMonth_eq (year month : Nat) :
    (if month ∈ [1, 3, 5, 7, 8, 10, 12] then 31
      else if month ∈ [4, 6, 9, 11] then 30
      else if month = 2 then
        if year % 400 = 0 ∨ year % 4 = 0 ∧ year % 100 ≠ 0 then 29 else 28
      else 0) = if 1 ≤ month ∧ month ≤ 12 then daysOfMonth year month else 0 := by
  by_cases inYear : 1 ≤ month ∧ month ≤ 12
  · rw [if_pos inYear]
    obtain ⟨least, most⟩ := inYear
    interval_cases month <;> rfl
  · rw [if_neg inYear]
    have other (months : List Nat) (bounded : months.all (fun m => decide (1 ≤ m ∧ m ≤ 12)) = true) :
        month ∉ months := by
      intro among
      exact inYear (of_decide_eq_true (List.all_eq_true.mp bounded month among))
    rw [if_neg (other _ rfl), if_neg (other _ rfl), if_neg]
    rintro rfl
    exact inYear (by decide)

/-- What the predicate asks of a text with dashes. -/
theorem knownIsoDate_dashed {y₁ y₂ y₃ y₄ m₁ m₂ d₁ d₂ : Char} {year month day : Nat}
    (inYear : parseDecimal [y₁, y₂, y₃, y₄] = year) (inMonth : parseDecimal [m₁, m₂] = month)
    (inDay : parseDecimal [d₁, d₂] = day) :
    knownIsoDate ([y₁, y₂, y₃, y₄] ++ '-' :: ([m₁, m₂] ++ '-' :: [d₁, d₂])) =
      ([y₁, y₂, y₃, y₄, m₁, m₂, d₁, d₂].all Char.isDigit &&
        decide (1 ≤ day ∧ day ≤ if 1 ≤ month ∧ month ≤ 12 then daysOfMonth year month else 0)) := by
  rw [← daysOfMonth_eq, ← inYear, ← inMonth, ← inDay]
  rfl

/-- The predicate lets the dates of the calendar through. -/
theorem knownIsoDate_iff : knownIsoDate column = true ↔ ∃ date, WritesDate column date := by
  constructor
  · intro known
    rw [knownIsoDate.eq_def] at known
    split at known
    · next y₁ y₂ y₃ y₄ m₁ m₂ d₁ d₂ =>
        dsimp only at known
        rw [daysOfMonth_eq, Bool.and_eq_true, decide_eq_true_eq, List.all_eq_true] at known
        obtain ⟨digits, positive, bounded⟩ := known
        split_ifs at bounded with inYear
        · have whole : ∀ digit ∈ [y₁, y₂, y₃, y₄] ++ ([m₁, m₂] ++ [d₁, d₂]),
              digit.isDigit = true := digits
          rw [List.forall_mem_append, List.forall_mem_append] at whole
          exact ⟨⟨_, _, _, inYear, positive, bounded⟩, [y₁, y₂, y₃, y₄], [m₁, m₂], [d₁, d₂], rfl,
            ⟨rfl, whole.1, rfl⟩, ⟨rfl, whole.2.1, rfl⟩, ⟨rfl, whole.2.2, rfl⟩⟩
        · omega
    · cases known
  · rintro ⟨date, year, month, day, rfl, inYear, inMonth, inDay⟩
    obtain ⟨y₁, y₂, y₃, y₄, rfl⟩ : ∃ y₁ y₂ y₃ y₄, year = [y₁, y₂, y₃, y₄] := by
      match year, inYear.length with
      | [y₁, y₂, y₃, y₄], _ => exact ⟨y₁, y₂, y₃, y₄, rfl⟩
    obtain ⟨m₁, m₂, rfl⟩ := List.length_eq_two.mp inMonth.length
    obtain ⟨d₁, d₂, rfl⟩ := List.length_eq_two.mp inDay.length
    rw [knownIsoDate_dashed inYear.parsed inMonth.parsed inDay.parsed, if_pos date.inYear,
      Bool.and_eq_true, decide_eq_true_eq, List.all_eq_true]
    refine ⟨fun digit among => ?_, date.inMonth⟩
    have inside : digit ∈ [y₁, y₂, y₃, y₄] ++ ([m₁, m₂] ++ [d₁, d₂]) := among
    rw [List.mem_append, List.mem_append] at inside
    obtain inside | inside | inside := inside
    · exact inYear.isDigit digit inside
    · exact inMonth.isDigit digit inside
    · exact inDay.isDigit digit inside

end Dates

end LawyerAssistance.Retrieval

import Mathlib.Data.Nat.Basic
import Mathlib.Tactic.Ring
import Mathlib.Tactic.SplitIfs

/-!
# Numerals with named places

A decimal numeral which names its places: every digit but zero is written with the name of its
place, and places of zero are left out. `Reads` is the number which such a text means, whether or
not it is well spelled. `spell` is the usual spelling, in which one zero stands for the places left
out between two digits.
-/

namespace LawyerAssistance.PlaceNumerals

universe u

variable {α : Type u} (digit : Nat → α) (name : Nat → List α)

/-- A numeral whose places are below a place, with its number. A zero stands in front of a digit
only. -/
inductive Reads : Nat → List α → Nat → Prop
  | nothing {bound : Nat} : Reads bound [] 0
  | zero {bound : Nat} {text : List α} {value : Nat} (rest : Reads bound text value)
      (positive : 0 < value) : Reads bound (digit 0 :: text) value
  | place {bound place written value : Nat} {text : List α} (below : place < bound)
      (positive : 0 < written) (small : written < 10) (rest : Reads place text value) :
      Reads bound (digit written :: (name place ++ text)) (written * 10 ^ place + value)

/-- The digit of a number at a place. -/
def digitAt (value place : Nat) : Nat := value / 10 ^ place % 10

/-- What is written behind a digit, of the places below a place. A zero is due when a place was
left out. -/
def spellBehind (value : Nat) : Nat → Bool → List α
  | 0, _ => []
  | place + 1, due =>
      if digitAt value place = 0 then spellBehind value place true
      else (if due then [digit 0] else []) ++
        digit (digitAt value place) :: (name place ++ spellBehind value place false)

/-- The spelling of the places below a place. At the place `bare`, if any, a one which comes first
is not written. -/
def spell (bare : Option Nat) (value : Nat) : Nat → List α
  | 0 => []
  | place + 1 =>
      if digitAt value place = 0 then spell bare value place
      else (if digitAt value place = 1 ∧ bare = some place then []
        else [digit (digitAt value place)]) ++
          (name place ++ spellBehind digit name value place false)

variable {digit name} {bound value : Nat} {text : List α}

theorem mod_succ (value place : Nat) :
    value % 10 ^ (place + 1) = digitAt value place * 10 ^ place + value % 10 ^ place := by
  rw [pow_succ, Nat.mod_mul, digitAt]
  ring

theorem digitAt_lt (value place : Nat) : digitAt value place < 10 := Nat.mod_lt _ (by decide)

/-- A place is not zero when there is a number from it on. -/
theorem digitAt_ne_zero_iff {place : Nat} :
    digitAt value place ≠ 0 ↔ 10 ^ place ≤ value % 10 ^ (place + 1) := by
  have rest : value % 10 ^ place < 10 ^ place := Nat.mod_lt _ (Nat.pow_pos (by decide))
  rw [mod_succ]
  constructor
  · intro digit
    have one : 1 * 10 ^ place ≤ digitAt value place * 10 ^ place :=
      Nat.mul_le_mul_right _ (Nat.one_le_iff_ne_zero.mpr digit)
    omega
  · intro large zero
    rw [zero] at large
    omega

theorem Reads.mono {more : Nat} (reads : Reads digit name bound text value) (less : bound ≤ more) :
    Reads digit name more text value := by
  induction reads generalizing more with
  | nothing => exact .nothing
  | zero _ positive inductionHypothesis => exact .zero (inductionHypothesis less) positive
  | place below positive small rest => exact .place (below.trans_le less) positive small rest

/-- A number is below the place which bounds its numeral. -/
theorem Reads.lt (reads : Reads digit name bound text value) : value < 10 ^ bound := by
  induction reads with
  | nothing => exact Nat.pow_pos (by decide)
  | zero _ _ inductionHypothesis => exact inductionHypothesis
  | @place bound place written value _ below positive small rest inductionHypothesis =>
      have next : 10 ^ (place + 1) ≤ 10 ^ bound := Nat.pow_le_pow_right (by decide) below
      have most : written * 10 ^ place ≤ 9 * 10 ^ place := Nat.mul_le_mul_right _ (by omega)
      rw [pow_succ] at next
      omega

/-- What is written behind a digit reads as what is left of the number, when no zero is due. When
one is, it is written in front of a digit. -/
theorem reads_spellBehind (value place : Nat) (due : Bool) :
    Reads digit name place (spellBehind digit name value place due) (value % 10 ^ place) := by
  induction place generalizing due with
  | zero =>
      rw [pow_zero, Nat.mod_one]
      exact .nothing
  | succ place inductionHypothesis =>
      rw [spellBehind, mod_succ]
      split_ifs with zero written
      · rw [zero, Nat.zero_mul, Nat.zero_add]
        exact (inductionHypothesis true).mono (Nat.le_succ place)
      · refine .zero (.place (Nat.lt_succ_self place) (Nat.pos_of_ne_zero zero)
          (digitAt_lt value place) (inductionHypothesis false)) ?_
        exact Nat.add_pos_left (Nat.mul_pos (Nat.pos_of_ne_zero zero)
          (Nat.pow_pos (by decide))) _
      · exact .place (Nat.lt_succ_self place) (Nat.pos_of_ne_zero zero) (digitAt_lt value place)
          (inductionHypothesis false)

/-- A spelling with every digit reads as its number. -/
theorem reads_spell (value place : Nat) :
    Reads digit name place (spell digit name none value place) (value % 10 ^ place) := by
  induction place with
  | zero =>
      rw [pow_zero, Nat.mod_one]
      exact .nothing
  | succ place inductionHypothesis =>
      rw [spell, mod_succ]
      split_ifs with zero bare
      · rw [zero, Nat.zero_mul, Nat.zero_add]
        exact inductionHypothesis.mono (Nat.le_succ place)
      · cases bare.2
      · exact .place (Nat.lt_succ_self place) (Nat.pos_of_ne_zero zero) (digitAt_lt value place)
          (reads_spellBehind value place false)

/-- A one is left out only of a number which starts with it. -/
theorem spell_bare_of_not_first {bare place : Nat}
    (other : ¬ (10 ^ bare ≤ value % 10 ^ place ∧ value % 10 ^ place < 2 * 10 ^ bare)) :
    spell digit name (some bare) value place = spell digit name none value place := by
  induction place with
  | zero => rfl
  | succ place inductionHypothesis =>
      have rest : value % 10 ^ place < 10 ^ place := Nat.mod_lt _ (Nat.pow_pos (by decide))
      rw [mod_succ] at other
      rw [spell, spell]
      by_cases zero : digitAt value place = 0
      · rw [zero, Nat.zero_mul, Nat.zero_add] at other
        rw [if_pos zero, if_pos zero, inductionHypothesis other]
      · have written : ¬ (digitAt value place = 1 ∧ some bare = some place) := by
          rintro ⟨one, same⟩
          cases same
          rw [one] at other
          omega
        rw [if_neg zero, if_neg zero, if_neg written, if_neg (fun parts => nomatch parts.2)]

end LawyerAssistance.PlaceNumerals

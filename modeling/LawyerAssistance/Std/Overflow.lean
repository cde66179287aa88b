import LawyerAssistance.Std.Fallible
import Mathlib.Algebra.Order.BigOperators.Group.List
import Mathlib.Algebra.Order.Ring.Int

/-!
# Arithmetic of a fixed width

Additions and subtractions of machine integers, which panic when a result does not fit, or wrap,
as the program was built. Sums of natural numbers and repeated subtractions are exact in both
builds when the exact result fits, and panic in the first exactly when it does not.
-/

namespace LawyerAssistance

universe u v

/-- What an operation does whose result does not fit. -/
inductive Overflow where
  | panics
  | wraps
  deriving DecidableEq

/-- Why a program did not return a result. -/
inductive Fault (ε : Type u) where
  | panicked
  | refused (error : ε)
  deriving DecidableEq

namespace Overflow

variable {ε : Type u}

/-- The sum of two unsigned integers. -/
def add (mode : Overflow) (width first second : Nat) : Except (Fault ε) Nat :=
  if first + second < 2 ^ width then .ok (first + second)
  else
    match mode with
    | .panics => .error .panicked
    | .wraps => .ok ((first + second) % 2 ^ width)

/-- The sum of a list of unsigned integers. -/
def sum (mode : Overflow) (width : Nat) (values : List Nat) : Except (Fault ε) Nat :=
  values.foldlM (mode.add width) 0

/-- The difference of two signed integers. -/
def sub (mode : Overflow) (width : Nat) (first second : Int) : Except (Fault ε) Int :=
  if -2 ^ (width - 1) ≤ first - second ∧ first - second < 2 ^ (width - 1) then
    .ok (first - second)
  else
    match mode with
    | .panics => .error .panicked
    | .wraps => .ok (Int.bmod (first - second) (2 ^ width))

/-- A signed integer from which a list of others is subtracted. -/
def subAll (mode : Overflow) (width : Nat) (start : Int) (values : List Int) :
    Except (Fault ε) Int :=
  values.foldlM (mode.sub width) start

variable {mode : Overflow} {width : Nat}

/-- A sum from a start is exact when it fits. -/
theorem foldlM_add_eq_ok {values : List Nat} {start : Nat}
    (fits : start + values.sum < 2 ^ width) :
    values.foldlM (mode.add width) start = (.ok (start + values.sum) : Except (Fault ε) Nat) := by
  induction values generalizing start with
  | nil => rfl
  | cons value rest inductionHypothesis =>
      rw [List.sum_cons] at fits ⊢
      have here : mode.add width start value = (.ok (start + value) : Except (Fault ε) Nat) :=
        if_pos (by omega)
      rw [List.foldlM_cons, here]
      rw [← Nat.add_assoc] at fits ⊢
      exact inductionHypothesis fits

/-- A sum which does not fit panics. -/
theorem foldlM_add_panics {values : List Nat} {start : Nat} (small : start < 2 ^ width)
    (large : 2 ^ width ≤ start + values.sum) :
    values.foldlM (panics.add width) start = (.error .panicked : Except (Fault ε) Nat) := by
  induction values generalizing start with
  | nil =>
      rw [List.sum_nil] at large
      omega
  | cons value rest inductionHypothesis =>
      rw [List.sum_cons, ← Nat.add_assoc] at large
      rw [List.foldlM_cons, add]
      split_ifs with fits
      · exact inductionHypothesis fits large
      · rfl

theorem sum_eq_ok {values : List Nat} (fits : values.sum < 2 ^ width) :
    mode.sum width values = (.ok values.sum : Except (Fault ε) Nat) := by
  rw [sum, foldlM_add_eq_ok (by rw [Nat.zero_add]; exact fits), Nat.zero_add]

theorem sum_panics {values : List Nat} (large : 2 ^ width ≤ values.sum) :
    panics.sum width values = (.error .panicked : Except (Fault ε) Nat) :=
  foldlM_add_panics (Nat.two_pow_pos width) (by rw [Nat.zero_add]; exact large)

/-- Subtractions of what is not negative are exact when the result fits. -/
theorem subAll_eq_ok {values : List Int} {start : Int} (counted : ∀ value ∈ values, 0 ≤ value)
    (small : start < 2 ^ (width - 1)) (fits : -2 ^ (width - 1) ≤ start - values.sum) :
    mode.subAll width start values = (.ok (start - values.sum) : Except (Fault ε) Int) := by
  induction values generalizing start with
  | nil => rw [List.sum_nil, sub_zero]; rfl
  | cons value rest inductionHypothesis =>
      rw [List.forall_mem_cons] at counted
      have others := List.sum_nonneg counted.2
      have first := counted.1
      rw [List.sum_cons, ← sub_sub] at fits ⊢
      have here : mode.sub width start value = (.ok (start - value) : Except (Fault ε) Int) :=
        if_pos (by omega)
      rw [subAll, List.foldlM_cons, here]
      exact inductionHypothesis counted.2 (by omega) fits

/-- Subtractions of what is not negative panic when the result does not fit. -/
theorem subAll_panics {values : List Int} {start : Int} (counted : ∀ value ∈ values, 0 ≤ value)
    (small : start < 2 ^ (width - 1)) (inside : -2 ^ (width - 1) ≤ start)
    (large : start - values.sum < -2 ^ (width - 1)) :
    panics.subAll width start values = (.error .panicked : Except (Fault ε) Int) := by
  induction values generalizing start with
  | nil =>
      rw [List.sum_nil, sub_zero] at large
      omega
  | cons value rest inductionHypothesis =>
      rw [List.forall_mem_cons] at counted
      have first := counted.1
      rw [List.sum_cons, ← sub_sub] at large
      rw [subAll, List.foldlM_cons, Overflow.sub]
      split_ifs with fits
      · exact inductionHypothesis counted.2 (by omega) fits.1 large
      · rfl

end Overflow

end LawyerAssistance

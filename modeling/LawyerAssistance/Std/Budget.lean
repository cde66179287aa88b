import Mathlib.Algebra.Group.Int.Defs
import Mathlib.Algebra.GroupWithZero.Nat
import Mathlib.Data.List.Infix

/-!
# Lists under a budget

The items of a list have weights. `takeWithin` takes items from the front as long as their weights
fit a budget: it is the longest start of the list which does. `IsLongestEnd` says which end of the
list is the longest that fits.
-/

namespace LawyerAssistance.Budget

universe u

variable {α : Type u} (weight : α → Nat)

/-- The weight of a list. -/
def total (items : List α) : Nat := (items.map weight).sum

/-- The items from the front which fit a budget. -/
@[grind =] def takeWithin (budget : Nat) : List α → List α
  | [] => []
  | item :: rest =>
      if weight item ≤ budget then item :: takeWithin (budget - weight item) rest else []

variable {weight} {budget : Nat} {items part : List α}

@[simp] theorem total_nil : total weight [] = 0 := rfl

@[simp] theorem total_cons (item : α) (rest : List α) :
    total weight (item :: rest) = weight item + total weight rest := rfl

theorem total_append (first second : List α) :
    total weight (first ++ second) = total weight first + total weight second := by
  simp [total]

theorem total_reverse (items : List α) : total weight items.reverse = total weight items := by
  rw [total, List.map_reverse, List.sum_reverse, total]

theorem total_le_of_starts (starts : part <+: items) : total weight part ≤ total weight items := by
  obtain ⟨rest, rfl⟩ := starts
  rw [total_append]
  exact Nat.le_add_right _ _

theorem takeWithin_starts (budget : Nat) (items : List α) :
    takeWithin weight budget items <+: items := by
  induction items generalizing budget with
  | nil => exact List.prefix_refl _
  | cons item rest inductionHypothesis =>
      rw [takeWithin]
      split_ifs
      · exact (List.prefix_cons_inj item).mpr (inductionHypothesis _)
      · exact List.nil_prefix

theorem total_takeWithin_le (budget : Nat) (items : List α) :
    total weight (takeWithin weight budget items) ≤ budget := by
  induction items generalizing budget with
  | nil => exact Nat.zero_le _
  | cons item rest inductionHypothesis =>
      rw [takeWithin]
      split_ifs with fits
      · have bounded := inductionHypothesis (budget - weight item)
        rw [total_cons]
        omega
      · exact Nat.zero_le _

/-- Every start which fits the budget is taken. -/
theorem prefix_takeWithin (starts : part <+: items) (fits : total weight part ≤ budget) :
    part <+: takeWithin weight budget items := by
  induction items generalizing part budget with
  | nil => exact starts
  | cons item rest inductionHypothesis =>
      cases part with
      | nil => exact List.nil_prefix
      | cons first part =>
          obtain ⟨rfl, startsRest⟩ := List.cons_prefix_cons.mp starts
          rw [total_cons] at fits
          rw [takeWithin, if_pos (by omega), List.prefix_cons_inj]
          exact inductionHypothesis startsRest (by omega)

/-- So many items are taken exactly when they fit the budget, and not one more. -/
theorem takeWithin_eq_take_iff {count : Nat} (fewer : count < items.length) :
    takeWithin weight budget items = items.take count ↔
      total weight (items.take count) ≤ budget ∧ budget < total weight (items.take (count + 1)) := by
  constructor
  · intro taken
    have fits := @total_takeWithin_le _ weight budget items
    rw [taken] at fits
    refine ⟨fits, ?_⟩
    by_contra more
    have longer := prefix_takeWithin (List.take_prefix (count + 1) items) (Nat.le_of_not_lt more)
    have length := longer.length_le
    rw [taken, List.length_take, List.length_take] at length
    omega
  · rintro ⟨fits, more⟩
    have shorter := prefix_takeWithin (List.take_prefix count items) fits
    refine (shorter.eq_of_length_le ?_).symm
    by_contra longer
    have starts : items.take (count + 1) <+: takeWithin weight budget items := by
      refine List.prefix_of_prefix_length_le (List.take_prefix _ _)
        (takeWithin_starts budget items) ?_
      rw [List.length_take] at longer ⊢
      omega
    have bounded := (total_le_of_starts starts).trans (total_takeWithin_le budget items)
    omega

/-- A whole list is taken exactly when it fits the budget. -/
theorem takeWithin_eq_self_iff :
    takeWithin weight budget items = items ↔ total weight items ≤ budget := by
  constructor
  · intro taken
    have fits := @total_takeWithin_le _ weight budget items
    rwa [taken] at fits
  · intro fits
    have starts := prefix_takeWithin (List.prefix_refl items) fits
    exact (starts.eq_of_length_le (takeWithin_starts budget items).length_le).symm

/-- The items from the end which fit a budget. -/
def endWithin (weight : α → Nat) (budget : Nat) (items : List α) : List α :=
  (takeWithin weight budget items.reverse).reverse

/-- The end which is kept is the longest one which fits the budget. -/
theorem endWithin_spec (budget : Nat) (items : List α) :
    endWithin weight budget items <:+ items ∧
      total weight (endWithin weight budget items) ≤ budget ∧
      ∀ {part}, part <:+ items → total weight part ≤ budget →
        part <:+ endWithin weight budget items := by
  refine ⟨?_, ?_, fun {part} ends fits => ?_⟩
  · have starts := @takeWithin_starts _ weight budget items.reverse
    rwa [← List.reverse_suffix, List.reverse_reverse] at starts
  · rw [endWithin, total_reverse]
    exact total_takeWithin_le budget _
  · rw [← List.reverse_prefix, endWithin, List.reverse_reverse]
    exact prefix_takeWithin (List.reverse_prefix.mpr ends) (by rwa [total_reverse])

/-- So many items are kept exactly when they fit the budget, and not one more. -/
theorem endWithin_eq_drop_iff {count : Nat} (fewer : count < items.length) :
    endWithin weight budget items = items.drop (items.length - count) ↔
      total weight (items.drop (items.length - count)) ≤ budget ∧
        budget < total weight (items.drop (items.length - (count + 1))) := by
  have reversed : ∀ count, (items.drop (items.length - count)).reverse = items.reverse.take count :=
    fun count => (List.take_reverse ..).symm
  have fewer' : count < items.reverse.length := by rwa [List.length_reverse]
  rw [endWithin, ← List.reverse_inj, List.reverse_reverse, reversed,
    takeWithin_eq_take_iff fewer', ← reversed, ← reversed, total_reverse, total_reverse]

end LawyerAssistance.Budget

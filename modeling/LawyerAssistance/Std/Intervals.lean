import Mathlib.Data.List.Basic
import Mathlib.Data.List.Pairwise

/-!
# Closed intervals of numbers

Items begin at one number and end at another one, both included. Items in order with gaps between
them are determined by the numbers which they cover, and cover an interval exactly when one of them
does.
-/

namespace LawyerAssistance.Intervals

universe u

variable {α : Type u} (start stop : α → Nat)

/-- The numbers which items cover. -/
def Covered (items : List α) (number : Nat) : Prop :=
  ∃ item ∈ items, start item ≤ number ∧ number ≤ stop item

/-- A number between two items is in neither of them. -/
def Gap (first second : α) : Prop := stop first + 1 < start second

/-- Items in order, which are not empty and have gaps between them. -/
structure Separated (items : List α) : Prop where
  ordered : ∀ item ∈ items, start item ≤ stop item
  gaps : items.Pairwise (Gap start stop)

variable {start stop} {items others rest : List α} {first : α} {number : Nat}

@[simp] theorem covered_nil : ¬ Covered start stop [] number := nofun

theorem covered_cons : Covered start stop (first :: rest) number ↔
    (start first ≤ number ∧ number ≤ stop first) ∨ Covered start stop rest number :=
  List.exists_mem_cons_iff _ _ _

theorem covered_congr (same : ∀ item, item ∈ items ↔ item ∈ others) :
    Covered start stop items number ↔ Covered start stop others number := by
  simp only [Covered, same]

namespace Separated

theorem tail (separated : Separated start stop (first :: rest)) : Separated start stop rest :=
  ⟨fun item member => separated.ordered item (List.mem_cons_of_mem _ member),
    (List.pairwise_cons.mp separated.gaps).2⟩

/-- The numbers of the other items are those behind the gap. -/
theorem covered_tail (separated : Separated start stop (first :: rest)) :
    Covered start stop rest number ↔
      Covered start stop (first :: rest) number ∧ stop first + 1 < number := by
  rw [covered_cons]
  constructor
  · rintro ⟨item, member, above, below⟩
    have gap : stop first + 1 < start item := (List.pairwise_cons.mp separated.gaps).1 _ member
    exact ⟨.inr ⟨item, member, above, below⟩, Nat.lt_of_lt_of_le gap above⟩
  · rintro ⟨⟨_, below⟩ | covered, behind⟩
    · omega
    · exact covered

/-- The number behind an item is not covered. -/
theorem not_covered_succ (separated : Separated start stop items) {item : α}
    (member : item ∈ items) : ¬ Covered start stop items (stop item + 1) := by
  induction items with
  | nil => cases member
  | cons head rest inductionHypothesis =>
      have gaps := (List.pairwise_cons.mp separated.gaps).1
      have ordered := separated.ordered
      rw [covered_cons, not_or]
      obtain rfl | member := List.mem_cons.mp member
      · refine ⟨by omega, fun covered => ?_⟩
        have behind := (separated.covered_tail.mp covered).2
        omega
      · have gap : stop head + 1 < start item := gaps item member
        have itemOrdered := ordered item (List.mem_cons_of_mem _ member)
        exact ⟨by omega, inductionHypothesis separated.tail member⟩

/-- The first number which is covered is the start of the first item. -/
theorem start_le (separated : Separated start stop (first :: rest))
    (covered : Covered start stop (first :: rest) number) : start first ≤ number := by
  obtain ⟨above, _⟩ | covered := covered_cons.mp covered
  · exact above
  · have ordered := separated.ordered first List.mem_cons_self
    have behind := (separated.covered_tail.mp covered).2
    omega

/-- An interval is covered exactly when it lies in one item. -/
theorem covers_interval_iff (separated : Separated start stop items) {low high : Nat}
    (nonempty : low ≤ high) :
    (∀ number, low ≤ number → number ≤ high → Covered start stop items number) ↔
      ∃ item ∈ items, start item ≤ low ∧ high ≤ stop item := by
  constructor
  · intro covered
    obtain ⟨item, member, above, below⟩ := covered low (Nat.le_refl _) nonempty
    refine ⟨item, member, above, ?_⟩
    by_contra short
    exact separated.not_covered_succ member (covered (stop item + 1) (by omega) (by omega))
  · rintro ⟨item, member, above, below⟩ number from_ to_
    exact ⟨item, member, Nat.le_trans above from_, Nat.le_trans to_ below⟩

/-- Separated items which cover the same numbers are the same, where the ends determine an item. -/
theorem ext (determined : ∀ {item other : α}, start item = start other → stop item = stop other →
      item = other)
    (separated : Separated start stop items) (separated' : Separated start stop others)
    (same : ∀ number, Covered start stop items number ↔ Covered start stop others number) :
    items = others := by
  have begins {item : α} {rest : List α} (separated : Separated start stop (item :: rest)) :
      Covered start stop (item :: rest) (start item) :=
    covered_cons.mpr (.inl ⟨Nat.le_refl _, separated.ordered item List.mem_cons_self⟩)
  induction items generalizing others with
  | nil =>
      cases others with
      | nil => rfl
      | cons other others => exact absurd ((same _).mpr (begins separated')) covered_nil
  | cons first rest inductionHypothesis =>
      cases others with
      | nil => exact absurd ((same _).mp (begins separated)) covered_nil
      | cons other others =>
          have starts : start first = start other :=
            Nat.le_antisymm (separated.start_le ((same _).mpr (begins separated')))
              (separated'.start_le ((same _).mp (begins separated)))
          have ordered := separated.ordered first List.mem_cons_self
          have ordered' := separated'.ordered other List.mem_cons_self
          have stops : stop first = stop other := by
            -- Behind the item which ends first is a gap, in which the other item has a number.
            obtain less | equal | greater := Nat.lt_trichotomy (stop first) (stop other)
            · refine absurd ((same _).mpr ?_) (separated.not_covered_succ List.mem_cons_self)
              exact covered_cons.mpr (.inl ⟨by omega, less⟩)
            · exact equal
            · refine absurd ((same _).mp ?_) (separated'.not_covered_succ List.mem_cons_self)
              exact covered_cons.mpr (.inl ⟨by omega, greater⟩)
          obtain rfl := determined starts stops
          rw [inductionHypothesis separated.tail separated'.tail fun number => by
            rw [separated.covered_tail, separated'.covered_tail, same]]

end Separated

end LawyerAssistance.Intervals

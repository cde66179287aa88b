import Mathlib.Data.List.Pairwise
import Mathlib.Order.Basic
import Mathlib.Order.Nat

/-!
# Disjoint ranges

A scan from the left keeps an item when it starts behind the items which it has kept. Its choice is
characterised by `Leading`: the items kept are disjoint, each is the longest of those which start
where it starts, and every item starts in one of them.
-/

namespace LawyerAssistance

universe u

section Scan

variable {α : Type u} (start stop : α → Nat)

/-- The items which a scan keeps, behind a position. -/
@[grind =] def disjointFrom : Nat → List α → List α
  | _, [] => []
  | cursor, item :: rest =>
      if start item < cursor then disjointFrom cursor rest
      else item :: disjointFrom (stop item) rest

/-- Two items have a position in common. -/
def Overlap (first second : α) : Prop := start first < stop second ∧ start second < stop first

/-- The order of a scan: by start, the longer first. -/
def Before (first second : α) : Prop :=
  start first < start second ∨ start first = start second ∧ stop second ≤ stop first

/-- Items which are disjoint, longest where they start, and in which all items start. -/
structure Leading (items chosen : List α) : Prop where
  among : ∀ item ∈ chosen, item ∈ items
  disjoint : ∀ first ∈ chosen, ∀ second ∈ chosen, Overlap start stop first second →
    start first = start second
  longest : ∀ first ∈ chosen, ∀ item ∈ items, start item = start first → stop item ≤ stop first
  begins : ∀ item ∈ items, ∃ first ∈ chosen, start first ≤ start item ∧ start item < stop first

/-- A position of an item is in one of the items chosen. -/
def Covers (chosen : List α) (item : α) : Prop :=
  ∀ position, start item ≤ position → position < stop item →
    ∃ first ∈ chosen, start first ≤ position ∧ position < stop first

variable {start stop} {items chosen others : List α} {cursor : Nat} {item : α}

/-- A scan keeps items in their order. -/
theorem disjointFrom_sublist : (disjointFrom start stop cursor items).Sublist items := by
  induction items generalizing cursor with
  | nil => exact List.Sublist.refl _
  | cons item rest inductionHypothesis =>
      rw [disjointFrom]
      split_ifs
      · exact inductionHypothesis.cons item
      · exact inductionHypothesis.cons_cons item

/-- What a scan keeps starts behind its position. -/
theorem le_start_of_mem_disjointFrom (nonempty : ∀ item ∈ items, start item < stop item)
    (kept : item ∈ disjointFrom start stop cursor items) : cursor ≤ start item := by
  induction items generalizing cursor with
  | nil => cases kept
  | cons first rest inductionHypothesis =>
      have nonemptyRest : ∀ item ∈ rest, start item < stop item := fun item among =>
        nonempty item (List.mem_cons_of_mem _ among)
      rw [disjointFrom] at kept
      split_ifs at kept with behind
      · exact inductionHypothesis nonemptyRest kept
      · obtain rfl | kept := List.mem_cons.mp kept
        · exact not_lt.mp behind
        · have later := inductionHypothesis nonemptyRest kept
          have positive := nonempty first List.mem_cons_self
          omega

/-- What a scan keeps is disjoint and in order. -/
theorem pairwise_disjointFrom (nonempty : ∀ item ∈ items, start item < stop item) :
    (disjointFrom start stop cursor items).Pairwise fun first second => stop first ≤ start second := by
  induction items generalizing cursor with
  | nil => exact List.Pairwise.nil
  | cons first rest inductionHypothesis =>
      have nonemptyRest : ∀ item ∈ rest, start item < stop item := fun item among =>
        nonempty item (List.mem_cons_of_mem _ among)
      rw [disjointFrom]
      split_ifs
      · exact inductionHypothesis nonemptyRest
      · exact List.pairwise_cons.mpr ⟨fun _ kept => le_start_of_mem_disjointFrom nonemptyRest kept,
          inductionHypothesis nonemptyRest⟩

/-- An item behind the position starts in one which a scan keeps. -/
theorem exists_begins (nonempty : ∀ item ∈ items, start item < stop item)
    (ordered : items.Pairwise fun first second => start first ≤ start second)
    (among : item ∈ items) (behind : cursor ≤ start item) :
    ∃ first ∈ disjointFrom start stop cursor items,
      start first ≤ start item ∧ start item < stop first := by
  induction items generalizing cursor with
  | nil => cases among
  | cons first rest inductionHypothesis =>
      obtain ⟨below, orderedRest⟩ := List.pairwise_cons.mp ordered
      have nonemptyRest : ∀ item ∈ rest, start item < stop item := fun item among =>
        nonempty item (List.mem_cons_of_mem _ among)
      rw [disjointFrom]
      split_ifs with early
      · obtain rfl | among := List.mem_cons.mp among
        · omega
        · exact inductionHypothesis nonemptyRest orderedRest among behind
      · obtain rfl | among := List.mem_cons.mp among
        · exact ⟨item, List.mem_cons_self, le_rfl, nonempty item List.mem_cons_self⟩
        · by_cases inside : start item < stop first
          · exact ⟨first, List.mem_cons_self, below item among, inside⟩
          · obtain ⟨other, kept, begins⟩ := inductionHypothesis nonemptyRest orderedRest among
              (not_lt.mp inside)
            exact ⟨other, List.mem_cons_of_mem _ kept, begins⟩

/-- What a scan keeps is the longest of those which start there. -/
theorem stop_le_of_mem_disjointFrom {first : α}
    (nonempty : ∀ item ∈ items, start item < stop item)
    (ordered : items.Pairwise (Before start stop))
    (kept : first ∈ disjointFrom start stop cursor items) (among : item ∈ items)
    (same : start item = start first) : stop item ≤ stop first := by
  have behind := le_start_of_mem_disjointFrom nonempty kept
  induction items generalizing cursor with
  | nil => cases among
  | cons head rest inductionHypothesis =>
      obtain ⟨below, orderedRest⟩ := List.pairwise_cons.mp ordered
      have nonemptyRest : ∀ item ∈ rest, start item < stop item := fun item among =>
        nonempty item (List.mem_cons_of_mem _ among)
      rw [disjointFrom] at kept
      split_ifs at kept with early
      · obtain rfl | among := List.mem_cons.mp among
        · omega
        · exact inductionHypothesis nonemptyRest orderedRest kept among behind
      · obtain rfl | kept := List.mem_cons.mp kept
        · obtain rfl | among := List.mem_cons.mp among
          · exact le_rfl
          · obtain earlier | ⟨_, longer⟩ := below item among
            · omega
            · exact longer
        · have later := le_start_of_mem_disjointFrom nonemptyRest kept
          obtain rfl | among := List.mem_cons.mp among
          · have positive := nonempty item List.mem_cons_self
            omega
          · exact inductionHypothesis nonemptyRest orderedRest kept among later

theorem Before.start_le {first second : α} (before : Before start stop first second) :
    start first ≤ start second := by
  obtain earlier | ⟨same, _⟩ := before
  · exact earlier.le
  · exact same.le

/-- A scan keeps leading items. -/
theorem leading_disjointFrom (nonempty : ∀ item ∈ items, start item < stop item)
    (ordered : items.Pairwise (Before start stop)) :
    Leading start stop items (disjointFrom start stop 0 items) where
  among := fun _ kept => disjointFrom_sublist.subset kept
  disjoint := by
    intro first keptFirst second keptSecond overlap
    have apart : (disjointFrom start stop 0 items).Pairwise
        fun first second => Overlap start stop first second → start first = start second :=
      (pairwise_disjointFrom nonempty).imp fun apart overlap => absurd overlap.2 (Nat.not_lt.mpr apart)
    have : Std.Symm fun first second =>
        Overlap start stop first second → start first = start second :=
      ⟨fun _ _ same overlap => (same ⟨overlap.2, overlap.1⟩).symm⟩
    exact apart.forall_of_forall (fun _ _ _ => rfl) keptFirst keptSecond overlap
  longest := fun _ kept _ among same => stop_le_of_mem_disjointFrom nonempty ordered kept among same
  begins := fun _ among => exists_begins nonempty (ordered.imp Before.start_le) among (Nat.zero_le _)

theorem Leading.congr (leading : Leading start stop items chosen)
    (same : ∀ item, item ∈ items ↔ item ∈ others) : Leading start stop others chosen where
  among := fun item kept => (same item).mp (leading.among item kept)
  disjoint := leading.disjoint
  longest := fun first kept item among => leading.longest first kept item ((same item).mpr among)
  begins := fun item among => leading.begins item ((same item).mpr among)

/-- Leading items have the same ranges. -/
theorem Leading.exists_same (nonempty : ∀ item ∈ items, start item < stop item)
    (leading : Leading start stop items chosen) (leading' : Leading start stop items others)
    {first : α} (among : first ∈ chosen) :
    ∃ second ∈ others, start second = start first ∧ stop second = stop first := by
  induction place : start first using Nat.strong_induction_on generalizing chosen others first with
  | _ place inductionHypothesis =>
      have member := leading.among first among
      obtain ⟨second, amongOthers, early, inside⟩ := leading'.begins first member
      obtain earlier | same := early.lt_or_eq
      · -- A range which covers the start would be one of both, and is disjoint from the first.
        obtain ⟨third, amongChosen, sameStart, sameStop⟩ :=
          inductionHypothesis (start second) (by omega) leading' leading amongOthers rfl
        have positive := nonempty first member
        have overlap : Overlap start stop third first := ⟨by omega, by omega⟩
        have := leading.disjoint third amongChosen first among overlap
        omega
      · refine ⟨second, amongOthers, by omega, le_antisymm ?_ ?_⟩
        · exact leading.longest first among second (leading'.among second amongOthers) same
        · exact leading'.longest second amongOthers first member same.symm

theorem Leading.covers (nonempty : ∀ item ∈ items, start item < stop item)
    (leading : Leading start stop items chosen) (leading' : Leading start stop items others)
    (covers : Covers start stop chosen item) : Covers start stop others item := by
  intro position behind before
  obtain ⟨first, among, early, late⟩ := covers position behind before
  obtain ⟨second, amongOthers, sameStart, sameStop⟩ := leading.exists_same nonempty leading' among
  exact ⟨second, amongOthers, by omega, by omega⟩

/-- Where two items which overlap lie in one item, every item lies in a leading one. -/
theorem Leading.exists_contains (nonempty : ∀ item ∈ items, start item < stop item)
    (leading : Leading start stop items chosen)
    (nested : ∀ first ∈ items, ∀ second ∈ items, Overlap start stop first second →
      ∃ outer ∈ items, start outer ≤ start first ∧ stop first ≤ stop outer ∧
        start outer ≤ start second ∧ stop second ≤ stop outer)
    (among : item ∈ items) :
    ∃ first ∈ chosen, start first ≤ start item ∧ stop item ≤ stop first := by
  induction place : start item using Nat.strong_induction_on generalizing item with
  | _ place inductionHypothesis =>
      obtain ⟨first, amongChosen, early, inside⟩ := leading.begins item among
      by_cases contained : stop item ≤ stop first
      · exact ⟨first, amongChosen, by omega, contained⟩
      · have positive := nonempty item among
        obtain ⟨outer, amongOuter, left, right, leftItem, rightItem⟩ :=
          nested first (leading.among first amongChosen) item among ⟨by omega, inside⟩
        have apart : start outer ≠ start first := by
          intro same
          have := leading.longest first amongChosen outer amongOuter same
          omega
        obtain ⟨last, amongLast, leftLast, rightLast⟩ :=
          inductionHypothesis (start outer) (by omega) amongOuter rfl
        exact ⟨last, amongLast, by omega, by omega⟩

end Scan

end LawyerAssistance

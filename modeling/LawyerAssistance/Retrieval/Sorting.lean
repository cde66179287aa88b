import LawyerAssistance.Retrieval.Corpus

/-!
# The order of sorted rows

The items of `ORDER BY` compare rows whose keys are of the same kinds. Comparisons of three rows
are chained: what two of them say about neighbours, the third says about the ends.
-/

namespace LawyerAssistance.Retrieval

/-- What the comparisons of neighbours say about the comparison of the ends. -/
def Chained (left right ends : Ordering) : Prop :=
  (left ≠ .gt → right ≠ .gt → ends ≠ .gt) ∧ (left = .lt → right ≠ .gt → ends = .lt) ∧
    (left ≠ .gt → right = .lt → ends = .lt) ∧ (left = .eq → right = .eq → ends = .eq)

instance (left right ends : Ordering) : Decidable (Chained left right ends) :=
  inferInstanceAs (Decidable (_ ∧ _))

namespace Chained

theorem andThen {left right ends left' right' ends' : Ordering} (first : Chained left right ends)
    (second : Chained left' right' ends') :
    Chained (left.then left') (right.then right') (ends.then ends') := by
  revert left right ends left' right' ends'
  decide

theorem reverse {left right ends : Ordering} (chained : Chained left right ends) :
    Chained right left ends := by
  revert left right ends
  decide

theorem ofNat (first second third : Nat) :
    Chained (compare first second) (compare second third) (compare first third) := by
  refine ⟨?_, ?_, ?_, ?_⟩ <;>
    simp only [Nat.compare_ne_gt, Nat.compare_eq_lt, Nat.compare_eq_eq] <;> omega

theorem ofInt (first second third : Int) :
    Chained (compare first second) (compare second third) (compare first third) := by
  refine ⟨?_, ?_, ?_, ?_⟩ <;>
    simp only [Int.compare_ne_gt, Int.compare_eq_lt, Int.compare_eq_eq] <;> omega

end Chained

/-! ## Texts -/

/-- Comparisons of texts are chained. -/
theorem chained_binaryCompare (first second third : Text) :
    Chained (binaryCompare first second) (binaryCompare second third)
      (binaryCompare first third) := by
  induction first generalizing second third with
  | nil =>
      cases second with
      | nil =>
          cases third with
          | nil => decide
          | cons _ _ => exact (by decide : Chained .eq .lt .lt)
      | cons _ _ =>
          cases third with
          | nil => exact (by decide : Chained .lt .gt .eq)
          | cons _ _ => exact ⟨fun _ _ => nofun, fun _ _ => rfl, fun _ _ => rfl, nofun⟩
  | cons character rest inductionHypothesis =>
      cases second with
      | nil =>
          cases third with
          | nil => exact (by decide : Chained .gt .eq .gt)
          | cons _ _ => exact ⟨fun bad => absurd rfl bad, nofun, fun bad => absurd rfl bad, nofun⟩
      | cons character' rest' =>
          cases third with
          | nil => exact ⟨fun _ bad => absurd rfl bad, fun _ bad => absurd rfl bad, nofun, nofun⟩
          | cons character'' rest'' =>
              exact (Chained.ofNat _ _ _).andThen (inductionHypothesis rest' rest'')

/-- Reversed comparisons of texts. -/
theorem binaryCompare_swap (first second : Text) :
    (binaryCompare first second).swap = binaryCompare second first := by
  induction first generalizing second with
  | nil => cases second <;> rfl
  | cons character rest inductionHypothesis =>
      cases second with
      | nil => rfl
      | cons character' rest' =>
          rw [binaryCompare, binaryCompare, Ordering.swap_then, inductionHypothesis,
            Nat.compare_swap]

/-- Texts which compare as equal are the same. -/
theorem eq_of_binaryCompare {first second : Text} (equal : binaryCompare first second = .eq) :
    first = second := by
  induction first generalizing second with
  | nil =>
      cases second with
      | nil => rfl
      | cons _ _ => cases equal
  | cons character rest inductionHypothesis =>
      cases second with
      | nil => cases equal
      | cons character' rest' =>
          rw [binaryCompare, Ordering.then_eq_eq, Nat.compare_eq_eq] at equal
          rw [Char.toNat_inj.mp equal.1, inductionHypothesis equal.2]

/-! ## Keys -/

/-- The kind of an item. -/
def SortKey.kind : SortKey → Nat
  | .ascendingText _ => 0
  | .descendingText _ => 1
  | .ascendingNumber _ => 2
  | .descendingNumber _ => 3

/-- Comparisons of items of one kind are chained. -/
theorem SortKey.chained_compare {first second third : SortKey} (same : first.kind = second.kind)
    (same' : second.kind = third.kind) :
    Chained (first.compare second) (second.compare third) (first.compare third) := by
  cases first <;> cases second <;> cases same <;> cases third <;> cases same'
  · exact chained_binaryCompare _ _ _
  · exact (chained_binaryCompare _ _ _).reverse
  · exact Chained.ofInt _ _ _
  · exact (Chained.ofInt _ _ _).reverse

theorem SortKey.compare_swap (first second : SortKey) :
    (first.compare second).swap = second.compare first := by
  cases first <;> cases second <;> try rfl
  · exact binaryCompare_swap _ _
  · exact binaryCompare_swap _ _
  · exact Int.compare_swap _ _
  · exact Int.compare_swap _ _

/-- Comparisons of keys of the same kinds are chained. -/
theorem chained_compareKeys {first second third : List SortKey}
    (same : first.map SortKey.kind = second.map SortKey.kind)
    (same' : second.map SortKey.kind = third.map SortKey.kind) :
    Chained (compareKeys first second) (compareKeys second third) (compareKeys first third) := by
  induction first generalizing second third with
  | nil =>
      rw [List.map_nil, eq_comm, List.map_eq_nil_iff] at same
      rw [same, List.map_nil, eq_comm, List.map_eq_nil_iff] at same'
      rw [same, same']
      decide
  | cons key rest inductionHypothesis =>
      cases second with
      | nil => cases same
      | cons key' rest' =>
          cases third with
          | nil => cases same'
          | cons key'' rest'' =>
              rw [List.map_cons, List.map_cons, List.cons.injEq] at same same'
              exact (SortKey.chained_compare same.1 same'.1).andThen
                (inductionHypothesis same.2 same'.2)

/-- Reversed comparisons of keys. -/
theorem compareKeys_swap (first second : List SortKey) :
    (compareKeys first second).swap = compareKeys second first := by
  induction first generalizing second with
  | nil => cases second <;> rfl
  | cons key rest inductionHypothesis =>
      cases second with
      | nil => rfl
      | cons key' rest' =>
          rw [compareKeys, compareKeys, Ordering.swap_then, inductionHypothesis,
            SortKey.compare_swap]

section Rows

variable {α : Type} {keys : α → List SortKey} {rows : List α}

theorem perm_orderBy (keys : α → List SortKey) (rows : List α) : (orderBy keys rows).Perm rows :=
  List.perm_insertionSort _ _

/-- Rows with keys of the same kinds are in order. -/
theorem pairwise_orderBy
    (alike : ∀ first second, (keys first).map SortKey.kind = (keys second).map SortKey.kind) :
    (orderBy keys rows).Pairwise fun first second =>
      compareKeys (keys first) (keys second) ≠ .gt := by
  let before (first second : α) : Prop := compareKeys (keys first) (keys second) ≠ .gt
  have total : Std.Total before := by
    refine ⟨fun first second => ?_⟩
    have swapped := compareKeys_swap (keys first) (keys second)
    by_cases behind : compareKeys (keys first) (keys second) = .gt
    · right
      rw [behind] at swapped
      simp [before, ← swapped]
    · exact .inl behind
  have transitive : IsTrans α before :=
    ⟨fun first second third => (chained_compareKeys (alike first second) (alike second third)).1⟩
  exact List.pairwise_insertionSort before rows

end Rows

end LawyerAssistance.Retrieval

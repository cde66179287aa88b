import Mathlib.Data.List.Basic

/-!
# Components of overlapping ranges

Items with a range each, in the order of their starts, are cut into components: an item belongs to
the component before it when it starts before the farthest end of that component.
-/

namespace LawyerAssistance

universe u v

section Spans

variable {α : Type u} {β : Type v} (start stop : α → Nat)

/-- The components of the items behind a component, given in reverse, which reaches `farthest`. -/
def sweep : List α → Nat → List α → List (List α)
  | component, _, [] => [component.reverse]
  | component, farthest, item :: rest =>
      if start item < farthest then sweep (item :: component) (max farthest (stop item)) rest
      else component.reverse :: sweep [item] (stop item) rest

/-- The components of the items. -/
def spans : List α → List (List α)
  | [] => []
  | item :: rest => sweep start stop [item] (stop item) rest

/-- The components are the items in their order. -/
theorem flatten_sweep (component : List α) (farthest : Nat) (items : List α) :
    (sweep start stop component farthest items).flatten = component.reverse ++ items := by
  induction items generalizing component farthest with
  | nil => simp [sweep]
  | cons item rest inductionHypothesis =>
      rw [sweep]
      split_ifs
      · rw [inductionHypothesis, List.reverse_cons, List.append_assoc, List.singleton_append]
      · rw [List.flatten_cons, inductionHypothesis]
        simp

theorem flatten_spans (items : List α) : (spans start stop items).flatten = items := by
  cases items with
  | nil => rfl
  | cons item rest => rw [spans, flatten_sweep]; rfl

variable {start stop}

/-- Components depend on the ranges only. -/
theorem sweep_map (image : β → α) (component : List β) (farthest : Nat) (items : List β) :
    sweep start stop (component.map image) farthest (items.map image) =
      (sweep (start ∘ image) (stop ∘ image) component farthest items).map (List.map image) := by
  induction items generalizing component farthest with
  | nil => simp [sweep]
  | cons item rest inductionHypothesis =>
      rw [List.map_cons, sweep, sweep, Function.comp_apply, Function.comp_apply]
      split_ifs
      · exact inductionHypothesis (item :: component) _
      · rw [List.map_cons, List.map_reverse]
        exact congrArg _ (inductionHypothesis [item] _)

theorem spans_map (image : β → α) (items : List β) :
    spans start stop (items.map image) =
      (spans (start ∘ image) (stop ∘ image) items).map (List.map image) := by
  cases items with
  | nil => rfl
  | cons item rest => exact sweep_map image [item] _ rest

end Spans

end LawyerAssistance

import Mathlib.Data.List.Induction
import Mathlib.Tactic.SplitIfs

/-!
# Histories which are undone and redone

A present value between two stacks: the values before it, and those which were undone. Both
stacks are bounded and drop their oldest value when they are full. `undoTimes_recordAll` is the
law of the history: what was recorded, and not dropped, is undone in the opposite order.
-/

namespace LawyerAssistance

universe u

/-- A value with its past and what was undone, the latest at the end of each. -/
structure History (α : Type u) where
  past : List α
  present : α
  future : List α

namespace History

variable {α : Type u} {limit : Nat}

/-- Push on a stack which holds no more than a limit. -/
def push (limit : Nat) (stack : List α) (value : α) : List α :=
  (if stack.length = limit then stack.drop 1 else stack) ++ [value]

/-- Record a new value. What was undone is discarded. -/
def record (limit : Nat) (history : History α) (next : α) : History α where
  past := push limit history.past history.present
  present := next
  future := []

/-- Go back by one value. -/
def undo (limit : Nat) (history : History α) : Option (History α) :=
  history.past.getLast?.map fun previous =>
    { past := history.past.dropLast, present := previous
      future := push limit history.future history.present }

/-- Go forward by one value. -/
def redo (limit : Nat) (history : History α) : Option (History α) :=
  history.future.getLast?.map fun next =>
    { past := push limit history.past history.present, present := next
      future := history.future.dropLast }

/-- Go back by a number of values. -/
def undoTimes (limit : Nat) : Nat → History α → Option (History α)
  | 0, history => some history
  | count + 1, history => (history.undo limit).bind (undoTimes limit count)

/-- Go forward by a number of values. -/
def redoTimes (limit : Nat) : Nat → History α → Option (History α)
  | 0, history => some history
  | count + 1, history => (history.redo limit).bind (redoTimes limit count)

/-- The values at the end of a stack stay when there is room for one more. -/
theorem suffix_push {stack recent : List α} {value : α} (room : recent.length < limit)
    (ends : recent <:+ stack) : recent ++ [value] <:+ push limit stack value := by
  obtain ⟨kept, rfl⟩ := ends
  rw [push]
  split_ifs with full
  · rw [List.length_append] at full
    obtain ⟨oldest, rest, rfl⟩ := List.exists_cons_of_length_pos (l := kept) (by omega)
    exact ⟨rest, by simp⟩
  · exact ⟨kept, (List.append_assoc kept recent [value]).symm⟩

/-- Going back from a history whose past ends with a value reaches this value. -/
theorem undo_of_past {history : History α} {past : List α} {previous : α}
    (ends : history.past = past ++ [previous]) : history.undo limit =
      some { past, present := previous, future := push limit history.future history.present } := by
  rw [undo, ends, List.getLast?_concat, List.dropLast_concat]
  rfl

/-- Going forward to a history whose future ends with a value reaches this value. -/
theorem redo_of_future {history : History α} {future : List α} {next : α}
    (ends : history.future = future ++ [next]) : history.redo limit =
      some { past := push limit history.past history.present, present := next, future } := by
  rw [redo, ends, List.getLast?_concat, List.dropLast_concat]
  rfl

/-- The present of a history whose past ends with some values, after going back by as many. -/
theorem undoTimes_of_past {history : History α} {past recent : List α} {first : α}
    (ends : history.past ++ [history.present] = past ++ first :: recent) :
    ∃ undone, undoTimes limit recent.length history = some undone ∧ undone.present = first := by
  induction recent using List.reverseRecOn generalizing history with
  | nil =>
      exact ⟨history, rfl, List.singleton_inj.mp (List.append_inj_right' ends rfl)⟩
  | append_singleton recent last inductionHypothesis =>
      have parts : history.past = past ++ first :: recent := by
        rw [← List.cons_append, ← List.append_assoc] at ends
        exact List.append_inj_left' ends rfl
      have nonempty : history.past ≠ [] := by
        rw [parts]
        exact List.append_ne_nil_of_right_ne_nil past (List.cons_ne_nil first recent)
      have split := (List.dropLast_concat_getLast nonempty).symm
      rw [List.length_append, List.length_singleton, undoTimes, undo_of_past split]
      exact inductionHypothesis (split.symm.trans parts)

/-- Values which are recorded one after another. -/
def recordAll (limit : Nat) (history : History α) (values : List α) : History α :=
  values.foldl (record limit) history

/-- The past and the present end with what was recorded, behind the values which were recorded
before. -/
theorem suffix_recordAll {history : History α} {values recent : List α}
    (ends : recent <:+ history.past) (few : recent.length + values.length ≤ limit) :
    recent ++ history.present :: values <:+
      (history.recordAll limit values).past ++ [(history.recordAll limit values).present] := by
  induction values generalizing history recent with
  | nil =>
      obtain ⟨kept, past⟩ := ends
      exact ⟨kept, by rw [← List.append_assoc, past]; rfl⟩
  | cons value rest inductionHypothesis =>
      rw [List.length_cons] at few
      have pushed : recent ++ [history.present] <:+ (history.record limit value).past :=
        suffix_push (by omega) ends
      have others := inductionHypothesis pushed (by
        rw [List.length_append, List.length_singleton]
        omega)
      rwa [List.append_assoc] at others

/-- As many values as were recorded are undone, when there was room for them. -/
theorem undoTimes_recordAll (history : History α) {values : List α}
    (few : values.length ≤ limit) : ∃ undone,
      undoTimes limit values.length (history.recordAll limit values) = some undone ∧
        undone.present = history.present := by
  have room : ([] : List α).length + values.length ≤ limit := by
    rwa [List.length_nil, Nat.zero_add]
  obtain ⟨past, ends⟩ := suffix_recordAll (List.nil_suffix (l := history.past)) room
  exact undoTimes_of_past ends.symm

/-- The present of a history whose future ends with some values, after going forward by as many. -/
theorem redoTimes_of_future {history : History α} {future recent : List α} {first : α}
    (ends : history.future ++ [history.present] = future ++ first :: recent) :
    ∃ redone, redoTimes limit recent.length history = some redone ∧ redone.present = first := by
  induction recent using List.reverseRecOn generalizing history with
  | nil =>
      exact ⟨history, rfl, List.singleton_inj.mp (List.append_inj_right' ends rfl)⟩
  | append_singleton recent last inductionHypothesis =>
      have parts : history.future = future ++ first :: recent := by
        rw [← List.cons_append, ← List.append_assoc] at ends
        exact List.append_inj_left' ends rfl
      have nonempty : history.future ≠ [] := by
        rw [parts]
        exact List.append_ne_nil_of_right_ne_nil future (List.cons_ne_nil first recent)
      have split := (List.dropLast_concat_getLast nonempty).symm
      rw [List.length_append, List.length_singleton, redoTimes, redo_of_future split]
      exact inductionHypothesis (split.symm.trans parts)

/-- The future and the present end with what was undone, behind the values which were undone
before. -/
theorem suffix_undoTimes {history undone : History α} {count : Nat} {recent : List α}
    (undoes : undoTimes limit count history = some undone) (ends : recent <:+ history.future)
    (few : recent.length + count ≤ limit) : ∃ values, values.length = count ∧
      recent ++ history.present :: values <:+ undone.future ++ [undone.present] := by
  induction count generalizing history recent with
  | zero =>
      obtain rfl := Option.some.inj undoes
      obtain ⟨kept, future⟩ := ends
      exact ⟨[], rfl, kept, by rw [← List.append_assoc, future]⟩
  | succ count inductionHypothesis =>
      obtain ⟨middle, back, undoes⟩ := Option.bind_eq_some_iff.mp undoes
      obtain ⟨previous, _, rfl⟩ := Option.map_eq_some_iff.mp back
      have pushed : recent ++ [history.present] <:+ push limit history.future history.present :=
        suffix_push (by omega) ends
      obtain ⟨values, length, others⟩ := inductionHypothesis undoes pushed (by
        rw [List.length_append, List.length_singleton]
        omega)
      rw [List.append_assoc] at others
      exact ⟨previous :: values, congrArg (· + 1) length, others⟩

/-- As many values as were undone are redone, when there was room for them. -/
theorem redoTimes_undoTimes {history undone : History α} {count : Nat}
    (undoes : undoTimes limit count history = some undone) (few : count ≤ limit) : ∃ redone,
      redoTimes limit count undone = some redone ∧ redone.present = history.present := by
  obtain ⟨values, rfl, future, ends⟩ := suffix_undoTimes undoes (List.nil_suffix) (by
    rwa [List.length_nil, Nat.zero_add])
  exact redoTimes_of_future ends.symm

end History

end LawyerAssistance

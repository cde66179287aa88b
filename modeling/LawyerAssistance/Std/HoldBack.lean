import Mathlib.Data.List.Infix
import Mathlib.Data.Nat.Find

/-!
# Streams which hold a word back

A filter which must never pass any part of a word reads a stream in pieces. It keeps as much of the
end of what it has read as could be the start of the word, and passes the rest. `Guarded` is its
invariant: however the stream goes on, the word occurs only behind what was passed.
-/

namespace LawyerAssistance.HoldBack

universe u

variable {α : Type u} [DecidableEq α] {word pending passed piece text before after : List α}

/-- The length of the longest start of a word, shorter than it, with which a list ends. -/
def held (word pending : List α) : Nat :=
  Nat.findGreatest (fun count => word.take count <:+ pending)
    (min (word.length - 1) pending.length)

/-- What may be passed of a list which waits. -/
def safe (word pending : List α) : List α := pending.take (pending.length - held word pending)

/-- What is kept of a list which waits. -/
def tail (word pending : List α) : List α := pending.drop (pending.length - held word pending)

@[simp] theorem safe_append_tail (word pending : List α) :
    safe word pending ++ tail word pending = pending :=
  List.take_append_drop _ _

theorem held_le (word pending : List α) : held word pending ≤ pending.length :=
  (Nat.findGreatest_le _).trans (Nat.min_le_right _ _)

theorem length_tail (word pending : List α) : (tail word pending).length = held word pending := by
  have bounded := held_le word pending
  rw [tail, List.length_drop]
  omega

theorem le_held {count : Nat} (short : count < word.length) (ends : word.take count <:+ pending) :
    count ≤ held word pending := by
  have length := ends.length_le
  rw [List.length_take, Nat.min_eq_left (Nat.le_of_lt short)] at length
  exact Nat.le_findGreatest (le_min (by omega) length) ends

/-- The word occurs only behind what was passed, however the stream goes on. -/
def Guarded (word passed pending : List α) : Prop :=
  ∀ rest before after, passed ++ pending ++ rest = before ++ word ++ after →
    passed.length ≤ before.length

omit [DecidableEq α] in
theorem guarded_nil (word pending : List α) : Guarded word [] pending :=
  fun _ _ _ _ => Nat.zero_le _

omit [DecidableEq α] in
theorem Guarded.append (guarded : Guarded word passed pending) (piece : List α) :
    Guarded word passed (pending ++ piece) := by
  intro rest before after occurs
  refine guarded (piece ++ rest) before after ?_
  rw [← occurs]
  simp only [List.append_assoc]

omit [DecidableEq α] in
theorem exists_between {first rest other : List α} (same : first ++ rest = before ++ other)
    (short : first.length ≤ before.length) :
    ∃ between, before = first ++ between ∧ rest = between ++ other := by
  have starts : first <+: before ++ other := ⟨rest, same⟩
  obtain ⟨between, rfl⟩ := List.prefix_of_prefix_length_le starts (List.prefix_append _ _) short
  rw [List.append_assoc] at same
  exact ⟨between, rfl, List.append_cancel_left same⟩

omit [DecidableEq α] in
theorem Guarded.infix_pending (guarded : Guarded word passed pending)
    (occurs : word <:+: passed ++ pending) : word <:+: pending := by
  obtain ⟨before, after, cut⟩ := occurs
  have behind := guarded [] before after (by rw [List.append_nil, cut])
  rw [List.append_assoc] at cut
  obtain ⟨front, rfl, rest⟩ := exists_between cut.symm behind
  exact ⟨front, after, by rw [List.append_assoc, rest]⟩

/-- What is not held may be passed, as long as the word is not in what waits. -/
theorem Guarded.pass (guarded : Guarded word passed pending) (absent : ¬ word <:+: pending) :
    Guarded word (passed ++ safe word pending) (tail word pending) := by
  intro rest before after occurs
  rw [List.append_assoc passed, safe_append_tail] at occurs
  have behind := guarded rest before after occurs
  rw [List.append_assoc, List.append_assoc] at occurs
  obtain ⟨front, rfl, waits⟩ := exists_between occurs behind
  rw [List.length_append, List.length_append, Nat.add_le_add_iff_left]
  by_contra early
  have length := congrArg List.length (safe_append_tail word pending)
  rw [List.length_append, length_tail] at length
  -- The word would start in what is passed, and end behind what was read or in it.
  obtain ⟨start, whole, begins⟩ := exists_between waits.symm (by omega)
  obtain long | short := le_or_gt word.length start.length
  · obtain ⟨behindWord, rfl, _⟩ := exists_between begins long
    exact absent ⟨front, behindWord, by rw [whole, List.append_assoc]⟩
  · obtain ⟨missing, rfl, _⟩ := exists_between begins.symm (Nat.le_of_lt short)
    have ends : (start ++ missing).take start.length <:+ pending := by
      rw [List.take_left]
      exact ⟨front, whole.symm⟩
    have kept := le_held short ends
    have sizes := congrArg List.length whole
    rw [List.length_append] at sizes
    omega

end LawyerAssistance.HoldBack

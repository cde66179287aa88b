import Mathlib.Data.List.Basic

/-!
# Streams in chunks

A cutter takes the first piece off a buffer when the buffer has a whole one. A stream which comes in
chunks is cut after each of them, and what is left waits for the next one. When more of the stream
does not change what was cut off before it, the pieces are those of the stream as a whole.
-/

namespace LawyerAssistance.Chunks

universe u v

/-- What takes the first piece off a buffer. -/
structure Cutter (α : Type u) (β : Type v) where
  cut : List α → Option (β × List α)
  shorter : ∀ {buffer piece rest}, cut buffer = some (piece, rest) → rest.length < buffer.length

namespace Cutter

variable {α : Type u} {β : Type v} (cutter : Cutter α β)

/-- The pieces of a buffer, and what is left. -/
def drain (buffer : List α) : List β × List α :=
  match _found : cutter.cut buffer with
  | none => ([], buffer)
  | some (piece, rest) =>
      let drained := drain rest
      (piece :: drained.1, drained.2)
termination_by buffer.length
decreasing_by exact cutter.shorter _found

/-- The pieces of the chunks of a stream behind a buffer, and what is left. -/
def feed (buffer : List α) : List (List α) → List β × List α
  | [] => ([], buffer)
  | chunk :: rest =>
      let drained := cutter.drain (buffer ++ chunk)
      let fed := feed drained.2 rest
      (drained.1 ++ fed.1, fed.2)

variable {cutter} {buffer more : List α} {piece : β} {rest : List α}

theorem drain_of_none (uncut : cutter.cut buffer = none) : cutter.drain buffer = ([], buffer) := by
  rw [drain]
  split
  · rfl
  · rename_i found
    rw [uncut] at found
    cases found

theorem drain_of_some (found : cutter.cut buffer = some (piece, rest)) :
    cutter.drain buffer = (piece :: (cutter.drain rest).1, (cutter.drain rest).2) := by
  rw [drain]
  split
  · rename_i uncut
    rw [found] at uncut
    cases uncut
  · rename_i found'
    rw [found] at found'
    cases found'
    rfl

/-- Nothing can be cut off what is left. -/
theorem cut_drain : cutter.cut (cutter.drain buffer).2 = none := by
  induction length : buffer.length using Nat.strongRecOn generalizing buffer with
  | ind size inductionHypothesis =>
      cases found : cutter.cut buffer with
      | none =>
          rw [drain_of_none found]
          exact found
      | some cut =>
          obtain ⟨piece, rest⟩ := cut
          rw [drain_of_some found]
          exact inductionHypothesis rest.length (length ▸ cutter.shorter found) rfl

variable (cutter) in
/-- When more of a stream does not change what is cut off a buffer. -/
structure Settles (settled : List α → List α → Prop) : Prop where
  cut : ∀ {buffer more piece rest}, settled buffer more → cutter.cut buffer = some (piece, rest) →
    cutter.cut (buffer ++ more) = some (piece, rest ++ more)
  behind : ∀ {buffer more piece rest}, settled buffer more →
    cutter.cut buffer = some (piece, rest) → settled rest more

variable {settled : List α → List α → Prop}

/-- The pieces of a stream are those of its first part, and those of what is left of it and the
rest. -/
theorem drain_append (settles : cutter.Settles settled) (here : settled buffer more) :
    cutter.drain (buffer ++ more) =
      ((cutter.drain buffer).1 ++ (cutter.drain ((cutter.drain buffer).2 ++ more)).1,
        (cutter.drain ((cutter.drain buffer).2 ++ more)).2) := by
  induction length : buffer.length using Nat.strongRecOn generalizing buffer with
  | ind size inductionHypothesis =>
      cases found : cutter.cut buffer with
      | none => rw [drain_of_none found, List.nil_append]
      | some cut =>
          obtain ⟨piece, rest⟩ := cut
          have behind := inductionHypothesis rest.length (length ▸ cutter.shorter found)
            (settles.behind here found) rfl
          rw [drain_of_some (settles.cut here found), drain_of_some found, behind]
          rfl

variable (cutter) in
/-- The rest of a stream changes nothing at the end of each of its chunks. -/
def SettlesAt (settled : List α → List α → Prop) (buffer : List α) : List (List α) → Prop
  | [] => True
  | chunk :: rest => settled (buffer ++ chunk) rest.flatten ∧
      SettlesAt settled (cutter.drain (buffer ++ chunk)).2 rest

/-- The pieces of the chunks of a stream are those of the stream, wherever it is split. -/
theorem feed_eq_drain (settles : cutter.Settles settled) {chunks : List (List α)}
    (uncut : cutter.cut buffer = none) (everywhere : cutter.SettlesAt settled buffer chunks) :
    cutter.feed buffer chunks = cutter.drain (buffer ++ chunks.flatten) := by
  induction chunks generalizing buffer with
  | nil => rw [feed, List.flatten_nil, List.append_nil, drain_of_none uncut]
  | cons chunk rest inductionHypothesis =>
      obtain ⟨here, behind⟩ := everywhere
      rw [feed, inductionHypothesis cut_drain behind, List.flatten_cons, ← List.append_assoc,
        drain_append settles here]

end Cutter

end LawyerAssistance.Chunks

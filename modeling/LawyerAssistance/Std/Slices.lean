import LawyerAssistance.Std.Occurrences

/-!
# Slices of a text at byte positions

`slice` is `str::get` with a range of byte positions in the UTF-8 encoding: it exists when both
ends are boundaries of characters. `slice_eq_some` states it with the text before and behind the
slice, so that positions in a part of a text move by the length of what stands before the part.
-/

namespace LawyerAssistance.Text

/-- What stands before and behind a byte position which is a boundary of characters. -/
@[grind =] def splitAtByte : Nat → List Char → Option (List Char × List Char)
  | 0, text => some ([], text)
  | _ + 1, [] => none
  | position + 1, character :: rest =>
      if character.utf8Size ≤ position + 1 then
        (splitAtByte (position + 1 - character.utf8Size) rest).map fun parts =>
          (character :: parts.1, parts.2)
      else none

/-- `str::is_char_boundary`. -/
def isCharBoundary (text : List Char) (position : Nat) : Bool := (splitAtByte position text).isSome

/-- `str::get` with a range. -/
def slice (text : List Char) (start stop : Nat) : Option (List Char) :=
  if start ≤ stop then do
    let (_, rest) ← splitAtByte start text
    let (part, _) ← splitAtByte (stop - start) rest
    some part
  else none

variable {text before after part : List Char} {start stop : Nat}

/-- A text is cut where the first part ends. -/
theorem splitAtByte_append (before after : List Char) :
    splitAtByte (byteLength before) (before ++ after) = some (before, after) := by
  induction before with
  | nil => cases after <;> rfl
  | cons character before inductionHypothesis =>
      have positive : 0 < character.utf8Size := character.utf8Size_pos
      obtain ⟨position, length⟩ : ∃ position,
          byteLength (character :: before) = position + 1 :=
        ⟨byteLength (character :: before) - 1, by rw [byteLength_cons]; omega⟩
      have rest : position + 1 - character.utf8Size = byteLength before := by
        rw [← length, byteLength_cons, Nat.add_sub_cancel_left]
      have fits : character.utf8Size ≤ position + 1 := by
        rw [← length, byteLength_cons]
        exact Nat.le_add_right _ _
      rw [length, List.cons_append, splitAtByte, if_pos fits, rest, inductionHypothesis]
      rfl

/-- A cut is one of the text, at the length of its first part. -/
theorem splitAtByte_eq_some {position : Nat} :
    splitAtByte position text = some (before, after) ↔
      text = before ++ after ∧ position = byteLength before := by
  constructor
  · intro cut
    induction text generalizing position before with
    | nil =>
        cases position with
        | zero =>
            cases cut
            exact ⟨rfl, rfl⟩
        | succ position => cases cut
    | cons character rest inductionHypothesis =>
        cases position with
        | zero =>
            cases cut
            exact ⟨rfl, rfl⟩
        | succ position =>
            rw [splitAtByte] at cut
            split_ifs at cut with fits
            obtain ⟨⟨first, _⟩, cutRest, same⟩ := Option.map_eq_some_iff.mp cut
            cases same
            obtain ⟨rfl, length⟩ := inductionHypothesis cutRest
            refine ⟨rfl, ?_⟩
            dsimp only
            rw [byteLength_cons]
            omega
  · rintro ⟨rfl, rfl⟩
    exact splitAtByte_append before after

/-- A slice stands between what is before and behind it. -/
theorem slice_eq_some : slice text start stop = some part ↔
    ∃ before after, text = before ++ part ++ after ∧ start = byteLength before ∧
      stop = start + byteLength part := by
  rw [slice]
  constructor
  · intro found
    split_ifs at found with ordered
    obtain ⟨⟨before, rest⟩, cut, found⟩ := Option.bind_eq_some_iff.mp found
    obtain ⟨⟨found, after⟩, cutRest, same⟩ := Option.bind_eq_some_iff.mp found
    cases same
    obtain ⟨rfl, rfl⟩ := Iff.mp splitAtByte_eq_some cut
    obtain ⟨rfl, length⟩ := Iff.mp splitAtByte_eq_some cutRest
    exact ⟨before, after, (List.append_assoc _ _ _).symm, rfl, by omega⟩
  · rintro ⟨before, after, rfl, rfl, rfl⟩
    rw [if_pos (Nat.le_add_right _ _), List.append_assoc, splitAtByte_append,
      Nat.add_sub_cancel_left]
    dsimp only [Option.bind_eq_bind, Option.bind_some]
    rw [splitAtByte_append]
    rfl

/-- The ends of a slice are boundaries. -/
theorem isCharBoundary_of_slice (found : slice text start stop = some part) :
    isCharBoundary text start = true ∧ isCharBoundary text stop = true := by
  obtain ⟨before, after, rfl, rfl, rfl⟩ := Iff.mp slice_eq_some found
  refine ⟨?_, ?_⟩
  · rw [isCharBoundary, List.append_assoc, splitAtByte_append]
    rfl
  · rw [isCharBoundary, ← byteLength_append, splitAtByte_append]
    rfl

/-- A boundary cuts the text. -/
theorem isCharBoundary_eq_true {position : Nat} : isCharBoundary text position = true ↔
    ∃ before after, text = before ++ after ∧ position = byteLength before := by
  rw [isCharBoundary, Option.isSome_iff_exists]
  constructor
  · rintro ⟨⟨before, after⟩, cut⟩
    exact ⟨before, after, Iff.mp splitAtByte_eq_some cut⟩
  · rintro ⟨before, after, cut⟩
    exact ⟨(before, after), Iff.mpr splitAtByte_eq_some cut⟩

theorem append_inj_of_byteLength {before' after' : List Char}
    (same : before ++ after = before' ++ after') (place : byteLength before = byteLength before') :
    before = before' ∧ after = after' := by
  have cut := splitAtByte_append before after
  rw [place, same, splitAtByte_append before' after'] at cut
  cases cut
  exact ⟨rfl, rfl⟩

/-- Between two boundaries there is a slice. -/
theorem exists_slice (first : isCharBoundary text start = true)
    (last : isCharBoundary text stop = true) (ordered : start ≤ stop) :
    ∃ part, slice text start stop = some part := by
  obtain ⟨before, after, rfl, rfl⟩ := isCharBoundary_eq_true.mp first
  obtain ⟨before', after', same, rfl⟩ := isCharBoundary_eq_true.mp last
  obtain ⟨part, rfl, rest⟩ | ⟨part, rfl, rest⟩ := List.append_eq_append_iff.mp same
  · refine ⟨part, Iff.mpr slice_eq_some ⟨before, after', ?_, rfl, byteLength_append _ _⟩⟩
    rw [rest, List.append_assoc]
  · -- The cuts are in the other order only when nothing is between them.
    have nothing : part = [] := by
      by_contra something
      have positive := byteLength_pos something
      rw [byteLength_append] at ordered
      omega
    subst nothing
    refine ⟨[], Iff.mpr slice_eq_some ⟨before' ++ [], after, by simp, rfl, by simp⟩⟩

theorem stop_le_of_slice (found : slice text start stop = some part) : stop ≤ byteLength text := by
  obtain ⟨before, after, rfl, rfl, rfl⟩ := Iff.mp slice_eq_some found
  simp only [byteLength_append]
  exact Nat.le_add_right _ _

/-- A slice of a slice is a slice of the text. -/
theorem slice_slice {offset offsetStop : Nat} {inner : List Char}
    (outer : slice text offset offsetStop = some part)
    (found : slice part start stop = some inner) :
    slice text (start + offset) (stop + offset) = some inner := by
  obtain ⟨before, after, rfl, rfl, rfl⟩ := Iff.mp slice_eq_some outer
  obtain ⟨first, last, rfl, rfl, rfl⟩ := Iff.mp slice_eq_some found
  refine Iff.mpr slice_eq_some ⟨before ++ first, last ++ after, by simp, ?_, ?_⟩
  · rw [byteLength_append, Nat.add_comm]
  · omega

theorem mem_of_mem_slice (found : slice text start stop = some part) {character : Char}
    (member : character ∈ part) : character ∈ text := by
  obtain ⟨before, after, rfl, _⟩ := Iff.mp slice_eq_some found
  exact List.mem_append_left _ (List.mem_append_right _ member)

end LawyerAssistance.Text

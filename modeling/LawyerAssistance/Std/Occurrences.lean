import LawyerAssistance.Std.Text

/-!
# Occurrences of a text in a text

`splitFirst` cuts a list at the first occurrence of a needle, and `matchIndices` lists the byte
positions of the occurrences which a scan from the left finds, each one behind the end of the
one before it, as `str::match_indices` does. `matchIndices_eq` connects the two.
-/

namespace LawyerAssistance.Text

universe u

section First

variable {α : Type u} [DecidableEq α]

/-- What stands before and behind the first occurrence of a needle. -/
@[grind =] def splitFirst (needle : List α) : List α → Option (List α × List α)
  | [] => if needle = [] then some ([], []) else none
  | item :: rest =>
      if needle.isPrefixOf (item :: rest) then
        some ([], (item :: rest).drop needle.length)
      else (splitFirst needle rest).map fun parts => (item :: parts.1, parts.2)

/-- A cut is at the first occurrence: no occurrence starts earlier. -/
theorem splitFirst_eq_some {needle text before after : List α}
    (found : splitFirst needle text = some (before, after)) :
    text = before ++ needle ++ after ∧
      ∀ {start rest}, text = start ++ needle ++ rest → before.length ≤ start.length := by
  induction text generalizing before with
  | nil =>
      rw [splitFirst] at found
      split_ifs at found with empty
      cases found
      simp [empty]
  | cons item rest inductionHypothesis =>
      rw [splitFirst] at found
      split_ifs at found with here
      · cases found
        obtain ⟨tail, same⟩ := List.isPrefixOf_iff_prefix.mp here
        refine ⟨?_, fun _ => Nat.zero_le _⟩
        rw [← same]
        simp
      · obtain ⟨⟨before, _⟩, foundRest, same⟩ := Option.map_eq_some_iff.mp found
        cases same
        obtain ⟨cut, earliest⟩ := inductionHypothesis foundRest
        refine ⟨by simp [cut], fun {start behind} other => ?_⟩
        cases start with
        | nil =>
            refine absurd (List.isPrefixOf_iff_prefix.mpr ⟨behind, ?_⟩) here
            simpa using other.symm
        | cons first start =>
            simp only [List.cons_append, List.cons.injEq] at other
            have bounded := earliest other.2
            simpa using bounded

/-- There is no cut exactly when the needle does not occur. -/
theorem splitFirst_eq_none {needle text : List α} :
    splitFirst needle text = none ↔ ¬ needle <:+: text := by
  induction text with
  | nil => simp [splitFirst]
  | cons item rest inductionHypothesis =>
      rw [splitFirst, List.infix_cons_iff]
      split_ifs with here
      · simp [List.isPrefixOf_iff_prefix.mp here]
      · rw [List.isPrefixOf_iff_prefix] at here
        simp [here, inductionHypothesis]

/-- `str::contains`. -/
def contains (text needle : List α) : Bool := (splitFirst needle text).isSome

theorem contains_iff {text needle : List α} : contains text needle = true ↔ needle <:+: text := by
  rw [contains, ← not_iff_not, ← splitFirst_eq_none, Bool.not_eq_true, Option.isSome_eq_false_iff,
    Option.isNone_iff_eq_none]

end First

/-! ## All matches -/

/-- The byte positions of the matches of a needle, of which the next `skip` characters belong to
the one before. -/
@[grind =] def matchIndices (needle : List Char) (offset skip : Nat) : List Char → List Nat
  | [] => if needle = [] then [offset] else []
  | character :: rest =>
      if 0 < skip then matchIndices needle (offset + character.utf8Size) (skip - 1) rest
      else if needle.isPrefixOf (character :: rest) then
        offset :: matchIndices needle (offset + character.utf8Size) (needle.length - 1) rest
      else matchIndices needle (offset + character.utf8Size) 0 rest

variable {needle text : List Char}

/-- The characters of the match before are not scanned. -/
theorem matchIndices_skip (offset : Nat) (first rest : List Char) :
    matchIndices needle offset first.length (first ++ rest) =
      matchIndices needle (offset + byteLength first) 0 rest := by
  induction first generalizing offset with
  | nil => simp
  | cons character first inductionHypothesis =>
      rw [List.cons_append, matchIndices, if_pos (by simp), List.length_cons, Nat.add_sub_cancel,
        inductionHypothesis, byteLength_cons, Nat.add_assoc]

/-- The matches are the first occurrence and the matches behind it. -/
theorem matchIndices_eq (nonempty : needle ≠ []) (offset : Nat) (text : List Char) :
    matchIndices needle offset 0 text =
      match splitFirst needle text with
      | none => []
      | some (before, after) =>
          (offset + byteLength before) ::
            matchIndices needle (offset + byteLength before + byteLength needle) 0 after := by
  induction text generalizing offset with
  | nil => simp [matchIndices, splitFirst, nonempty]
  | cons character rest inductionHypothesis =>
      rw [matchIndices, splitFirst, if_neg (Nat.lt_irrefl 0)]
      split_ifs with here
      · obtain ⟨tail, same⟩ := List.isPrefixOf_iff_prefix.mp here
        cases needle with
        | nil => exact absurd rfl nonempty
        | cons first needle =>
            simp only [List.cons_append, List.cons.injEq] at same
            obtain ⟨rfl, rfl⟩ := same
            simp only [List.length_cons, Nat.add_sub_cancel, List.drop_succ_cons, List.drop_left,
              matchIndices_skip, byteLength_nil, byteLength_cons, Nat.add_zero,
              Nat.add_assoc]
      · rw [inductionHypothesis]
        cases splitFirst needle rest with
        | none => rfl
        | some parts =>
            simp only [Option.map_some, byteLength_cons, Nat.add_assoc]

theorem matchIndices_eq_nil (nonempty : needle ≠ []) {offset : Nat} :
    matchIndices needle offset 0 text = [] ↔ ¬ needle <:+: text := by
  rw [matchIndices_eq nonempty, ← splitFirst_eq_none]
  cases splitFirst needle text <;> simp

/-- A match is an occurrence. -/
theorem exists_of_mem_matchIndices (nonempty : needle ≠ []) {offset position : Nat}
    (found : position ∈ matchIndices needle offset 0 text) :
    ∃ before after, text = before ++ needle ++ after ∧ position = offset + byteLength before := by
  induction sized : text.length using Nat.strong_induction_on generalizing text offset with
  | _ count inductionHypothesis =>
      rw [matchIndices_eq nonempty] at found
      cases first : splitFirst needle text with
      | none =>
          rw [first] at found
          cases found
      | some parts =>
          rw [first] at found
          obtain ⟨cut, _⟩ := splitFirst_eq_some first
          obtain same | later := List.mem_cons.mp found
          · exact ⟨parts.1, parts.2, cut, same⟩
          · have shorter : parts.2.length < count := by
              have positive := List.length_pos_iff.mpr nonempty
              rw [← sized, cut, List.length_append, List.length_append]
              omega
            obtain ⟨before, after, same, place⟩ := inductionHypothesis _ shorter later rfl
            refine ⟨parts.1 ++ needle ++ before, after, ?_, ?_⟩
            · rw [cut, same]
              simp
            · rw [place, byteLength_append, byteLength_append]
              omega

/-- A single match is the first occurrence, and the needle does not occur behind it. -/
theorem matchIndices_eq_singleton (nonempty : needle ≠ []) {offset position : Nat}
    (single : matchIndices needle offset 0 text = [position]) :
    ∃ before after, text = before ++ needle ++ after ∧ position = offset + byteLength before ∧
      (∀ {start rest}, text = start ++ needle ++ rest → before.length ≤ start.length) ∧
      ¬ needle <:+: after := by
  rw [matchIndices_eq nonempty] at single
  cases found : splitFirst needle text with
  | none =>
      rw [found] at single
      cases single
  | some parts =>
      rw [found] at single
      obtain ⟨cut, earliest⟩ := splitFirst_eq_some found
      simp only [List.cons.injEq] at single
      exact ⟨parts.1, parts.2, cut, single.1.symm, earliest,
        (matchIndices_eq_nil nonempty).mp single.2⟩

end LawyerAssistance.Text

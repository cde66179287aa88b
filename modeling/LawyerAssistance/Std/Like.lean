import LawyerAssistance.Std.Text
import Mathlib.Data.List.Infix

/-!
# Patterns of `LIKE`

The operator `LIKE` of SQL with an escape character. A percent sign stands for any text, an
underscore for any character; letters of ASCII match in either case.

The main fact is `likeMatches_contains`: the pattern of an escaped text between two percent
signs matches what contains the text, up to the case of these letters.
-/

namespace LawyerAssistance.Like

/-- An element of a pattern. -/
inductive Token where
  | anyText
  | anyCharacter
  | literal (character : Char)

/-- The elements of a pattern, unless it ends with the escape character. -/
def tokens (escape : Char) : List Char → Option (List Token)
  | [] => some []
  | character :: rest =>
      if character = escape then
        match rest with
        | [] => none
        | escaped :: rest => (tokens escape rest).map (.literal escaped :: ·)
      else if character = '%' then (tokens escape rest).map (.anyText :: ·)
      else if character = '_' then (tokens escape rest).map (.anyCharacter :: ·)
      else (tokens escape rest).map (.literal character :: ·)

/-- Whether a text is one of those for which the elements stand. -/
def tokensMatch : List Token → List Char → Bool
  | [], text => text.isEmpty
  | .anyText :: rest, text => text.tails.any (tokensMatch rest)
  | .anyCharacter :: _, [] => false
  | .anyCharacter :: rest, _ :: text => tokensMatch rest text
  | .literal _ :: _, [] => false
  | .literal expected :: rest, character :: text =>
      character.toLower == expected.toLower && tokensMatch rest text

/-- `text LIKE pattern ESCAPE escape`. -/
def likeMatches (escape : Char) (pattern text : List Char) : Bool :=
  match tokens escape pattern with
  | some elements => tokensMatch elements text
  | none => false

/-- A text with the escape character before each character of a pattern. -/
def escapeLike (escape : Char) (text : List Char) : List Char :=
  text.flatMap fun character =>
    if character = escape ∨ character = '%' ∨ character = '_' then [escape, character]
    else [character]

variable {escape : Char} {text value rest : List Char}

/-- An escaped text stands for itself. -/
theorem tokens_escapeLike (escape : Char) (text rest : List Char) :
    tokens escape (escapeLike escape text ++ rest) =
      (tokens escape rest).map (text.map Token.literal ++ ·) := by
  induction text with
  | nil => simp [escapeLike]
  | cons character text inductionHypothesis =>
      have step : tokens escape (escapeLike escape (character :: text) ++ rest) =
          (tokens escape (escapeLike escape text ++ rest)).map (.literal character :: ·) := by
        rw [escapeLike, List.flatMap_cons, ← escapeLike]
        by_cases special : character = escape ∨ character = '%' ∨ character = '_'
        · rw [if_pos special]
          simp only [List.cons_append, List.nil_append]
          rw [tokens.eq_def]
          dsimp only
          rw [if_pos rfl]
        · rw [if_neg special]
          simp only [not_or] at special
          simp only [List.cons_append, List.nil_append]
          rw [tokens.eq_def]
          dsimp only
          rw [if_neg special.1, if_neg special.2.1, if_neg special.2.2]
      rw [step, inductionHypothesis, Option.map_map]
      rfl

/-- Characters which stand for themselves are at the front of what matches. -/
theorem tokensMatch_literals (elements : List Token) :
    tokensMatch (text.map Token.literal ++ elements) value = true ↔
      ∃ front back, value = front ++ back ∧ front.map Char.toLower = text.map Char.toLower ∧
        tokensMatch elements back = true := by
  induction text generalizing value with
  | nil =>
      refine ⟨fun found => ⟨[], value, rfl, rfl, found⟩, ?_⟩
      rintro ⟨front, back, rfl, same, found⟩
      rw [List.map_nil, List.map_eq_nil_iff] at same
      rw [same]
      exact found
  | cons expected text inductionHypothesis =>
      cases value with
      | nil =>
          simp only [List.map_cons, List.cons_append, tokensMatch, Bool.false_eq_true, false_iff]
          rintro ⟨front, back, parts, same, _⟩
          rw [(List.append_eq_nil_iff.mp parts.symm).1] at same
          cases same
      | cons character value =>
          simp only [List.map_cons, List.cons_append, tokensMatch, Bool.and_eq_true, beq_iff_eq,
            inductionHypothesis]
          constructor
          · rintro ⟨letter, front, back, rfl, same, found⟩
            exact ⟨character :: front, back, rfl, by rw [List.map_cons, letter, same], found⟩
          · rintro ⟨front, back, parts, same, found⟩
            cases front with
            | nil => cases same
            | cons first front =>
                rw [List.cons_append, List.cons.injEq] at parts
                rw [List.map_cons, List.cons.injEq, ← parts.1] at same
                exact ⟨same.1, front, back, parts.2, same.2, found⟩

theorem tokensMatch_anyText (value : List Char) : tokensMatch [.anyText] value = true := by
  rw [tokensMatch, List.any_eq_true]
  exact ⟨[], (List.mem_tails ..).mpr (List.nil_suffix), rfl⟩

/-- What contains a text, up to the case of the letters of ASCII, matches its pattern. -/
theorem likeMatches_contains (ordinary : escape ≠ '%') :
    likeMatches escape ('%' :: (escapeLike escape text ++ ['%'])) value = true ↔
      text.map Char.toLower <:+: value.map Char.toLower := by
  have last : tokens escape ['%'] = some [.anyText] := by
    rw [tokens, if_neg (Ne.symm ordinary), if_pos rfl]
    rfl
  have elements : tokens escape ('%' :: (escapeLike escape text ++ ['%'])) =
      some (.anyText :: (text.map Token.literal ++ [.anyText])) := by
    rw [tokens.eq_def]
    dsimp only
    rw [if_neg (Ne.symm ordinary), if_pos rfl, tokens_escapeLike, last]
    rfl
  rw [likeMatches, elements]
  dsimp only
  rw [tokensMatch, List.any_eq_true]
  constructor
  · rintro ⟨behind, member, found⟩
    obtain ⟨before, parts⟩ := (List.mem_tails ..).mp member
    obtain ⟨front, back, rfl, same, _⟩ := (tokensMatch_literals _).mp found
    refine ⟨before.map Char.toLower, back.map Char.toLower, ?_⟩
    rw [← parts, List.map_append, List.map_append, same, List.append_assoc]
  · rintro ⟨before, after, parts⟩
    obtain ⟨front, rest, parts', sameFront, sameRest⟩ := List.map_eq_append_iff.mp parts.symm
    obtain ⟨before, middle, rfl, _, sameMiddle⟩ := List.map_eq_append_iff.mp sameFront
    refine ⟨middle ++ rest, (List.mem_tails ..).mpr ⟨before, ?_⟩, ?_⟩
    · rw [parts', List.append_assoc]
    · exact (tokensMatch_literals _).mpr ⟨middle, rest, rfl, sameMiddle, tokensMatch_anyText rest⟩

end LawyerAssistance.Like

import LawyerAssistance.Citations.Evidence

/-!
# How often a quote occurs

The check of a quote counts the matches which `str::match_indices` finds, each of them behind the
end of the one before. A quote which occurs again only inside its first occurrence is counted once.
-/

namespace LawyerAssistance.Text

/-- A text holds a needle at a byte position. -/
def OccursAt (needle text : List Char) (position : Nat) : Prop :=
  ∃ before after, text = before ++ needle ++ after ∧ position = byteLength before

/-- A needle occurs at one position of a text at most. -/
def OccursOnce (needle text : List Char) : Prop :=
  ∀ first second, OccursAt needle text first → OccursAt needle text second → first = second

/-- A needle occurs at two positions of a text. -/
def OccursTwice (needle text : List Char) : Prop :=
  ∃ first second, OccursAt needle text first ∧ OccursAt needle text second ∧ first ≠ second

/-- A needle occurs at two positions of a text, behind each other. -/
def OccursApart (needle text : List Char) : Prop :=
  ∃ first second, OccursAt needle text first ∧ OccursAt needle text second ∧
    first + byteLength needle ≤ second

variable {needle text : List Char}

theorem not_occursTwice : ¬ OccursTwice needle text ↔ OccursOnce needle text := by
  constructor
  · intro notTwice first second occursFirst occursSecond
    by_contra differ
    exact notTwice ⟨first, second, occursFirst, occursSecond, differ⟩
  · rintro once ⟨first, second, occursFirst, occursSecond, differ⟩
    exact differ (once first second occursFirst occursSecond)

theorem OccursApart.twice (nonempty : needle ≠ []) (apart : OccursApart needle text) :
    OccursTwice needle text := by
  obtain ⟨first, second, occursFirst, occursSecond, behind⟩ := apart
  have positive := byteLength_pos nonempty
  exact ⟨first, second, occursFirst, occursSecond, by omega⟩

theorem occursAt_of_mem_matchIndices (nonempty : needle ≠ []) {position : Nat}
    (found : position ∈ matchIndices needle 0 0 text) : OccursAt needle text position := by
  obtain ⟨before, after, cut, place⟩ := exists_of_mem_matchIndices nonempty found
  exact ⟨before, after, cut, by omega⟩

theorem not_occursAt_of_matchIndices (nonempty : needle ≠ [])
    (none : matchIndices needle 0 0 text = []) (position : Nat) :
    ¬ OccursAt needle text position := by
  rintro ⟨before, after, cut, _⟩
  exact (matchIndices_eq_nil nonempty).mp none ⟨before, after, cut.symm⟩

/-- Beside a single match the needle occurs only inside of it. -/
theorem occursAt_of_single_match (nonempty : needle ≠ []) {single position : Nat}
    (one : matchIndices needle 0 0 text = [single]) (occurs : OccursAt needle text position) :
    single ≤ position ∧ position < single + byteLength needle := by
  obtain ⟨before, after, cut, place, earliest, last⟩ := matchIndices_eq_singleton nonempty one
  obtain ⟨start, rest, cut', place'⟩ := occurs
  have leading : before <+: start := by
    have first : before <+: text := ⟨needle ++ after, by rw [cut, List.append_assoc]⟩
    have second : start <+: text := ⟨needle ++ rest, by rw [cut', List.append_assoc]⟩
    exact List.prefix_of_prefix_length_le first second (earliest cut')
  obtain ⟨middle, rfl⟩ := leading
  rw [byteLength_append] at place'
  refine ⟨by omega, ?_⟩
  by_contra behind
  -- An occurrence behind the match would be one in what follows it.
  have long : byteLength needle ≤ byteLength middle := by omega
  have follows : needle ++ after = middle ++ (needle ++ rest) := by
    have same := cut.symm.trans cut'
    simpa only [List.append_assoc, List.append_cancel_left_eq] using same
  obtain ⟨inner, rfl, tail⟩ | ⟨inner, same, tail⟩ := List.append_eq_append_iff.mp follows
  · exact last ⟨inner, rest, by rw [tail, List.append_assoc]⟩
  · have nothing : inner = [] := by
      by_contra something
      have positive := byteLength_pos something
      rw [same, byteLength_append] at long
      omega
    subst nothing
    exact last ⟨[], rest, by simpa using tail⟩

/-- Two matches are behind each other. -/
theorem occursApart_of_matches (nonempty : needle ≠ []) {first second : Nat} {rest : List Nat}
    (matches_ : matchIndices needle 0 0 text = first :: second :: rest) :
    OccursApart needle text := by
  have among (position : Nat) (member : position ∈ first :: second :: rest) :
      OccursAt needle text position :=
    occursAt_of_mem_matchIndices nonempty (matches_ ▸ member)
  refine ⟨first, second, among first (by simp), among second (by simp), ?_⟩
  rw [matchIndices_eq nonempty] at matches_
  cases found : splitFirst needle text with
  | none =>
      rw [found] at matches_
      cases matches_
  | some parts =>
      rw [found] at matches_
      obtain ⟨place, behind⟩ := List.cons.inj matches_
      have later : second ∈ matchIndices needle (0 + byteLength parts.1 + byteLength needle) 0
          parts.2 := by
        rw [behind]
        exact List.mem_cons_self
      obtain ⟨before, after, _, same⟩ := exists_of_mem_matchIndices nonempty later
      omega

end LawyerAssistance.Text

namespace LawyerAssistance.Citations

variable {hash : String → String} {quote source : String}

/-- The state of a quote says how often its text occurs. -/
structure CountsOccurrences (hash : String → String) (quote source : String) : Prop where
  matched : (quoteMatch hash (some quote) source).state = .matched ↔
    ∃! position, Text.OccursAt quote.toList source.toList position
  ambiguous : (quoteMatch hash (some quote) source).state = .ambiguous ↔
    Text.OccursTwice quote.toList source.toList

/-- The state of a quote says how often it occurs exactly when it occurs once at most, or at two
places behind each other. -/
theorem quote_occurrences_are_counted_iff (nonempty : quote ≠ "") :
    CountsOccurrences hash quote source ↔
      Text.OccursOnce quote.toList source.toList ∨
        Text.OccursApart quote.toList source.toList := by
  have characters : quote.toList ≠ [] := fun empty => nonempty (String.toList_eq_nil_iff.mp empty)
  match found : Text.matchIndices quote.toList 0 0 source.toList with
  | [] =>
      have nowhere := Text.not_occursAt_of_matchIndices characters found
      have state : (quoteMatch hash (some quote) source).state = .mismatch := by
        simp [quoteMatch, found]
      refine iff_of_true ⟨?_, ?_⟩ (.inl fun first _ occurs => absurd occurs (nowhere first))
      · rw [state]
        exact ⟨nofun, fun ⟨position, occurs, _⟩ => absurd occurs (nowhere position)⟩
      · rw [state]
        exact ⟨nofun, fun ⟨first, _, occurs, _⟩ => absurd occurs (nowhere first)⟩
  | [single] =>
      have state : (quoteMatch hash (some quote) source).state = .matched := by
        simp [quoteMatch, found]
      have occurs := Text.occursAt_of_mem_matchIndices characters
        (found ▸ List.mem_singleton_self single)
      constructor
      · intro counted
        rw [← Text.not_occursTwice, ← counted.ambiguous, state]
        exact .inl nofun
      · rintro (once | ⟨first, second, occursFirst, occursSecond, behind⟩)
        · refine ⟨?_, ?_⟩
          · rw [state]
            exact iff_of_true rfl ⟨single, occurs, fun other also => once other single also occurs⟩
          · rw [state]
            exact iff_of_false nofun (Text.not_occursTwice.mpr once)
        · -- Both occurrences would be inside the single match.
          have inFirst := Text.occursAt_of_single_match characters found occursFirst
          have inSecond := Text.occursAt_of_single_match characters found occursSecond
          omega
  | first :: second :: rest =>
      have apart := Text.occursApart_of_matches characters found
      have twice := apart.twice characters
      have state : (quoteMatch hash (some quote) source).state = .ambiguous := by
        simp [quoteMatch, found]
      refine iff_of_true ⟨?_, ?_⟩ (.inr apart)
      · rw [state]
        refine iff_of_false nofun fun ⟨position, _, unique⟩ => ?_
        obtain ⟨one, other, occursOne, occursOther, differ⟩ := twice
        exact differ ((unique one occursOne).trans (unique other occursOther).symm)
      · rw [state]
        exact iff_of_true rfl twice

/-- A quote which occurs at two places behind each other is counted. -/
theorem repeated_quote_is_counted : CountsOccurrences (fun _ => "") "b" "abab" := by
  refine (quote_occurrences_are_counted_iff (by decide)).mpr (.inr ⟨1, 3, ?_, ?_, by decide⟩)
  · exact ⟨"a".toList, "ab".toList, by decide, by decide⟩
  · exact ⟨"aba".toList, [], by decide, by decide⟩

/-- A quote which overlaps itself matched although it occurs twice. -/
theorem overlapping_quote_is_matched :
    (quoteMatch (fun _ => "") (some "aa") "aaa").state = .matched ∧
      Text.OccursTwice "aa".toList "aaa".toList := by
  refine ⟨by decide, 0, 1, ⟨[], "a".toList, by decide, by decide⟩, ?_, by decide⟩
  exact ⟨"a".toList, [], by decide, by decide⟩

end LawyerAssistance.Citations

import LawyerAssistance.PrivacyText.Dismissals
import LawyerAssistance.Std.Components

/-!
# Overlapping replacements

`resolve_conflicting_replacement_overlaps` leaves a component of overlapping groups for review when
two of its replacements overlap, and no other one. The components are the connected ones, so the
result follows from which ranges overlap and not from the order in which candidates were reported.
What a reviewer dismissed stays as it is.
-/

namespace LawyerAssistance.PrivacyText

/-! ## Conflicts -/

/-- Two groups overlap. -/
abbrev Group.Overlap (first second : Group) : Prop :=
  LawyerAssistance.Overlap Group.start Group.end first second

/-- A chain of overlapping groups leads from one to the other. -/
abbrev Group.Linked (groups : List Group) : Group → Group → Prop :=
  LawyerAssistance.Linked Group.start Group.end groups

/-- Two replacements are in conflict. -/
def Group.Conflicts (first second : Group) : Prop :=
  first ≠ second ∧ first.replace = true ∧ second.replace = true ∧ first.Overlap second

/-- The component of a group has a conflict. -/
def Conflicted (groups : List Group) (group : Group) : Prop :=
  ∃ first ∈ groups, ∃ second ∈ groups, Group.Linked groups group first ∧ first.Conflicts second

/-- What becomes of a group among others. -/
structure SettledIn (groups : List Group) (before after : Group) : Prop where
  conflict : Conflicted groups before → before.finding.dismissed = false → after = before.unresolved
  dismissed : before.finding.dismissed = true → after = before
  clear : ¬ Conflicted groups before → after = before

/-- Groups in their order, of which the dismissed ones are not replaced. -/
structure Orderly (groups : List Group) : Prop where
  ranges : Ranges Group.start Group.end groups
  dismissed : ∀ group ∈ groups, group.finding.dismissed = true → group.replace = false

section Settling

variable {groups part : List Group} {group first second : Group}

theorem nodup_of_ranges (ranges : Ranges Group.start Group.end groups) : groups.Nodup := by
  refine ranges.ordered.imp fun {first second} before same => ?_
  subst same
  obtain earlier | ⟨-, shorter⟩ := before
  · exact Nat.lt_irrefl _ earlier
  · exact Nat.lt_irrefl _ shorter

/-- The check of a component looks at every pair of its groups. -/
theorem conflictingReplacements_eq_false : conflictingReplacements part = false ↔
    part.Pairwise fun left right =>
      ¬ (left.replace = true ∧ right.replace = true ∧ left.Overlap right) := by
  induction part with
  | nil => exact iff_of_true rfl List.Pairwise.nil
  | cons left rest inductionHypothesis =>
      rw [conflictingReplacements, Bool.or_eq_false_iff, inductionHypothesis, List.pairwise_cons]
      refine and_congr_left fun _ => ?_
      rw [Bool.and_eq_false_iff, List.any_eq_false]
      constructor
      · rintro (kept | quiet) right member ⟨leftReplaced, rightReplaced, overlap⟩
        · exact Bool.false_ne_true (kept.symm.trans leftReplaced)
        · exact quiet right member
            (by simpa [rightReplaced, LawyerAssistance.Overlap, and_comm] using overlap)
      · intro quiet
        by_cases leftReplaced : left.replace = true
        · refine .inr fun right member found => quiet right member ⟨leftReplaced, ?_⟩
          simp only [Bool.and_eq_true, decide_eq_true_eq] at found
          exact ⟨found.1.1, found.2, found.1.2⟩
        · exact .inl (Bool.not_eq_true _ ▸ leftReplaced)

/-- A component has a conflict when two of its groups are in conflict. -/
theorem conflictingReplacements_iff (nodup : part.Nodup) : conflictingReplacements part = true ↔
    ∃ first ∈ part, ∃ second ∈ part, first.Conflicts second := by
  rw [← Bool.not_eq_false, conflictingReplacements_eq_false]
  constructor
  · intro conflict
    by_contra quiet
    refine conflict (nodup.pairwise_of_forall_ne fun first firstMember second secondMember
      different found => quiet ⟨first, firstMember, second, secondMember, different, found⟩)
  · rintro ⟨first, firstMember, second, secondMember, different, conflict⟩ quiet
    have symmetric : Std.Symm fun left right : Group =>
        ¬ (left.replace = true ∧ right.replace = true ∧ left.Overlap right) :=
      ⟨fun _ _ quiet found => quiet ⟨found.2.1, found.1, found.2.2.symm⟩⟩
    exact quiet.forall firstMember secondMember different conflict

/-- The conflict of a component is one of each of its groups. -/
theorem conflicted_iff (ranges : Ranges Group.start Group.end groups)
    (member : part ∈ spans Group.start Group.end groups) (among : group ∈ part) :
    conflictingReplacements part = true ↔ Conflicted groups group := by
  have nodup : part.Nodup := by
    have all := nodup_of_ranges ranges
    rw [← flatten_spans Group.start Group.end groups] at all
    exact (List.nodup_flatten.mp all).1 part member
  rw [conflictingReplacements_iff nodup]
  constructor
  · rintro ⟨first, firstMember, second, secondMember, conflicts⟩
    exact ⟨first, mem_of_mem_spans member firstMember, second,
      mem_of_mem_spans member secondMember,
      (mem_component_iff ranges member among).mp firstMember, conflicts⟩
  · rintro ⟨first, firstMember, second, secondMember, linked, conflicts⟩
    have reached := linked.tail ⟨firstMember, secondMember, conflicts.2.2.2⟩
    exact ⟨first, (mem_component_iff ranges member among).mpr linked, second,
      (mem_component_iff ranges member among).mpr reached, conflicts⟩

open Classical in
/-- What becomes of a group, by the conflicts of its component. -/
noncomputable def settledBy (groups : List Group) (group : Group) : Group :=
  if Conflicted groups group ∧ group.finding.dismissed = false then group.unresolved else group

theorem settledIn_settledBy : SettledIn groups group (settledBy groups group) where
  conflict conflicted kept := if_pos ⟨conflicted, kept⟩
  dismissed dismissed := if_neg fun parts => Bool.false_ne_true (parts.2.symm.trans dismissed)
  clear quiet := if_neg fun parts => quiet parts.1

theorem one_lt_length_of_conflict (conflict : conflictingReplacements part = true) :
    1 < part.length := by
  match part with
  | [] => cases conflict
  | [_] => simp [conflictingReplacements] at conflict
  | _ :: _ :: _ => exact Nat.succ_lt_succ (Nat.succ_pos _)

/-- The pass settles every group by the conflicts of its component. -/
theorem resolveConflictingReplacementOverlaps_eq (ranges : Ranges Group.start Group.end groups) :
    resolveConflictingReplacementOverlaps groups = groups.map (settledBy groups) := by
  have settled (part : List Group) (member : part ∈ spans Group.start Group.end groups) :
      settleComponent part = part.map (settledBy groups) := by
    rw [settleComponent]
    by_cases conflict : conflictingReplacements part = true
    · rw [if_pos ⟨one_lt_length_of_conflict conflict, conflict⟩]
      refine List.map_congr_left fun group among => ?_
      have conflicted := (conflicted_iff ranges member among).mp conflict
      by_cases dismissed : group.finding.dismissed = true
      · rw [if_pos dismissed, settledBy,
          if_neg fun parts => Bool.false_ne_true (parts.2.symm.trans dismissed)]
      · rw [if_neg dismissed, settledBy, if_pos ⟨conflicted, Bool.not_eq_true _ ▸ dismissed⟩]
    · rw [if_neg fun parts => conflict parts.2]
      refine (List.map_id part).symm.trans (List.map_congr_left fun group among => ?_)
      have quiet : ¬ Conflicted groups group := fun conflicted =>
        conflict ((conflicted_iff ranges member among).mpr conflicted)
      rw [settledBy, if_neg fun parts => quiet parts.1]
      rfl
  calc
    _ = (spans Group.start Group.end groups).flatMap (List.map (settledBy groups)) :=
      List.flatMap_congr settled
    _ = ((spans Group.start Group.end groups).flatten).map (settledBy groups) := by
      rw [List.map_flatten, List.flatMap_def]
    _ = _ := by rw [flatten_spans]

/-- What is still replaced is a replacement without a conflict. -/
theorem quiet_of_replace (orderly : Orderly groups) (member : group ∈ groups)
    (replaced : (settledBy groups group).replace = true) :
    settledBy groups group = group ∧ ¬ Conflicted groups group := by
  rw [settledBy] at replaced ⊢
  split_ifs at replaced ⊢ with conflict
  · cases replaced
  · refine ⟨rfl, fun conflicted => conflict ⟨conflicted, ?_⟩⟩
    by_contra dismissed
    rw [orderly.dismissed group member (Bool.not_eq_false _ ▸ dismissed)] at replaced
    cases replaced

/-- No two groups which are still replaced overlap. -/
theorem replaced_apart (orderly : Orderly groups) :
    (resolveConflictingReplacementOverlaps groups).Pairwise fun first second =>
      first.replace = true → second.replace = true → ¬ first.Overlap second := by
  rw [resolveConflictingReplacementOverlaps_eq orderly.ranges, List.pairwise_map]
  refine (nodup_of_ranges orderly.ranges).pairwise_of_forall_ne
    fun first firstMember second secondMember different firstReplaced secondReplaced overlap => ?_
  obtain ⟨firstSame, quiet⟩ := quiet_of_replace orderly firstMember firstReplaced
  obtain ⟨secondSame, -⟩ := quiet_of_replace orderly secondMember secondReplaced
  rw [firstSame] at firstReplaced overlap
  rw [secondSame] at secondReplaced overlap
  exact quiet ⟨first, firstMember, second, secondMember, .refl, different, firstReplaced,
    secondReplaced, overlap⟩

end Settling

/-! ## Candidates -/

section Candidates

variable {sha256Hex : Octets → String} {text namespaceText : Text} {dismissedIds : List String}
  {ambiguousOrganizations : List Text} {candidates others values otherValues : List Candidate}
  {range : Nat × Nat} {group : Group} {groups : List Group}

/-- A group has the range of its candidates, and is not replaced when it is dismissed. -/
theorem candidateGroup_spec (built : candidateGroup sha256Hex text namespaceText dismissedIds
      ambiguousOrganizations range values = .ok group) :
    (group.start, group.end) = range ∧ group.start ≤ group.end ∧
      (group.finding.dismissed = true → group.replace = false) := by
  rw [candidateGroup] at built
  obtain ⟨value, sliced, built⟩ := bind_eq_ok.mp built
  obtain ⟨kind, -, built⟩ := bind_eq_ok.mp built
  obtain ⟨_, _, _, _, stop⟩ := Text.slice_eq_some.mp (presentOr_eq_ok.mp sliced)
  cases built
  refine ⟨rfl, ?_, fun dismissed => ?_⟩
  · dsimp only
    omega
  · have guess := (Bool.and_eq_true_iff.mp dismissed).2
    dsimp only
    rw [automaticEvidence_of_dismissible guess, Bool.and_false]

theorem rangeLe_total (first second : Nat × Nat) : RangeLe first second ∨ RangeLe second first := by
  simp only [RangeLe]
  omega

theorem rangeLe_trans {first second third : Nat × Nat} (before : RangeLe first second)
    (behind : RangeLe second third) : RangeLe first third := by
  simp only [RangeLe] at *
  omega

theorem rangeLe_antisymm {first second : Nat × Nat} (before : RangeLe first second)
    (behind : RangeLe second first) : first = second := by
  simp only [RangeLe] at *
  exact Prod.ext (by omega) (by omega)

instance : Std.Total RangeLe := ⟨rangeLe_total⟩

instance : IsTrans (Nat × Nat) RangeLe := ⟨fun _ _ _ => rangeLe_trans⟩

instance : Std.Antisymm RangeLe := ⟨fun _ _ => rangeLe_antisymm⟩

/-- The ranges of the candidates are in their order, each one once. -/
theorem candidateRanges_ordered :
    (candidateRanges candidates).Pairwise (Precedes Prod.fst Prod.snd) := by
  have sorted : (candidateRanges candidates).Pairwise RangeLe := List.pairwise_insertionSort _ _
  have nodup : (candidateRanges candidates).Nodup :=
    (List.perm_insertionSort _ _).nodup_iff.mpr (List.nodup_dedup _)
  refine (sorted.and nodup).imp fun {first second} parts => ?_
  obtain ⟨earlier | ⟨same, shorter⟩, different⟩ := parts
  · exact .inl earlier
  · exact .inr ⟨same, Nat.lt_of_le_of_ne shorter fun ends => different (Prod.ext same ends)⟩

/-- The groups of the candidates are in their order. -/
theorem orderly_of_candidateGroups (built : candidateGroups sha256Hex text namespaceText candidates
      dismissedIds ambiguousOrganizations = .ok groups) : Orderly groups := by
  have pairs := mapM_eq_ok built
  have each : ∀ group ∈ groups, group.start ≤ group.end ∧
      (group.finding.dismissed = true → group.replace = false) := by
    intro group member
    obtain ⟨range, -, made⟩ := exists_of_forall₂_right pairs member
    exact (candidateGroup_spec made).2
  have places : groups.map (fun group => (group.start, group.end)) =
      candidateRanges candidates := by
    clear each built
    generalize candidateRanges candidates = ranges at pairs
    induction pairs with
    | nil => rfl
    | cons made _ inductionHypothesis =>
        rw [List.map_cons, inductionHypothesis, (candidateGroup_spec made).1]
  refine ⟨⟨fun group member => (each group member).1, ?_⟩,
    fun group member => (each group member).2⟩
  have ordered := @candidateRanges_ordered candidates
  rw [← places, List.pairwise_map] at ordered
  exact ordered

/-- The check of repeated names keeps the order. -/
theorem orderly_mark (orderly : Orderly groups) :
    Orderly (markConflictingRepeatedPeople text groups) := by
  have kept (group : Group) (marked : Group) (same : marked = group ∨ marked = group.unresolved) :
      marked.start = group.start ∧ marked.end = group.end ∧
        marked.finding.dismissed = group.finding.dismissed ∧
        (group.replace = false → marked.replace = false) := by
    obtain rfl | rfl := same
    · exact ⟨rfl, rfl, rfl, id⟩
    · exact ⟨rfl, rfl, rfl, fun _ => rfl⟩
  have each (group : Group) := kept group
    (if group.countsAsPerson && nameConflict text groups group.finding.text then group.unresolved
      else group) (by split_ifs <;> simp)
  rw [markConflictingRepeatedPeople]
  refine ⟨⟨?_, ?_⟩, ?_⟩
  · intro marked member
    obtain ⟨group, among, rfl⟩ := List.mem_map.mp member
    rw [(each group).1, (each group).2.1]
    exact orderly.ranges.proper group among
  · refine List.pairwise_map.mpr (orderly.ranges.ordered.imp fun {first second} before => ?_)
    rw [Precedes, (each first).1, (each first).2.1, (each second).1, (each second).2.1]
    exact before
  · intro marked member dismissed
    obtain ⟨group, among, rfl⟩ := List.mem_map.mp member
    rw [(each group).2.2.1] at dismissed
    exact (each group).2.2.2 (orderly.dismissed group among dismissed)

/-! ## The order of the candidates -/

/-- The only entry of a list without duplicates is the first one in every order. -/
theorem head?_dedup_of_perm {first second : List Text} (same : first.Perm second)
    (one : first.dedup.length = 1) : first.dedup.head? = second.dedup.head? := by
  obtain ⟨only, listed⟩ := List.length_eq_one_iff.mp one
  have perm := same.dedup
  rw [listed] at perm ⊢
  rw [List.singleton_perm.mp perm]

theorem groupAlias_perm (same : values.Perm otherValues) :
    groupAlias values = groupAlias otherValues := by
  have aliases := same.map Candidate.alias
  have dictionary := (same.filter fun value => value.source = .dictionary).map Candidate.alias
  have nothing : ((values.filter fun value => value.source = .dictionary).map
        Candidate.alias).dedup = [] ↔
      ((otherValues.filter fun value => value.source = .dictionary).map Candidate.alias).dedup
        = [] := by
    rw [← List.length_eq_zero_iff, ← List.length_eq_zero_iff, dictionary.dedup.length_eq]
  rw [groupAlias, groupAlias]
  rw [← dictionary.dedup.length_eq, ← aliases.dedup.length_eq]
  split_ifs with one two three four
  · exact head?_dedup_of_perm dictionary one
  · exact head?_dedup_of_perm aliases two.2
  · exact absurd ⟨nothing.mp two.1, two.2⟩ three
  · exact absurd ⟨nothing.mpr four.1, four.2⟩ two
  · rfl

theorem automaticEvidence_perm {kind : EntityType} (same : values.Perm otherValues) :
    automaticEvidence kind values = automaticEvidence kind otherValues := by
  simp only [automaticEvidence, same.any_eq, (same.filter _).all_eq]

theorem candidateGroup_perm (same : values.Perm otherValues) :
    candidateGroup sha256Hex text namespaceText dismissedIds ambiguousOrganizations range values =
      candidateGroup sha256Hex text namespaceText dismissedIds ambiguousOrganizations range
        otherValues := by
  simp only [candidateGroup, same.any_eq, groupAlias_perm same, automaticEvidence_perm same]

theorem candidateRanges_perm (same : candidates.Perm others) :
    candidateRanges candidates = candidateRanges others := by
  have places := (same.map fun candidate => (candidate.start, candidate.end)).dedup
  refine List.Perm.eq_of_pairwise (fun _ _ _ _ before behind => rangeLe_antisymm before behind)
    (List.pairwise_insertionSort RangeLe _) (List.pairwise_insertionSort RangeLe _) ?_
  · exact (List.perm_insertionSort _ _).trans (places.trans (List.perm_insertionSort _ _).symm)

theorem suppressRedundantLocalNer_perm (same : candidates.Perm others) :
    (suppressRedundantLocalNer text candidates).Perm (suppressRedundantLocalNer text others) := by
  rw [suppressRedundantLocalNer, suppressRedundantLocalNer]
  simp only [(same.filter _).any_eq]
  exact same.filter _

theorem candidateGroups_perm (same : candidates.Perm others) :
    candidateGroups sha256Hex text namespaceText candidates dismissedIds ambiguousOrganizations =
      candidateGroups sha256Hex text namespaceText others dismissedIds ambiguousOrganizations := by
  rw [candidateGroups, candidateGroups, candidateRanges_perm same]
  exact congrArg (fun compute => List.mapM compute (candidateRanges others))
    (funext fun range => candidateGroup_perm (same.filter _))

end Candidates

/-- The groups of any candidates, in any order, are settled by their conflicts. What is still
replaced does not overlap; a component of overlapping groups without a conflict is unchanged; in a
component with a conflict every group is left for review, except what a reviewer dismissed, which
is never replaced. -/
theorem overlaps_clear_conflicts {scanner : Scanner} {text namespaceText : Text}
    {candidates : List Candidate} {dismissed : List String} {ambiguousOrganizations : List Text}
    {groups : List Group} (grouped : groupsOf scanner text namespaceText candidates dismissed
      ambiguousOrganizations = .ok groups) :
    List.Forall₂ (SettledIn (markConflictingRepeatedPeople text groups))
      (markConflictingRepeatedPeople text groups) (settledGroups text groups) ∧
    (∀ group ∈ markConflictingRepeatedPeople text groups,
      group.finding.dismissed = true → group.replace = false) ∧
    ((settledGroups text groups).Pairwise fun first second =>
      first.replace = true → second.replace = true → ¬ first.Overlap second) ∧
    ∀ others : List Candidate, others.Perm candidates →
      groupsOf scanner text namespaceText others dismissed ambiguousOrganizations = .ok groups := by
  have orderly : Orderly (markConflictingRepeatedPeople text groups) :=
    orderly_mark (orderly_of_candidateGroups grouped)
  refine ⟨?_, orderly.dismissed, replaced_apart orderly, fun others same => ?_⟩
  · rw [settledGroups, resolveConflictingReplacementOverlaps_eq orderly.ranges,
      List.forall₂_map_right_iff, List.forall₂_same]
    exact fun _ _ => settledIn_settledBy
  · rw [groupsOf, candidateGroups_perm (suppressRedundantLocalNer_perm same)]
    exact grouped

/-! ## A dismissed guess in a conflict -/

/-- A scanner which finds nothing. -/
def quietScanner : Scanner := ⟨fun _ => "", fun _ _ => .ok false⟩

/-- A candidate of the model for a part of a text. -/
def modelCandidate (start stop : Nat) (kind : EntityType) : Candidate :=
  ⟨start, stop, kind, .ai, ['[', 'A', ']'], false, true, Candidate.ruled_of_false⟩

/-- Two replacements of the model which overlap, and a guess of the local recognizer. -/
def overlappingCandidates : List Candidate :=
  [modelCandidate 0 4 .organizationName, modelCandidate 2 4 .personName,
    ⟨1, 3, .address, .localNer, ['[', 'B', ']'], false, false, Candidate.ruled_of_false⟩]

/-- The groups of the candidates, when the guess is dismissed. -/
def overlappingGroups : List Group :=
  (groupsOf quietScanner "abcd".toList "n".toList overlappingCandidates ["fnd_"]
    []).toOption.getD []

theorem groupsOf_overlappingCandidates : groupsOf quietScanner "abcd".toList "n".toList
    overlappingCandidates ["fnd_"] [] = .ok overlappingGroups := by decide

/-- In the sample no two replacements overlap after the pass. -/
theorem overlaps_clear_conflicts_of_sample :
    (settledGroups "abcd".toList overlappingGroups).Pairwise fun first second =>
      first.replace = true → second.replace = true → ¬ first.Overlap second :=
  (overlaps_clear_conflicts groupsOf_overlappingCandidates).2.2.1

/-- A dismissed guess in a component with a conflict stays resolved. -/
theorem dismissed_guess_stays_resolved :
    ∃ guess ∈ markConflictingRepeatedPeople "abcd".toList overlappingGroups,
      Conflicted (markConflictingRepeatedPeople "abcd".toList overlappingGroups) guess ∧
        guess ∈ settledGroups "abcd".toList overlappingGroups ∧
          guess.finding.resolved = true := by
  obtain ⟨first, guess, second, groups⟩ : ∃ first guess second,
      markConflictingRepeatedPeople "abcd".toList overlappingGroups = [first, guess, second] :=
    ⟨_, _, _, rfl⟩
  have settled : (settledGroups "abcd".toList overlappingGroups)[1]? =
      (markConflictingRepeatedPeople "abcd".toList overlappingGroups)[1]? := by decide
  have overlap : ((markConflictingRepeatedPeople "abcd".toList overlappingGroups).map fun group =>
      (group.start, group.end, group.replace, group.finding.resolved)) =
      [(0, 4, true, true), (1, 3, false, true), (2, 4, true, true)] := by decide
  rw [groups] at settled overlap ⊢
  simp only [List.map_cons, List.map_nil, List.cons.injEq, Prod.mk.injEq] at overlap
  obtain ⟨⟨firstStart, firstEnd, firstReplaced, -⟩, ⟨start, stop, -, resolved⟩,
    ⟨secondStart, secondEnd, secondReplaced, -⟩, -⟩ := overlap
  refine ⟨guess, by simp, ⟨first, by simp, second, by simp, ?_, ?_, firstReplaced, secondReplaced,
    ?_⟩, List.mem_of_getElem? settled, resolved⟩
  · refine .single ⟨by simp, by simp, ?_⟩
    rw [LawyerAssistance.Overlap, firstStart, firstEnd, start, stop]
    decide
  · rintro rfl
    exact absurd (firstStart.symm.trans secondStart) (by decide)
  · rw [Group.Overlap, LawyerAssistance.Overlap, firstStart, firstEnd, secondStart, secondEnd]
    decide

end LawyerAssistance.PrivacyText

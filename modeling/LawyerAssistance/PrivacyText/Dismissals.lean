import LawyerAssistance.PrivacyText.Analysis
import Mathlib.Data.List.Dedup

/-!
# Dismissed findings

Two analyses of one text which differ in what was dismissed have the same occurrences. An
occurrence can be replaced in one and not in the other only when its component of overlapping
ranges holds a person name which one of them takes for several people and the other does not, and
that takes a dismissed occurrence of this very name.
-/

namespace LawyerAssistance.PrivacyText

/-- What an analysis knows of a range before anything is dismissed. What may be dismissed is not
replaced without a review. -/
structure Occurrence where
  start : Nat
  «end» : Nat
  id : String
  text : Text
  kind : EntityType
  «alias» : Option Text
  sources : List CandidateSource
  automatic : Bool
  reviewed : dismissible kind sources = true → automatic = false

namespace Occurrence

/-- The occurrence is one of those which were dismissed. -/
def dismissedBy (dismissedIds : List String) (occurrence : Occurrence) : Bool :=
  dismissedIds.contains occurrence.id && dismissible occurrence.kind occurrence.sources

/-- The detectors of an occurrence, as a finding lists them. -/
def sourceText (occurrence : Occurrence) : String :=
  String.intercalate "+" (occurrence.sources.map CandidateSource.name)

/-- The group of an occurrence. -/
def group (dismissedIds : List String) (occurrence : Occurrence) : Group where
  start := occurrence.start
  «end» := occurrence.end
  finding := {
    id := occurrence.id
    text := occurrence.text
    kind := entityKind occurrence.kind
    «alias» := occurrence.alias
    source := occurrence.sourceText
    resolved := occurrence.automatic || occurrence.dismissedBy dismissedIds
    dismissed := occurrence.dismissedBy dismissedIds }
  replace := occurrence.automatic

/-- The analysis replaces the occurrence with its alias. -/
def ReplacedIn (occurrence : Occurrence) (analysis : Analysis) : Prop :=
  ∃ replacement ∈ analysis.replacements, replacement.findingId = occurrence.id ∧
    replacement.sourceStart = occurrence.start ∧ replacement.sourceEnd = occurrence.end ∧
    occurrence.alias = some replacement.alias

end Occurrence

/-! ## Occurrences of the candidates -/

section Occurrences

variable {sha256Hex : Octets → String} {text namespaceText : Text} {candidates : List Candidate}
  {ambiguousOrganizations : List Text}

theorem mem_sources {values : List Candidate} {source : CandidateSource} :
    source ∈ (CandidateSource.all.filter fun source => values.any fun value =>
      value.source = source) ↔ ∃ value ∈ values, value.source = source := by
  have listed : source ∈ CandidateSource.all := by cases source <;> decide
  simp [listed]

/-- Candidates of one detector have no evidence of another one. -/
theorem any_of_alike {values : List Candidate} {source : CandidateSource}
    (alike : ∀ value ∈ values, value.source = source) (test : Candidate → Bool)
    (fails : ∀ value : Candidate, value.source = source → test value = false) :
    values.any test = false :=
  List.any_eq_false.mpr fun value member passes => by
    rw [fails value (alike value member)] at passes
    cases passes

/-- What only the local recognizer reports, or only the model without a kind, is not automatic. -/
theorem automaticEvidence_of_dismissible {kind : EntityType} {values : List Candidate}
    (guess : dismissible kind (CandidateSource.all.filter fun source =>
      values.any fun value => value.source = source) = true) :
    automaticEvidence kind values = false := by
  rw [dismissible, Bool.or_eq_true, Bool.and_eq_true, decide_eq_true_eq, decide_eq_true_eq,
    decide_eq_true_eq] at guess
  have only {source : CandidateSource} (sources : (CandidateSource.all.filter fun source =>
      values.any fun value => value.source = source) = [source]) (value : Candidate)
      (member : value ∈ values) : value.source = source := by
    have listed := mem_sources.mpr ⟨value, member, rfl⟩
    rw [sources, List.mem_singleton] at listed
    exact listed
  have unruled {source : CandidateSource} (other : source ≠ .deterministic) (value : Candidate)
      (same : value.source = source) : value.deterministic = false := by
    by_contra ruled
    exact other (same.symm.trans (value.ruled (by simpa using ruled)))
  rw [automaticEvidence]
  obtain sources | ⟨sources, rfl⟩ := guess
  · have alike := only sources
    have dictionary := any_of_alike alike (fun value => value.source = .dictionary)
      fun value same => by simp [same]
    have cloud := any_of_alike alike (fun value => value.source = .cloud)
      fun value same => by simp [same]
    have automaticAi := any_of_alike alike
      (fun value => value.source = .ai && value.automaticAllowed)
      fun value same => by simp [same]
    have rules := any_of_alike alike _ (unruled (by decide))
    simp [dictionary, cloud, automaticAi, rules]
  · have alike := only sources
    have dictionary := any_of_alike alike (fun value => value.source = .dictionary)
      fun value same => by simp [same]
    have recognizer := any_of_alike alike (fun value => value.source = .localNer)
      fun value same => by simp [same]
    have rules := any_of_alike alike _ (unruled (by decide))
    simp [dictionary, recognizer, rules]

variable (sha256Hex text namespaceText candidates ambiguousOrganizations)

/-- The occurrence of a range, whatever is dismissed. -/
theorem candidateGroup_eq (range : Nat × Nat) (values : List Candidate) :
    (∃ error, ∀ dismissedIds, candidateGroup sha256Hex text namespaceText dismissedIds
      ambiguousOrganizations range values = .error error) ∨
    ∃ occurrence : Occurrence, (occurrence.start, occurrence.end) = range ∧
      ∀ dismissedIds, candidateGroup sha256Hex text namespaceText dismissedIds
        ambiguousOrganizations range values = .ok (occurrence.group dismissedIds) := by
  simp only [candidateGroup]
  cases Text.slice text range.1 range.2 with
  | none => exact .inl ⟨_, fun _ => rfl⟩
  | some value =>
      cases (EntityType.all.filter fun kind => values.any fun value => value.kind = kind).head? with
      | none => exact .inl ⟨_, fun _ => rfl⟩
      | some kind =>
          refine .inr ⟨⟨range.1, range.2, _, value, kind, _, _, _, fun guess => ?_⟩, rfl,
            fun _ => rfl⟩
          exact (congrArg (_ && ·) (automaticEvidence_of_dismissible guess)).trans
            (Bool.and_false _)

/-- The occurrences of the candidates, whatever is dismissed. -/
theorem candidateGroups_eq (ranges : List (Nat × Nat)) :
    (∃ error, ∀ dismissedIds, (ranges.mapM fun range =>
      candidateGroup sha256Hex text namespaceText dismissedIds ambiguousOrganizations range
        (candidates.filter fun candidate => (candidate.start, candidate.end) = range)) =
          .error error) ∨
    ∃ occurrences : List Occurrence,
      occurrences.map (fun occurrence => (occurrence.start, occurrence.end)) = ranges ∧
      ∀ dismissedIds, (ranges.mapM fun range =>
        candidateGroup sha256Hex text namespaceText dismissedIds ambiguousOrganizations range
          (candidates.filter fun candidate => (candidate.start, candidate.end) = range)) =
            .ok (occurrences.map (Occurrence.group dismissedIds)) := by
  induction ranges with
  | nil => exact .inr ⟨[], rfl, fun _ => rfl⟩
  | cons range rest inductionHypothesis =>
      simp only [List.mapM_cons]
      obtain ⟨error, fails⟩ | ⟨occurrence, place, grouped⟩ := candidateGroup_eq sha256Hex text namespaceText
        ambiguousOrganizations range
        (candidates.filter fun candidate => (candidate.start, candidate.end) = range)
      · exact .inl ⟨error, fun dismissedIds => by rw [fails]; rfl⟩
      · obtain ⟨error, fails⟩ | ⟨occurrences, places, all⟩ := inductionHypothesis
        · exact .inl ⟨error, fun dismissedIds => by rw [grouped, fails]; rfl⟩
        · refine .inr ⟨occurrence :: occurrences, ?_, fun dismissedIds => ?_⟩
          · rw [List.map_cons, place, places]
          · rw [grouped, all]
            rfl

end Occurrences

/-! ## Analyses -/

section Analyses

variable {scanner : Scanner} {text namespaceText : Text} {candidates : List Candidate}
  {dismissedIds : List String} {ambiguousOrganizations : List Text} {analysis : Analysis}

/-- What a replacement says of a group. -/
def Group.piece (group : Group) : String × Nat × Nat × Option Text :=
  (group.finding.id, group.start, group.end, group.finding.alias)

/-- What a replacement records. -/
def Replacement.piece (replacement : Replacement) : String × Nat × Nat × Option Text :=
  (replacement.findingId, replacement.sourceStart, replacement.sourceEnd, some replacement.alias)

/-- Every group is recorded as it is replaced. -/
theorem applyReplacementsFrom_pieces {groups : List Group} {cursor : Nat} {before output : Text}
    {recorded replacements : List Replacement}
    (applied : applyReplacementsFrom text groups cursor before recorded =
      .ok (output, replacements)) :
    replacements.map Replacement.piece =
      recorded.map Replacement.piece ++ groups.map Group.piece := by
  induction groups generalizing cursor before recorded with
  | nil =>
      obtain ⟨rest, _, done⟩ := bind_eq_ok.mp applied
      cases done
      rw [List.map_nil, List.append_nil]
  | cons group rest inductionHypothesis =>
      obtain ⟨_, applied⟩ := refuseIf_bind_eq_ok.mp applied
      obtain ⟨_, _, applied⟩ := bind_eq_ok.mp applied
      obtain ⟨_, known, applied⟩ := bind_eq_ok.mp applied
      rw [inductionHypothesis applied, List.map_append, List.append_assoc, List.map_cons,
        List.map_nil, List.singleton_append, List.map_cons, Group.piece, presentOr_eq_ok.mp known]
      rfl

/-- The output depends on what is recorded of the groups. -/
theorem applyReplacementsFrom_congr {groups groups' : List Group}
    (same : groups.map Group.piece = groups'.map Group.piece) (cursor : Nat) (before : Text)
    (recorded : List Replacement) :
    applyReplacementsFrom text groups cursor before recorded =
      applyReplacementsFrom text groups' cursor before recorded := by
  induction groups generalizing groups' cursor before recorded with
  | nil =>
      obtain rfl := List.map_eq_nil_iff.mp same.symm
      rfl
  | cons group rest inductionHypothesis =>
      cases groups' with
      | nil => cases same
      | cons group' rest' =>
          rw [List.map_cons, List.map_cons, List.cons.injEq] at same
          obtain ⟨here, others⟩ := same
          simp only [Group.piece, Prod.mk.injEq] at here
          obtain ⟨id, start, stop, spelled⟩ := here
          simp only [applyReplacementsFrom, id, start, stop, spelled, inductionHypothesis others]

/-- An analysis which succeeds. -/
theorem buildAnalysis_eq_ok
    (done : buildAnalysis scanner text namespaceText candidates dismissedIds
      ambiguousOrganizations = .ok analysis) :
    ∃ groups, groupsOf scanner text namespaceText candidates dismissedIds
        ambiguousOrganizations = .ok groups ∧
      applyReplacements text (settledGroups text groups) =
        .ok (analysis.text, analysis.replacements) ∧
      rebuildFrom text analysis.findings analysis.replacements 0 [] = .ok analysis.text := by
  obtain ⟨groups, grouped, done⟩ := bind_eq_ok.mp done
  obtain ⟨⟨output, replacements⟩, applied, done⟩ := bind_eq_ok.mp done
  obtain ⟨_, verified, done⟩ := bind_eq_ok.mp done
  obtain ⟨_, verified⟩ := refuseIf_bind_eq_ok.mp verified
  obtain ⟨_, _, verified⟩ := bind_eq_ok.mp verified
  obtain ⟨rebuilt, rebuild, same⟩ := bind_eq_ok.mp verified
  have equal : rebuilt = output := not_not.mp (refuseIf_eq_ok.mp same)
  rw [equal] at rebuild
  refine ⟨groups, grouped, ?_⟩
  dsimp only at done
  split at done
  · cases done
    exact ⟨applied, rebuild⟩
  · obtain ⟨_, _, done⟩ := bind_eq_ok.mp done
    cases done
    exact ⟨applied, rebuild⟩

/-- The analyses of a text have one list of occurrences, each with a range of its own. -/
theorem groupsOf_eq_ok {groups : List Group}
    (grouped : groupsOf scanner text namespaceText candidates dismissedIds
      ambiguousOrganizations = .ok groups) :
    ∃ occurrences : List Occurrence,
      (occurrences.map fun occurrence => (occurrence.start, occurrence.end)).Nodup ∧
      ∀ dismissedIds, groupsOf scanner text namespaceText candidates dismissedIds
        ambiguousOrganizations = .ok (occurrences.map (Occurrence.group dismissedIds)) := by
  obtain ⟨error, fails⟩ | ⟨occurrences, places, all⟩ := candidateGroups_eq scanner.sha256Hex
    text namespaceText (suppressRedundantLocalNer text candidates) ambiguousOrganizations
    (candidateRanges (suppressRedundantLocalNer text candidates))
  · have failed := (fails dismissedIds).symm.trans grouped
    cases failed
  · refine ⟨occurrences, ?_, all⟩
    rw [places, candidateRanges, (List.perm_insertionSort _ _).nodup_iff]
    exact List.nodup_dedup _

end Analyses

/-! ## Marked groups -/

section Marked

variable {text : Text} {dismissedIds dismissedIds' : List String} {occurrences : List Occurrence}

/-- What a replacement records of an occurrence. -/
def Occurrence.piece (occurrence : Occurrence) : String × Nat × Nat × Option Text :=
  (occurrence.id, occurrence.start, occurrence.end, occurrence.alias)

/-- A name is taken for several people. -/
def conflictingName (text : Text) (occurrences : List Occurrence) (dismissedIds : List String)
    (name : Text) : Bool :=
  nameConflict text (occurrences.map (Occurrence.group dismissedIds)) name

/-- The group of an occurrence behind the check of repeated names. -/
def Occurrence.marked (text : Text) (occurrences : List Occurrence) (dismissedIds : List String)
    (occurrence : Occurrence) : Group :=
  if (occurrence.group dismissedIds).countsAsPerson &&
      conflictingName text occurrences dismissedIds occurrence.text then
    (occurrence.group dismissedIds).unresolved
  else occurrence.group dismissedIds

@[simp] theorem Occurrence.piece_marked (occurrence : Occurrence) :
    (occurrence.marked text occurrences dismissedIds).piece = occurrence.piece := by
  rw [Occurrence.marked]
  split <;> rfl

@[simp] theorem Occurrence.dismissed_marked (occurrence : Occurrence) :
    (occurrence.marked text occurrences dismissedIds).finding.dismissed =
      occurrence.dismissedBy dismissedIds := by
  rw [Occurrence.marked]
  split <;> rfl

/-- The groups of an analysis, component by component. -/
theorem settledGroups_eq :
    settledGroups text (occurrences.map (Occurrence.group dismissedIds)) =
      (spans Occurrence.start Occurrence.end occurrences).flatMap fun part =>
        settleComponent (part.map (Occurrence.marked text occurrences dismissedIds)) := by
  have marked : markConflictingRepeatedPeople text (occurrences.map (Occurrence.group dismissedIds)) =
      occurrences.map (Occurrence.marked text occurrences dismissedIds) := by
    rw [markConflictingRepeatedPeople, List.map_map]
    rfl
  have starts : Group.start ∘ Occurrence.marked text occurrences dismissedIds =
      Occurrence.start :=
    funext fun occurrence => congrArg (fun piece => piece.2.1) occurrence.piece_marked
  have ends : Group.end ∘ Occurrence.marked text occurrences dismissedIds = Occurrence.end :=
    funext fun occurrence => congrArg (fun piece => piece.2.2.1) occurrence.piece_marked
  rw [settledGroups, marked, resolveConflictingReplacementOverlaps, spans_map, starts, ends,
    List.flatMap_map]

theorem entityKind_person {kind : EntityType} :
    entityKind kind = entityKind .personName ↔ kind = .personName := by
  cases kind <;> decide

/-- The occurrences of a name which count as repetitions decide whether it conflicts. -/
theorem conflictingName_congr {name : Text}
    (same : ∀ occurrence ∈ occurrences, occurrence.text = name →
      (occurrence.group dismissedIds).countsAsPerson =
        (occurrence.group dismissedIds').countsAsPerson) :
    conflictingName text occurrences dismissedIds name =
      conflictingName text occurrences dismissedIds' name := by
  have counted : occurrences.filter ((fun group : Group => group.countsAsPerson &&
        group.finding.text = name) ∘ Occurrence.group dismissedIds) =
      occurrences.filter ((fun group : Group => group.countsAsPerson &&
        group.finding.text = name) ∘ Occurrence.group dismissedIds') :=
    List.filter_congr fun occurrence member => by
      have spelled (ids : List String) : (occurrence.group ids).finding.text = occurrence.text := rfl
      simp only [Function.comp_apply, spelled]
      by_cases named : occurrence.text = name
      · rw [same occurrence member named]
      · simp [named]
  simp only [conflictingName, nameConflict, List.filter_map, counted, List.length_map,
    List.filterMap_map]
  rfl

/-- A name is taken for several people by one analysis only when what the local recognizer alone
reports of it was dismissed in one of them. -/
theorem dismissed_of_conflictingName_ne {name : Text}
    (differ : conflictingName text occurrences dismissedIds name ≠
      conflictingName text occurrences dismissedIds' name) :
    ∃ occurrence ∈ occurrences, occurrence.text = name ∧ occurrence.kind = .personName ∧
      occurrence.sources = [.localNer] ∧
      dismissedIds.contains occurrence.id ≠ dismissedIds'.contains occurrence.id := by
  by_contra none
  refine differ (conflictingName_congr fun occurrence member named => ?_)
  by_cases person : entityKind occurrence.kind = entityKind .personName
  · have kind := entityKind_person.mp person
    have dismissed : occurrence.dismissedBy dismissedIds = occurrence.dismissedBy dismissedIds' := by
      by_cases alone : occurrence.sources = [.localNer]
      · have listed : dismissedIds.contains occurrence.id = dismissedIds'.contains occurrence.id :=
          by_contra fun other => none ⟨occurrence, member, named, kind, alone, other⟩
        rw [Occurrence.dismissedBy, Occurrence.dismissedBy, listed]
      · simp [Occurrence.dismissedBy, dismissible, kind, alone]
    have same : occurrence.group dismissedIds = occurrence.group dismissedIds' := by
      rw [Occurrence.group, Occurrence.group, dismissed]
    rw [same]
  · simp [Group.countsAsPerson, Occurrence.group, person]

/-! ## Aligned components -/

/-- Two groups of one occurrence, both replaced or both not. What is dismissed is not. -/
structure Aligned (first second : Group) : Prop where
  piece : first.piece = second.piece
  replace : first.replace = second.replace
  firstDismissed : first.finding.dismissed = true → first.replace = false
  secondDismissed : second.finding.dismissed = true → second.replace = false

/-- The check of overlapping replacements is the same. -/
theorem conflictingReplacements_aligned {first second : List Group}
    (aligned : List.Forall₂ Aligned first second) :
    conflictingReplacements first = conflictingReplacements second := by
  induction aligned with
  | nil => rfl
  | @cons left left' rest rest' here others inductionHypothesis =>
      have starts {group group' : Group} (aligned : Aligned group group') :
          group.start = group'.start := congrArg (fun piece => piece.2.1) aligned.piece
      have ends {group group' : Group} (aligned : Aligned group group') :
          group.end = group'.end := congrArg (fun piece => piece.2.2.1) aligned.piece
      have later : rest.any (fun right =>
            right.replace && right.start < left.end && left.start < right.end) =
          rest'.any fun right =>
            right.replace && right.start < left'.end && left'.start < right.end := by
        clear inductionHypothesis
        induction others with
        | nil => rfl
        | cons next _ inductionHypothesis =>
            rw [List.any_cons, List.any_cons, inductionHypothesis, next.replace, starts next,
              ends next, starts here, ends here]
      rw [conflictingReplacements, conflictingReplacements, here.replace, later,
        inductionHypothesis]

/-- What a component replaces. -/
def replacedPieces (groups : List Group) : List (String × Nat × Nat × Option Text) :=
  (groups.filter Group.replace).map Group.piece

/-- A component which stays for review replaces nothing. -/
theorem replacedPieces_unresolved {groups : List Group}
    (reviewed : ∀ group ∈ groups, group.finding.dismissed = true → group.replace = false) :
    replacedPieces (groups.map fun group =>
      if group.finding.dismissed then group else group.unresolved) = [] := by
  rw [replacedPieces, List.map_eq_nil_iff, List.filter_eq_nil_iff]
  intro result member replaced
  obtain ⟨group, inGroups, rfl⟩ := List.mem_map.mp member
  split_ifs at replaced with dismissed
  · rw [reviewed group inGroups dismissed] at replaced
    cases replaced
  · cases replaced

/-- Groups which are aligned replace the same. -/
theorem replacedPieces_eq {first second : List Group}
    (aligned : List.Forall₂ Aligned first second) :
    replacedPieces first = replacedPieces second := by
  induction aligned with
  | nil => rfl
  | @cons group group' _ _ here _ inductionHypothesis =>
      rw [replacedPieces, replacedPieces, List.filter_cons, List.filter_cons, here.replace]
      split_ifs
      · rw [List.map_cons, List.map_cons, here.piece]
        exact congrArg _ inductionHypothesis
      · exact inductionHypothesis

/-- Aligned components replace the same. -/
theorem replacedPieces_settleComponent {first second : List Group}
    (aligned : List.Forall₂ Aligned first second) :
    replacedPieces (settleComponent first) = replacedPieces (settleComponent second) := by
  rw [settleComponent, settleComponent, conflictingReplacements_aligned aligned,
    aligned.length_eq]
  split_ifs
  · rw [replacedPieces_unresolved, replacedPieces_unresolved]
    · intro group member
      obtain ⟨_, _, here⟩ := exists_of_forall₂_right aligned member
      exact here.secondDismissed
    · intro group member
      obtain ⟨_, _, here⟩ := exists_of_forall₂_left aligned member
      exact here.firstDismissed
  · exact replacedPieces_eq aligned

/-- What a reviewer may dismiss is not replaced behind the check of repeated names. -/
theorem replace_marked_of_reviewed {occurrence : Occurrence}
    (reviewed : dismissible occurrence.kind occurrence.sources = true) :
    (occurrence.marked text occurrences dismissedIds).replace = false := by
  have automatic := occurrence.reviewed reviewed
  rw [Occurrence.marked]
  split
  · rfl
  · exact automatic

/-- An occurrence whose name is judged alike is aligned. -/
theorem marked_aligned {occurrence : Occurrence}
    (alike : occurrence.kind = .personName →
      conflictingName text occurrences dismissedIds occurrence.text =
        conflictingName text occurrences dismissedIds' occurrence.text) :
    Aligned (occurrence.marked text occurrences dismissedIds)
      (occurrence.marked text occurrences dismissedIds') := by
  have dismissedReviewed {ids : List String} (dismissed : occurrence.dismissedBy ids = true) :=
    ((Bool.and_eq_true _ _).mp dismissed).2
  refine ⟨by simp, ?_, fun dismissed => ?_, fun dismissed => ?_⟩
  · by_cases reviewed : dismissible occurrence.kind occurrence.sources = true
    · rw [replace_marked_of_reviewed reviewed, replace_marked_of_reviewed reviewed]
    · have undismissed (ids : List String) : occurrence.dismissedBy ids = false := by
        simp [Occurrence.dismissedBy, reviewed]
      have same : occurrence.group dismissedIds = occurrence.group dismissedIds' := by
        rw [Occurrence.group, Occurrence.group, undismissed, undismissed]
      rw [Occurrence.marked, Occurrence.marked, same]
      by_cases counts : (occurrence.group dismissedIds').countsAsPerson = true
      · simp only [Group.countsAsPerson, Bool.and_eq_true, decide_eq_true_eq] at counts
        rw [alike (entityKind_person.mp counts.1.1.1)]
      · simp [counts]
  · rw [Occurrence.dismissed_marked] at dismissed
    exact replace_marked_of_reviewed (dismissedReviewed dismissed)
  · rw [Occurrence.dismissed_marked] at dismissed
    exact replace_marked_of_reviewed (dismissedReviewed dismissed)

/-- A component whose names are judged alike replaces the same. -/
theorem replacedPieces_part {part : List Occurrence}
    (alike : ∀ occurrence ∈ part, occurrence.kind = .personName →
      conflictingName text occurrences dismissedIds occurrence.text =
        conflictingName text occurrences dismissedIds' occurrence.text) :
    replacedPieces (settleComponent (part.map (Occurrence.marked text occurrences dismissedIds))) =
      replacedPieces
        (settleComponent (part.map (Occurrence.marked text occurrences dismissedIds'))) := by
  refine replacedPieces_settleComponent ?_
  rw [List.forall₂_map_left_iff, List.forall₂_map_right_iff, List.forall₂_same]
  exact fun occurrence member => marked_aligned (alike occurrence member)

/-- What a component replaces are occurrences of it, and none which was dismissed. -/
theorem mem_replacedPieces_part {part : List Occurrence} {piece : String × Nat × Nat × Option Text}
    (replaced : piece ∈ replacedPieces
      (settleComponent (part.map (Occurrence.marked text occurrences dismissedIds)))) :
    ∃ occurrence ∈ part, piece = occurrence.piece ∧
      occurrence.dismissedBy dismissedIds = false := by
  obtain ⟨group, member, rfl⟩ := List.mem_map.mp replaced
  obtain ⟨inComponent, replace⟩ := List.mem_filter.mp member
  have image : ∃ occurrence ∈ part,
      group = occurrence.marked text occurrences dismissedIds := by
    rw [settleComponent] at inComponent
    split_ifs at inComponent
    · obtain ⟨marked, inPart, rfl⟩ := List.mem_map.mp inComponent
      obtain ⟨occurrence, here, rfl⟩ := List.mem_map.mp inPart
      split_ifs at replace ⊢ with dismissed
      · exact ⟨occurrence, here, rfl⟩
      · cases replace
    · obtain ⟨occurrence, here, rfl⟩ := List.mem_map.mp inComponent
      exact ⟨occurrence, here, rfl⟩
  obtain ⟨occurrence, here, rfl⟩ := image
  refine ⟨occurrence, here, occurrence.piece_marked, ?_⟩
  by_contra dismissed
  rw [Bool.not_eq_false] at dismissed
  rw [replace_marked_of_reviewed ((Bool.and_eq_true _ _).mp dismissed).2] at replace
  cases replace

end Marked

/-! ## Two analyses -/

section TwoAnalyses

variable {scanner : Scanner} {text namespaceText : Text} {candidates : List Candidate}
  {dismissedIds dismissedIds' : List String} {ambiguousOrganizations : List Text}
  {occurrences : List Occurrence} {analysis first second : Analysis}

theorem replacedIn_iff {occurrence : Occurrence} :
    occurrence.ReplacedIn analysis ↔
      occurrence.piece ∈ analysis.replacements.map Replacement.piece := by
  rw [Occurrence.ReplacedIn, List.mem_map]
  refine exists_congr fun replacement => and_congr_right fun _ => ?_
  simp only [Replacement.piece, Occurrence.piece, Prod.mk.injEq, eq_comm]

/-- The record of an analysis, component by component. -/
theorem pieces_eq
    (grouped : groupsOf scanner text namespaceText candidates dismissedIds
      ambiguousOrganizations = .ok (occurrences.map (Occurrence.group dismissedIds)))
    (done : buildAnalysis scanner text namespaceText candidates dismissedIds
      ambiguousOrganizations = .ok analysis) :
    analysis.replacements.map Replacement.piece =
      (spans Occurrence.start Occurrence.end occurrences).flatMap fun part =>
        replacedPieces
          (settleComponent (part.map (Occurrence.marked text occurrences dismissedIds))) := by
  obtain ⟨groups, grouped', applied, _⟩ := buildAnalysis_eq_ok done
  obtain rfl := Except.ok.inj (grouped'.symm.trans grouped)
  have pieces := applyReplacementsFrom_pieces applied
  rw [List.map_nil, List.nil_append, settledGroups_eq] at pieces
  rw [pieces]
  simp only [replacedPieces, List.filter_flatMap, List.map_flatMap]

/-- The component of an occurrence has no name which one analysis takes for several people and the
other does not. -/
def Undisturbed (text : Text) (occurrences : List Occurrence)
    (dismissedIds dismissedIds' : List String) (occurrence : Occurrence) : Prop :=
  ∀ part ∈ spans Occurrence.start Occurrence.end occurrences, occurrence ∈ part →
    ∀ other ∈ part, other.kind = .personName →
      conflictingName text occurrences dismissedIds other.text =
        conflictingName text occurrences dismissedIds' other.text

/-- What two analyses of a text agree on, whatever each of them dismisses. -/
structure Agreement (text : Text) (occurrences : List Occurrence)
    (dismissedIds dismissedIds' : List String) (first second : Analysis) : Prop where
  /-- Away from names which are judged differently, the same occurrences are replaced. -/
  undisturbed : ∀ occurrence ∈ occurrences,
    Undisturbed text occurrences dismissedIds dismissedIds' occurrence →
      (occurrence.ReplacedIn first ↔ occurrence.ReplacedIn second)
  /-- Without such names, the results are the same. -/
  whole : (∀ occurrence ∈ occurrences,
      Undisturbed text occurrences dismissedIds dismissedIds' occurrence) →
    first.text = second.text ∧ first.replacements = second.replacements
  /-- A name is judged differently only when an occurrence of it, of the local recognizer alone,
  is dismissed in exactly one of them. -/
  disturbed : ∀ name, conflictingName text occurrences dismissedIds name ≠
      conflictingName text occurrences dismissedIds' name →
    ∃ occurrence ∈ occurrences, occurrence.text = name ∧ occurrence.kind = .personName ∧
      occurrence.sources = [.localNer] ∧
      dismissedIds.contains occurrence.id ≠ dismissedIds'.contains occurrence.id

/-- The record of an analysis with some dismissals: the text is the source with the recorded
ranges exchanged, which are occurrences that were not dismissed. -/
structure Recorded (text : Text) (occurrences : List Occurrence) (dismissedIds : List String)
    (analysis : Analysis) : Prop where
  rebuilt : rebuildFrom text analysis.findings analysis.replacements 0 [] = .ok analysis.text
  kept : ∀ replacement ∈ analysis.replacements, ∃ occurrence ∈ occurrences,
    replacement.piece = occurrence.piece ∧ occurrence.dismissedBy dismissedIds = false

/-- The replacements of an analysis are of occurrences which were not dismissed. -/
theorem recorded_of_ok
    (grouped : groupsOf scanner text namespaceText candidates dismissedIds
      ambiguousOrganizations = .ok (occurrences.map (Occurrence.group dismissedIds)))
    (done : buildAnalysis scanner text namespaceText candidates dismissedIds
      ambiguousOrganizations = .ok analysis) :
    Recorded text occurrences dismissedIds analysis := by
  obtain ⟨_, _, _, rebuilt⟩ := buildAnalysis_eq_ok done
  refine ⟨rebuilt, fun replacement member => ?_⟩
  have listed := List.mem_map_of_mem (f := Replacement.piece) member
  rw [pieces_eq grouped done] at listed
  obtain ⟨part, isPart, inPart⟩ := List.mem_flatMap.mp listed
  obtain ⟨occurrence, here, same, kept⟩ := mem_replacedPieces_part inPart
  refine ⟨occurrence, ?_, same, kept⟩
  rw [← flatten_spans Occurrence.start Occurrence.end occurrences]
  exact List.mem_flatten_of_mem isPart here

/-- An occurrence away from names which are judged differently is replaced by the second analysis
when the first one replaces it. -/
theorem replacedIn_of_undisturbed
    (places : (occurrences.map fun occurrence => (occurrence.start, occurrence.end)).Nodup)
    (grouped : ∀ ids, groupsOf scanner text namespaceText candidates ids
      ambiguousOrganizations = .ok (occurrences.map (Occurrence.group ids)))
    (firstDone : buildAnalysis scanner text namespaceText candidates dismissedIds
      ambiguousOrganizations = .ok first)
    (secondDone : buildAnalysis scanner text namespaceText candidates dismissedIds'
      ambiguousOrganizations = .ok second)
    {occurrence : Occurrence} (member : occurrence ∈ occurrences)
    (undisturbed : Undisturbed text occurrences dismissedIds dismissedIds' occurrence)
    (replaced : occurrence.ReplacedIn first) : occurrence.ReplacedIn second := by
  rw [replacedIn_iff, pieces_eq (grouped dismissedIds) firstDone] at replaced
  rw [replacedIn_iff, pieces_eq (grouped dismissedIds') secondDone]
  obtain ⟨part, isPart, inPart⟩ := List.mem_flatMap.mp replaced
  obtain ⟨other, here, same, _⟩ := mem_replacedPieces_part inPart
  have inOccurrences : other ∈ occurrences := by
    rw [← flatten_spans Occurrence.start Occurrence.end occurrences]
    exact List.mem_flatten_of_mem isPart here
  obtain rfl : occurrence = other := by
    refine List.inj_on_of_nodup_map places member inOccurrences ?_
    simp only [Occurrence.piece, Prod.mk.injEq] at same
    rw [same.2.1, same.2.2.1]
  rw [replacedPieces_part (undisturbed part isPart here)] at inPart
  exact List.mem_flatMap.mpr ⟨part, isPart, inPart⟩

/-- Two analyses of one text which differ in what was dismissed agree away from person names which
one of them takes for several people and the other does not. -/
theorem dismissals_agree
    (firstDone : buildAnalysis scanner text namespaceText candidates dismissedIds
      ambiguousOrganizations = .ok first)
    (secondDone : buildAnalysis scanner text namespaceText candidates dismissedIds'
      ambiguousOrganizations = .ok second) :
    ∃ occurrences : List Occurrence,
      (∀ ids, groupsOf scanner text namespaceText candidates ids ambiguousOrganizations =
        .ok (occurrences.map (Occurrence.group ids))) ∧
      Recorded text occurrences dismissedIds first ∧
      Recorded text occurrences dismissedIds' second ∧
      Agreement text occurrences dismissedIds dismissedIds' first second := by
  obtain ⟨groups, groupedFirst, applied, _⟩ := buildAnalysis_eq_ok firstDone
  obtain ⟨groups', groupedSecond, applied', _⟩ := buildAnalysis_eq_ok secondDone
  obtain ⟨occurrences, places, grouped⟩ := groupsOf_eq_ok groupedFirst
  refine ⟨occurrences, grouped, recorded_of_ok (grouped _) firstDone,
    recorded_of_ok (grouped _) secondDone, ?_, fun undisturbed => ?_,
    fun name => dismissed_of_conflictingName_ne⟩
  · intro occurrence member undisturbed
    have reversed : Undisturbed text occurrences dismissedIds' dismissedIds occurrence :=
      fun part isPart here other inPart person =>
        (undisturbed part isPart here other inPart person).symm
    exact ⟨replacedIn_of_undisturbed places grouped firstDone secondDone member undisturbed,
      replacedIn_of_undisturbed places grouped secondDone firstDone member reversed⟩
  · obtain rfl := Except.ok.inj (groupedFirst.symm.trans (grouped dismissedIds))
    obtain rfl := Except.ok.inj (groupedSecond.symm.trans (grouped dismissedIds'))
    have same : replacedPieces (settledGroups text (occurrences.map (Occurrence.group dismissedIds))) =
        replacedPieces (settledGroups text (occurrences.map (Occurrence.group dismissedIds'))) := by
      rw [settledGroups_eq, settledGroups_eq]
      simp only [replacedPieces, List.filter_flatMap, List.map_flatMap]
      refine List.flatMap_congr fun part isPart => ?_
      refine replacedPieces_part fun occurrence here => ?_
      have member : occurrence ∈ occurrences := by
        rw [← flatten_spans Occurrence.start Occurrence.end occurrences]
        exact List.mem_flatten_of_mem isPart here
      exact undisturbed occurrence member part isPart here occurrence here
    rw [applyReplacements, applyReplacementsFrom_congr same, ← applyReplacements, applied',
      Except.ok.injEq, Prod.mk.injEq] at applied
    exact ⟨applied.1.symm, applied.2.symm⟩

end TwoAnalyses

/-! ## A name which overlaps itself -/

section Sample

/-- A text which speaks of another bearer of a name, with the name twice in three characters. -/
def sampleText : Text := "另一位明明明".toList

/-- The digests of the texts and of what the identifiers of the findings digest. -/
def sampleDigest (bytes : Octets) : String :=
  if bytes = textBytes sampleText then
    "33b3937b3805088c57b21980d74525d31e8afc55dcb74c595dfc04a5b084a488"
  else if bytes = findingMaterial "case-1".toList 3 12 .custom "一位明".toList then
    "e4726fd2c0beb455c0d5627bcb303e1871bcb74e6c401aea6fc0d52e6ab6266e"
  else if bytes = findingMaterial "case-1".toList 9 15 .personName "明明".toList then
    "efc02b2815f4889fc2b2062948acaf54bcfc99b83bc2abf14dffaa501954b0de"
  else if bytes = findingMaterial "case-1".toList 12 18 .personName "明明".toList then
    "acc8798b51ce6b4b60a76cbbf0545fed68d264428e2778c2d2f492d997f6f350"
  else "ce481d3b0e90dedd00edabd41e41badaae939e276317aa3e9998855568825d68"

/-- The scanner of the sample finds no risk. -/
def sampleScanner : Scanner where
  sha256Hex := sampleDigest
  residualRisk _ _ := .ok false

/-- The local recognizer reports the second of the names, the dictionary a term which overlaps the
first one, and the model the first one. -/
def sampleCandidates : List Candidate :=
  [⟨12, 18, .personName, .localNer, "[PERSON_njobbjaocp]".toList, false, true, Candidate.ruled_of_false⟩,
    ⟨3, 12, .custom, .dictionary, "[NOTE]".toList, false, true, Candidate.ruled_of_false⟩,
    ⟨9, 15, .personName, .ai, "[PERSON_njobbjaocp]".toList, false, true, Candidate.ruled_of_false⟩]

/-- The identifier of the name which only the local recognizer reports. -/
def sampleId : String := "fnd_acc8798b51ce6b4b60a76cbbf0545fed"

/-- The analysis of the sample. -/
def sampleAnalysis (dismissedIds : List String) : Except TextError Analysis :=
  buildAnalysis sampleScanner sampleText "case-1".toList sampleCandidates dismissedIds []

/-- The two analyses of the sample agree away from its name. -/
theorem dismissals_agree_for_sample :
    ∃ first second occurrences, sampleAnalysis [] = .ok first ∧
      sampleAnalysis [sampleId] = .ok second ∧
      Agreement sampleText occurrences [] [sampleId] first second := by
  have firstRun : ((sampleAnalysis []).toOption.any fun _ => true) = true := by decide
  have secondRun : ((sampleAnalysis [sampleId]).toOption.any fun _ => true) = true := by
    decide
  obtain ⟨first, firstDone, _⟩ := any_toOption firstRun
  obtain ⟨second, secondDone, _⟩ := any_toOption secondRun
  obtain ⟨occurrences, _, _, _, agreement⟩ := dismissals_agree firstDone secondDone
  exact ⟨first, second, occurrences, firstDone, secondDone, agreement⟩

/-- The dictionary term is replaced while the name stays for review, and is not any more once the
reviewer dismisses the occurrence behind it, which it does not overlap. -/
theorem dismissal_turns_off_a_dictionary_replacement :
    ∃ first second, sampleAnalysis [] = .ok first ∧ sampleAnalysis [sampleId] = .ok second ∧
      sampleId = findingId sampleDigest "case-1".toList 12 18 .personName "明明".toList ∧
      (first.findings.any fun finding => finding.id = sampleId && finding.source = "local_ner") =
        true ∧
      first.text = "另[NOTE]明明".toList ∧ second.text = sampleText ∧
      first.replacements.map (fun replacement =>
        (replacement.sourceStart, replacement.sourceEnd)) = [(3, 12)] ∧
      second.replacements = [] := by
  have firstRun : ((sampleAnalysis []).toOption.any fun first =>
      (first.findings.any fun finding => finding.id = sampleId && finding.source = "local_ner") &&
        first.text = "另[NOTE]明明".toList && first.replacements.map (fun replacement =>
          (replacement.sourceStart, replacement.sourceEnd)) = [(3, 12)]) = true := by
    decide
  have secondRun : ((sampleAnalysis [sampleId]).toOption.any fun second =>
      second.text = sampleText && second.replacements = []) = true := by
    decide
  obtain ⟨first, firstDone, firstFacts⟩ := any_toOption firstRun
  obtain ⟨second, secondDone, secondFacts⟩ := any_toOption secondRun
  simp only [Bool.and_eq_true, decide_eq_true_eq] at firstFacts secondFacts
  obtain ⟨⟨listed, firstText⟩, firstPieces⟩ := firstFacts
  exact ⟨first, second, firstDone, secondDone, by decide, listed, firstText, secondFacts.1,
    firstPieces, secondFacts.2⟩

end Sample

end LawyerAssistance.PrivacyText

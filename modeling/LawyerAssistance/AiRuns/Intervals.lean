import LawyerAssistance.AiRuns.Containment
import LawyerAssistance.Std.Intervals

/-!
# Canonical unit ranges

A request lists unit ranges in any order, and the service sorts and merges them. The merged ranges
are the only ones with gaps between them which cover the same units, so requests which cover the
same units of each source have the same canonical selections.
-/

namespace LawyerAssistance.AiRuns

open Intervals

/-! ## Units -/

section Units

variable {ranges others canonical rest : List AiContextUnitRange}
  {range previous : AiContextUnitRange} {number : Nat}

/-- The units of ranges. -/
abbrev CoveredUnits (ranges : List AiContextUnitRange) (number : Nat) : Prop :=
  Covered AiContextUnitRange.start AiContextUnitRange.end ranges number

/-- Ranges in order, with gaps between them. -/
abbrev SeparatedRanges (ranges : List AiContextUnitRange) : Prop :=
  Separated AiContextUnitRange.start AiContextUnitRange.end ranges

/-- The ends of a range are numbers of 32 bits. -/
def AiContextUnitRange.Fits (range : AiContextUnitRange) : Prop :=
  range.start < 2 ^ 32 ∧ range.end < 2 ^ 32

/-- A range which a request can have. -/
structure AiContextUnitRange.Valid (range : AiContextUnitRange) : Prop where
  positive : 0 < range.start
  ordered : range.start ≤ range.end

/-- Ranges are determined by their units and their gaps. -/
theorem separatedRanges_ext (separated : SeparatedRanges ranges) (separated' : SeparatedRanges others)
    (same : ∀ number, CoveredUnits ranges number ↔ CoveredUnits others number) :
    ranges = others := by
  refine separated.ext (fun {item other} starts stops => ?_) separated' same
  cases item
  cases other
  cases starts
  cases stops
  rfl

/-! ## The loop -/

/-- The ranges which are merged so far, the last of them first, which start before the others. -/
structure Merging (merged rest : List AiContextUnitRange) : Prop where
  separated : SeparatedRanges merged.reverse
  positive : ∀ range ∈ merged, 0 < range.start
  before : ∀ {previous}, merged.head? = some previous →
    ∀ range ∈ rest, previous.start ≤ range.start

theorem coveredUnits_cons : CoveredUnits (range :: rest) number ↔
    (range.start ≤ number ∧ number ≤ range.end) ∨ CoveredUnits rest number :=
  covered_cons

theorem coveredUnits_reverse : CoveredUnits ranges.reverse number ↔ CoveredUnits ranges number :=
  covered_congr fun _ => List.mem_reverse

/-- A range extends the last one, or is put behind a gap. -/
theorem Merging.step (merging : Merging ranges (range :: rest)) (valid : range.Valid)
    (fits : range.Fits) (later : ∀ next ∈ rest, range.start ≤ next.start) :
    Merging (normalizeContextIntervals.extendIntervals ranges range) rest ∧
      ∀ number, CoveredUnits (normalizeContextIntervals.extendIntervals ranges range) number ↔
        CoveredUnits ranges number ∨ (range.start ≤ number ∧ number ≤ range.end) := by
  obtain ⟨separated, positive, before⟩ := merging
  cases ranges with
  | nil =>
      have single : normalizeContextIntervals.extendIntervals [] range = [range] := rfl
      rw [single]
      refine ⟨⟨⟨?_, List.pairwise_singleton _ _⟩, ?_, ?_⟩, fun number => ?_⟩
      · simpa using valid.ordered
      · simpa using valid.positive
      · intro _ head
        cases head
        exact later
      · rw [coveredUnits_cons, or_comm]
  | cons previous merged =>
      have starts : previous.start ≤ range.start := before rfl range List.mem_cons_self
      rw [List.reverse_cons] at separated
      have ordered : previous.start ≤ previous.end := separated.ordered previous (by simp)
      have gaps := List.pairwise_append.mp separated.gaps
      rw [normalizeContextIntervals.extendIntervals]
      split_ifs with touches
      · refine ⟨⟨?_, ?_, ?_⟩, fun number => ?_⟩
        · rw [List.reverse_cons]
          refine ⟨fun item member => ?_, List.pairwise_append.mpr
            ⟨gaps.1, List.pairwise_singleton _ _, fun item inMerged other isLast => ?_⟩⟩
          · obtain inMerged | isLast := List.mem_append.mp member
            · exact separated.ordered item (List.mem_append_left _ inMerged)
            · rw [List.mem_singleton.mp isLast]
              exact ordered.trans (Nat.le_max_left _ _)
          · rw [List.mem_singleton.mp isLast]
            exact gaps.2.2 item inMerged previous (List.mem_singleton_self _)
        · exact List.forall_mem_cons.mpr (List.forall_mem_cons.mp positive)
        · intro _ head
          cases head
          exact fun next member => starts.trans (later next member)
        · rw [coveredUnits_cons, coveredUnits_cons, or_right_comm]
          refine or_congr_left ?_
          -- Two ranges which touch cover what lies between their ends.
          dsimp only
          omega
      · have apart : previous.end + 1 < range.start := by
          have bounded := fits.1
          omega
        refine ⟨⟨?_, List.forall_mem_cons.mpr ⟨valid.positive, positive⟩, ?_⟩, fun number => ?_⟩
        · rw [List.reverse_cons, List.reverse_cons]
          refine ⟨fun item member => ?_, List.pairwise_append.mpr
            ⟨separated.gaps, List.pairwise_singleton _ _, fun item inMerged other isLast => ?_⟩⟩
          · obtain inMerged | isLast := List.mem_append.mp member
            · exact separated.ordered item inMerged
            · rw [List.mem_singleton.mp isLast]
              exact valid.ordered
          · rw [List.mem_singleton.mp isLast]
            obtain inMerged | isPrevious := List.mem_append.mp inMerged
            · have gap := gaps.2.2 item inMerged previous (List.mem_singleton_self _)
              rw [Gap] at gap ⊢
              omega
            · rw [List.mem_singleton.mp isPrevious]
              exact apart
        · intro _ head
          cases head
          exact later
        · rw [@coveredUnits_cons _ range, or_comm]

/-- The whole loop merges sorted ranges. -/
theorem Merging.run (merging : Merging ranges rest)
    (sorted : rest.Pairwise fun first second => first.start ≤ second.start)
    (valid : ∀ range ∈ rest, range.Valid) (fits : ∀ range ∈ rest, range.Fits) :
    Merging (rest.foldl normalizeContextIntervals.extendIntervals ranges) [] ∧
      ∀ number, CoveredUnits (rest.foldl normalizeContextIntervals.extendIntervals ranges) number ↔
        CoveredUnits ranges number ∨ CoveredUnits rest number := by
  induction rest generalizing ranges with
  | nil => exact ⟨merging, fun number => by simp [covered_nil]⟩
  | cons range rest inductionHypothesis =>
      obtain ⟨later, sorted⟩ := List.pairwise_cons.mp sorted
      obtain ⟨validRange, validRest⟩ := List.forall_mem_cons.mp valid
      obtain ⟨fitsRange, fitsRest⟩ := List.forall_mem_cons.mp fits
      obtain ⟨merged, covers⟩ := merging.step validRange fitsRange later
      obtain ⟨final, coversAll⟩ := inductionHypothesis merged sorted validRest fitsRest
      refine ⟨final, fun number => ?_⟩
      rw [List.foldl_cons, coversAll, covers, coveredUnits_cons, or_assoc]

/-! ## Normalisation -/

/-- Valid ranges are accepted, and only they: the result has their units, with gaps. -/
theorem normalizeContextIntervals_eq_ok (fits : ∀ range ∈ ranges, range.Fits) :
    normalizeContextIntervals ranges = .ok canonical ↔
      (∀ range ∈ ranges, range.Valid) ∧ SeparatedRanges canonical ∧
        (∀ range ∈ canonical, 0 < range.start) ∧
        ∀ number, CoveredUnits canonical number ↔ CoveredUnits ranges number := by
  have admitted : ¬ (∃ range ∈ ranges, range.start = 0 ∨ range.end < range.start) ↔
      ∀ range ∈ ranges, range.Valid := by
    simp only [not_exists, not_and, not_or, Nat.not_lt]
    exact forall₂_congr fun range _ =>
      ⟨fun ⟨positive, ordered⟩ => ⟨Nat.pos_of_ne_zero positive, ordered⟩,
        fun valid => ⟨Nat.ne_of_gt valid.positive, valid.ordered⟩⟩
  rw [normalizeContextIntervals, refuseIf_bind_eq_ok, admitted]
  refine and_congr_right fun valid => ?_
  generalize sorting : ranges.insertionSort (fun left right =>
    toLex (left.start, left.end) ≤ toLex (right.start, right.end)) = sorted
  have perm : sorted.Perm ranges := sorting ▸ List.perm_insertionSort _ _
  have inOrder : sorted.Pairwise fun first second => first.start ≤ second.start := by
    have total : Std.Total fun left right : AiContextUnitRange =>
        toLex (left.start, left.end) ≤ toLex (right.start, right.end) := ⟨fun _ _ => le_total _ _⟩
    have trans : IsTrans AiContextUnitRange fun left right =>
        toLex (left.start, left.end) ≤ toLex (right.start, right.end) := ⟨fun _ _ _ => le_trans⟩
    rw [← sorting]
    refine (List.pairwise_insertionSort _ _).imp fun {left right} less => ?_
    obtain less | ⟨same, _⟩ := Prod.Lex.toLex_le_toLex.mp less
    · exact Nat.le_of_lt less
    · exact Nat.le_of_eq same
  have start : Merging [] sorted := ⟨⟨nofun, .nil⟩, nofun, nofun⟩
  obtain ⟨⟨separated, positive, _⟩, covers⟩ := start.run inOrder
    (fun range member => valid range (perm.mem_iff.mp member))
    (fun range member => fits range (perm.mem_iff.mp member))
  have coversRanges (number : Nat) : CoveredUnits
      (sorted.foldl normalizeContextIntervals.extendIntervals []).reverse number ↔
        CoveredUnits ranges number := by
    rw [coveredUnits_reverse, covers, or_iff_right covered_nil]
    exact covered_congr fun _ => perm.mem_iff
  constructor
  · intro returned
    rw [← Except.ok.inj returned]
    exact ⟨separated, fun range member => positive range (List.mem_reverse.mp member), coversRanges⟩
  · rintro ⟨separated', _, coversRanges'⟩
    rw [separatedRanges_ext separated' separated fun number =>
      (coversRanges' number).trans (coversRanges number).symm]
    rfl

/-- The canonical ranges fit where the ranges do. -/
theorem fits_of_normalizeContextIntervals (fits : ∀ range ∈ ranges, range.Fits)
    (accepted : normalizeContextIntervals ranges = .ok canonical) :
    ∀ range ∈ canonical, range.Fits := by
  obtain ⟨_, separated, _, covers⟩ := (normalizeContextIntervals_eq_ok fits).mp accepted
  intro range member
  have ordered := separated.ordered range member
  have below (number : Nat) (above : range.start ≤ number) (inside : number ≤ range.end) :
      number < 2 ^ 32 := by
    obtain ⟨original, among, _, within⟩ := (covers number).mp ⟨range, member, above, inside⟩
    exact Nat.lt_of_le_of_lt within (fits original among).2
  exact ⟨below _ (Nat.le_refl _) ordered, below _ ordered (Nat.le_refl _)⟩

end Units

/-! ## Selections -/

section Selections

variable {services : Services} {materials : List AiMaterialReference} {attachmentIds : List String}
  {supplied supplied' grouped grouped' next : List AiContextRangeSelection}
  {range item item' canonical canonical' : AiContextRangeSelection} {expected : List RangeKey}

/-- The ranges which a request lists for a source. -/
def suppliedRanges (supplied : List AiContextRangeSelection) (key : RangeKey) :
    List AiContextUnitRange :=
  (supplied.filter fun entry => entry.key == key).flatMap AiContextRangeSelection.ranges

/-- Requests which cover the same units of each source, by one inspection of it. -/
structure SameUnits (supplied supplied' : List AiContextRangeSelection) : Prop where
  empty : supplied = [] ↔ supplied' = []
  mode : ∀ entry ∈ supplied, ∀ entry' ∈ supplied', entry.key = entry'.key → entry.mode = entry'.mode
  inspection : ∀ entry ∈ supplied, ∀ entry' ∈ supplied', entry.key = entry'.key →
    entry.mode ≠ "all" → entry.inspectionHash = entry'.inspectionHash
  units : ∀ key number, CoveredUnits (suppliedRanges supplied key) number ↔
    CoveredUnits (suppliedRanges supplied' key) number

theorem SameUnits.symm (same : SameUnits supplied supplied') : SameUnits supplied' supplied where
  empty := same.empty.symm
  mode entry member entry' member' keys := (same.mode entry' member' entry member keys.symm).symm
  inspection entry member entry' member' keys partial_ := by
    have modes := same.mode entry' member' entry member keys.symm
    exact (same.inspection entry' member' entry member keys.symm (modes ▸ partial_)).symm
  units key number := (same.units key number).symm

theorem suppliedRanges_append {key : RangeKey} : suppliedRanges (supplied ++ supplied') key =
    suppliedRanges supplied key ++ suppliedRanges supplied' key := by
  rw [suppliedRanges, List.filter_append, List.flatMap_append]
  rfl

theorem suppliedRanges_singleton {key : RangeKey} :
    suppliedRanges [range] key = if range.key = key then range.ranges else [] := by
  by_cases same : range.key = key
  · simp [suppliedRanges, same]
  · simp [suppliedRanges, same]

/-- The selections of a request are grouped by source. -/
structure Grouping (supplied grouped : List AiContextRangeSelection) : Prop where
  once : (grouped.map AiContextRangeSelection.key).Nodup
  ranges : ∀ item ∈ grouped, item.ranges = suppliedRanges supplied item.key
  agrees : ∀ item ∈ grouped, ∀ entry ∈ supplied, entry.key = item.key →
    entry.mode = item.mode ∧ entry.inspectionHash = item.inspectionHash
  given : ∀ item ∈ grouped, ∃ entry ∈ supplied, entry.key = item.key
  complete : ∀ entry ∈ supplied, ∃ item ∈ grouped, item.key = entry.key

theorem grouping_nil : Grouping [] [] where
  once := List.nodup_nil
  ranges _ member := absurd member List.not_mem_nil
  agrees _ member := absurd member List.not_mem_nil
  given _ member := absurd member List.not_mem_nil
  complete _ member := absurd member List.not_mem_nil

/-- A selection is put to the group of its source. -/
theorem Grouping.step (grouping : Grouping supplied grouped)
    (put : groupRange expected grouped range = .ok next) : Grouping (supplied ++ [range]) next := by
  obtain ⟨_, put⟩ := refuseIf_bind_eq_ok.mp put
  split at put
  · next existing found =>
      obtain ⟨agrees, put⟩ := refuseIf_bind_eq_ok.mp put
      rw [not_or, not_not, not_not] at agrees
      cases put
      have present := List.mem_of_find?_eq_some found
      have key : existing.key = range.key := by simpa using List.find?_some found
      -- What a group becomes: the group of the source is longer, the others are what they were.
      have grown {item} (member : item ∈ grouped.map fun item =>
          if item.key = range.key then { item with ranges := item.ranges ++ range.ranges }
          else item) : ∃ before ∈ grouped, before.key = item.key ∧ before.mode = item.mode ∧
            before.inspectionHash = item.inspectionHash ∧ item.ranges = before.ranges ++
              suppliedRanges [range] before.key := by
        obtain ⟨before, among, rfl⟩ := List.mem_map.mp member
        refine ⟨before, among, ?_⟩
        rw [suppliedRanges_singleton]
        split_ifs with same other other
        · exact ⟨rfl, rfl, rfl, rfl⟩
        · exact absurd same.symm other
        · exact absurd other.symm same
        · exact ⟨rfl, rfl, rfl, (List.append_nil _).symm⟩
      refine ⟨?_, fun item member => ?_, fun item member entry among keys => ?_,
        fun item member => ?_, fun entry among => ?_⟩
      · rw [List.map_map]
        refine (List.map_congr_left fun item _ => ?_) ▸ grouping.once
        rw [Function.comp_apply]
        split_ifs <;> rfl
      · obtain ⟨before, among, sameKey, _, _, ranges⟩ := grown member
        rw [ranges, suppliedRanges_append, grouping.ranges before among, sameKey]
      · obtain ⟨before, amongGroups, sameKey, mode, inspection, _⟩ := grown member
        rw [← mode, ← inspection]
        rw [← sameKey] at keys
        obtain among | isNew := List.mem_append.mp among
        · exact grouping.agrees before amongGroups entry among keys
        · obtain rfl := List.mem_singleton.mp isNew
          obtain rfl := List.inj_on_of_nodup_map grouping.once present amongGroups
            (key.trans keys)
          exact ⟨agrees.1.symm, agrees.2.symm⟩
      · obtain ⟨before, among, sameKey, _⟩ := grown member
        obtain ⟨entry, amongSupplied, keys⟩ := grouping.given before among
        exact ⟨entry, List.mem_append_left _ amongSupplied, keys.trans sameKey⟩
      · have kept {before} (among : before ∈ grouped) : ∃ item ∈ grouped.map fun item =>
            if item.key = range.key then { item with ranges := item.ranges ++ range.ranges }
            else item, item.key = before.key := by
          refine ⟨_, List.mem_map_of_mem among, ?_⟩
          split_ifs <;> rfl
        obtain among | isNew := List.mem_append.mp among
        · obtain ⟨before, amongGroups, keys⟩ := grouping.complete entry among
          rw [← keys]
          exact kept amongGroups
        · obtain rfl := List.mem_singleton.mp isNew
          exact key ▸ kept present
  · next absent =>
      cases put
      have other (item) (member : item ∈ grouped) : item.key ≠ range.key := by
        simpa using List.find?_eq_none.mp absent item member
      have fresh (entry) (among : entry ∈ supplied) : entry.key ≠ range.key := by
        obtain ⟨item, member, keys⟩ := grouping.complete entry among
        exact keys ▸ other item member
      have none : suppliedRanges supplied range.key = [] := by
        rw [suppliedRanges, List.filter_eq_nil_iff.mpr fun entry among => by
          simpa using fresh entry among]
        rfl
      refine ⟨?_, fun item member => ?_, fun item member entry among keys => ?_,
        fun item member => ?_, fun entry among => ?_⟩
      · rw [List.map_append, List.map_singleton]
        refine List.nodup_append.mpr ⟨grouping.once, List.nodup_singleton _, ?_⟩
        rintro _ inGrouped _ isNew rfl
        obtain ⟨item, member, same⟩ := List.mem_map.mp inGrouped
        exact other item member (same.trans (List.mem_singleton.mp isNew))
      · rw [suppliedRanges_append, suppliedRanges_singleton]
        obtain inGrouped | isNew := List.mem_append.mp member
        · rw [if_neg (other item inGrouped).symm, List.append_nil]
          exact grouping.ranges item inGrouped
        · obtain rfl := List.mem_singleton.mp isNew
          rw [if_pos rfl, none, List.nil_append]
      · obtain inGrouped | isNew := List.mem_append.mp member
        · obtain among | isNew := List.mem_append.mp among
          · exact grouping.agrees item inGrouped entry among keys
          · exact absurd (List.mem_singleton.mp isNew ▸ keys.symm) (other item inGrouped)
        · obtain rfl := List.mem_singleton.mp isNew
          obtain among | same := List.mem_append.mp among
          · exact absurd keys (fresh entry among)
          · rw [List.mem_singleton.mp same]
            exact ⟨rfl, rfl⟩
      · obtain inGrouped | isNew := List.mem_append.mp member
        · obtain ⟨entry, among, keys⟩ := grouping.given item inGrouped
          exact ⟨entry, List.mem_append_left _ among, keys⟩
        · exact ⟨range, List.mem_append_right _ (List.mem_singleton_self _),
            (List.mem_singleton.mp isNew) ▸ rfl⟩
      · obtain among | isNew := List.mem_append.mp among
        · obtain ⟨item, member, keys⟩ := grouping.complete entry among
          exact ⟨item, List.mem_append_left _ member, keys⟩
        · exact ⟨range, List.mem_append_right _ (List.mem_singleton_self _),
            (List.mem_singleton.mp isNew) ▸ rfl⟩

/-- All selections of a request are grouped. -/
theorem Grouping.run {seen : List AiContextRangeSelection} (grouping : Grouping seen grouped)
    (put : supplied.foldlM (groupRange expected) grouped = .ok next) :
    Grouping (seen ++ supplied) next := by
  induction supplied generalizing seen grouped with
  | nil =>
      cases put
      rwa [List.append_nil]
  | cons range rest inductionHypothesis =>
      rw [List.foldlM_cons] at put
      obtain ⟨middle, first, put⟩ := bind_eq_ok.mp put
      rw [List.append_cons]
      exact inductionHypothesis (grouping.step first) put

/-- The groups are of the expected sources, each of them. -/
theorem mem_keys_of_complete (put : supplied.foldlM (groupRange expected) [] = .ok grouped)
    (complete : grouped.length = expected.dedup.length) (key : RangeKey) :
    key ∈ grouped.map AiContextRangeSelection.key ↔ key ∈ expected := by
  obtain ⟨once, within⟩ := foldlM_groupRange_keys put List.nodup_nil fun _ member => nomatch member
  have subset : grouped.map AiContextRangeSelection.key ⊆ expected.dedup := by
    intro key member
    obtain ⟨item, among, rfl⟩ := List.mem_map.mp member
    exact List.mem_dedup.mpr (within item among)
  have perm : (grouped.map AiContextRangeSelection.key).Perm expected.dedup :=
    (List.subperm_of_subset once subset).perm_of_length_le (by rw [List.length_map, complete])
  rw [perm.mem_iff, List.mem_dedup]

/-- Groups which cover the same units have one canonical selection. -/
theorem canonicalRange_congr (keys : item.key = item'.key) (modes : item.mode = item'.mode)
    (inspections : item.mode ≠ "all" → item.inspectionHash = item'.inspectionHash)
    (units : ∀ number, CoveredUnits item.ranges number ↔ CoveredUnits item'.ranges number)
    (fits : ∀ range ∈ item.ranges, range.Fits) (fits' : ∀ range ∈ item'.ranges, range.Fits)
    (done : canonicalRange services item = .ok canonical)
    (done' : canonicalRange services item' = .ok canonical') : canonical = canonical' := by
  obtain ⟨kind, id, source, mode, ranges, inspection⟩ := item
  obtain ⟨kind', id', source', mode', ranges', inspection'⟩ := item'
  simp only [AiContextRangeSelection.key, Prod.mk.injEq] at keys
  obtain ⟨rfl, rfl, rfl⟩ := keys
  obtain rfl : mode = mode' := modes
  by_cases all : mode = "all"
  · rw [canonicalRange, if_pos all] at done done'
    obtain ⟨empty, done⟩ := refuseIf_bind_eq_ok.mp done
    obtain ⟨empty', done'⟩ := refuseIf_bind_eq_ok.mp done'
    rw [not_not] at empty empty'
    cases done
    cases done'
    dsimp only at empty empty' ⊢
    rw [empty, empty']
  · obtain rfl : inspection = inspection' := inspections all
    rw [canonicalRange, if_neg all] at done done'
    obtain ⟨_, done⟩ := refuseIf_bind_eq_ok.mp done
    obtain ⟨_, done'⟩ := refuseIf_bind_eq_ok.mp done'
    obtain ⟨merged, normalized, done⟩ := bind_eq_ok.mp done
    obtain ⟨merged', normalized', done'⟩ := bind_eq_ok.mp done'
    obtain ⟨_, separated, _, covers⟩ := (normalizeContextIntervals_eq_ok fits).mp normalized
    obtain ⟨_, separated', _, covers'⟩ := (normalizeContextIntervals_eq_ok fits').mp normalized'
    obtain rfl := separatedRanges_ext separated separated' fun number =>
      ((covers number).trans (units number)).trans (covers' number).symm
    obtain ⟨_, inspected, done⟩ := bind_eq_ok.mp done
    obtain ⟨_, inspected', done'⟩ := bind_eq_ok.mp done'
    obtain ⟨_, done⟩ := refuseIf_bind_eq_ok.mp done
    obtain ⟨_, done'⟩ := refuseIf_bind_eq_ok.mp done'
    cases done
    cases done'
    rfl

/-- A request whose numbers are of 32 bits. -/
def RangesFit (supplied : List AiContextRangeSelection) : Prop :=
  ∀ entry ∈ supplied, ∀ range ∈ entry.ranges, range.Fits

theorem fits_of_mem_suppliedRanges (fits : RangesFit supplied) {key : RangeKey} :
    ∀ range ∈ suppliedRanges supplied key, range.Fits := by
  intro range member
  obtain ⟨entry, among, inRanges⟩ := List.mem_flatMap.mp member
  exact fits entry (List.mem_of_mem_filter among) range inRanges

/-- The canonical selections of a request are among those of a request with the same units. -/
theorem mem_canonical_of_sameUnits (same : SameUnits supplied supplied') (fits : RangesFit supplied)
    (fits' : RangesFit supplied') {selections selections' : List AiContextRangeSelection}
    (put : supplied.foldlM (groupRange expected) [] = .ok grouped)
    (put' : supplied'.foldlM (groupRange expected) [] = .ok grouped')
    (complete : grouped.length = expected.dedup.length)
    (complete' : grouped'.length = expected.dedup.length)
    (done : (sortRanges grouped).mapM (canonicalRange services) = .ok selections)
    (done' : (sortRanges grouped').mapM (canonicalRange services) = .ok selections')
    (member : canonical ∈ selections) : canonical ∈ selections' := by
  have none : Grouping [] [] := ⟨List.nodup_nil, nofun, nofun, nofun, nofun⟩
  have grouping : Grouping supplied grouped := none.run put
  have grouping' : Grouping supplied' grouped' := none.run put'
  obtain ⟨item, sorted, isCanonical⟩ := exists_of_forall₂_right (mapM_eq_ok done) member
  have among := (sortRanges_perm _).mem_iff.mp sorted
  have named := (mem_keys_of_complete put' complete' item.key).mpr
    ((mem_keys_of_complete put complete item.key).mp (List.mem_map_of_mem among))
  obtain ⟨item', among', keys⟩ := List.mem_map.mp named
  obtain ⟨canonical', member', isCanonical'⟩ := exists_of_forall₂_left (mapM_eq_ok done')
    ((sortRanges_perm _).mem_iff.mpr among')
  obtain ⟨entry, inSupplied, entryKey⟩ := grouping.given item among
  obtain ⟨entry', inSupplied', entryKey'⟩ := grouping'.given item' among'
  obtain ⟨mode, inspection⟩ := grouping.agrees item among entry inSupplied entryKey
  obtain ⟨mode', inspection'⟩ := grouping'.agrees item' among' entry' inSupplied' entryKey'
  have entryKeys : entry.key = entry'.key := entryKey.trans (keys.symm.trans entryKey'.symm)
  have modes := same.mode entry inSupplied entry' inSupplied' entryKeys
  rw [canonicalRange_congr keys.symm (mode.symm.trans (modes.trans mode')) ?_ ?_ ?_ ?_ isCanonical
    isCanonical']
  · exact member'
  · intro partial_
    rw [← inspection, ← inspection']
    exact same.inspection entry inSupplied entry' inSupplied' entryKeys (mode ▸ partial_)
  · intro number
    rw [grouping.ranges item among, grouping'.ranges item' among', keys]
    exact same.units item.key number
  · rw [grouping.ranges item among]
    exact fits_of_mem_suppliedRanges fits
  · rw [grouping'.ranges item' among']
    exact fits_of_mem_suppliedRanges fits'

/-- Sorted selections of distinct sources are determined by their members. -/
theorem sortRanges_eq (once : (grouped.map AiContextRangeSelection.key).Nodup)
    (once' : (grouped'.map AiContextRangeSelection.key).Nodup)
    (same : ∀ item, item ∈ grouped ↔ item ∈ grouped') : sortRanges grouped = sortRanges grouped' := by
  have perm : (sortRanges grouped).Perm (sortRanges grouped') :=
    ((sortRanges_perm grouped).trans ((List.perm_ext_iff_of_nodup once.of_map once'.of_map).mpr
      same)).trans (sortRanges_perm grouped').symm
  have total : Std.Total fun left right : AiContextRangeSelection =>
      sortableKey left.key ≤ sortableKey right.key := ⟨fun _ _ => le_total _ _⟩
  have trans : IsTrans AiContextRangeSelection fun left right =>
      sortableKey left.key ≤ sortableKey right.key := ⟨fun _ _ _ => le_trans⟩
  refine perm.eq_of_pairwise (fun first second inFirst inSecond below above => ?_)
    (List.pairwise_insertionSort _ _) (List.pairwise_insertionSort _ _)
  have keys : first.key = second.key := by
    have sortable := le_antisymm below above
    obtain ⟨kinds, rest⟩ := Prod.mk.inj (toLex.injective sortable)
    obtain ⟨ids, sources⟩ := Prod.mk.inj (toLex.injective rest)
    exact Prod.ext kinds (Prod.ext ids sources)
  refine List.inj_on_of_nodup_map once ((sortRanges_perm _).mem_iff.mp inFirst) ?_ keys
  exact (same second).mpr ((sortRanges_perm _).mem_iff.mp inSecond)

/-- Requests with the same units of each source have the same canonical selections. -/
theorem canonicalContextRangesMetadata_eq (same : SameUnits supplied supplied')
    (fits : RangesFit supplied) (fits' : RangesFit supplied')
    {selections selections' : List AiContextRangeSelection}
    (accepted : canonicalContextRangesMetadata services materials attachmentIds supplied =
      .ok selections)
    (accepted' : canonicalContextRangesMetadata services materials attachmentIds supplied' =
      .ok selections') : selections = selections' := by
  obtain ⟨_, _, accepted⟩ := bind_eq_ok.mp accepted
  obtain ⟨_, _, accepted'⟩ := bind_eq_ok.mp accepted'
  split_ifs at accepted accepted' with empty empty' empty'
  · exact (Except.ok.inj accepted).symm.trans (Except.ok.inj accepted')
  · exact absurd (same.empty.mp empty) empty'
  · exact absurd (same.empty.mpr empty') empty
  · obtain ⟨grouped, put, accepted⟩ := bind_eq_ok.mp accepted
    obtain ⟨grouped', put', accepted'⟩ := bind_eq_ok.mp accepted'
    obtain ⟨complete, accepted⟩ := refuseIf_bind_eq_ok.mp accepted
    obtain ⟨complete', accepted'⟩ := refuseIf_bind_eq_ok.mp accepted'
    rw [not_not] at complete complete'
    obtain ⟨canonical, done, accepted⟩ := bind_eq_ok.mp accepted
    obtain ⟨canonical', done', accepted'⟩ := bind_eq_ok.mp accepted'
    rw [← Except.ok.inj accepted, ← Except.ok.inj accepted']
    have distinct {grouped canonical : List AiContextRangeSelection}
        (once : (grouped.map AiContextRangeSelection.key).Nodup)
        (done : (sortRanges grouped).mapM (canonicalRange services) = .ok canonical) :
        (canonical.map AiContextRangeSelection.key).Nodup := by
      rw [map_key_canonical done]
      exact ((sortRanges_perm grouped).map _).nodup_iff.mpr once
    refine sortRanges_eq (distinct (grouping_nil.run put).once done) (distinct (grouping_nil.run put').once done')
      fun item => ⟨?_, ?_⟩
    · exact mem_canonical_of_sameUnits same fits fits' put put' complete complete' done done'
    · exact mem_canonical_of_sameUnits same.symm fits' fits put' put complete' complete done' done

end Selections

/-! ## The canonical form -/

/-- Accepted ranges have one canonical form: in order, with gaps, and with their units. It is its
own canonical form, ranges with the same units have it too, and so have the selections of requests
for the same units. -/
theorem context_ranges_are_canonical :
    (∀ ranges canonical : List AiContextUnitRange, (∀ range ∈ ranges, range.Fits) →
      normalizeContextIntervals ranges = .ok canonical →
      SeparatedRanges canonical ∧
      (∀ number, CoveredUnits canonical number ↔ CoveredUnits ranges number) ∧
      normalizeContextIntervals canonical = .ok canonical ∧
      ∀ others canonical', (∀ range ∈ others, range.Fits) →
        normalizeContextIntervals others = .ok canonical' →
        (∀ number, CoveredUnits others number ↔ CoveredUnits ranges number) →
        canonical' = canonical) ∧
    ∀ services materials attachmentIds supplied supplied' selections selections',
      RangesFit supplied → RangesFit supplied' → SameUnits supplied supplied' →
      canonicalContextRangesMetadata services materials attachmentIds supplied = .ok selections →
      canonicalContextRangesMetadata services materials attachmentIds supplied' = .ok selections' →
      selections = selections' := by
  refine ⟨fun ranges canonical fits accepted => ?_, fun _ _ _ _ _ _ _ fits fits' same accepted
    accepted' => canonicalContextRangesMetadata_eq same fits fits' accepted accepted'⟩
  obtain ⟨_, separated, positive, covers⟩ := (normalizeContextIntervals_eq_ok fits).mp accepted
  refine ⟨separated, covers, ?_, fun others canonical' fits' accepted' same => ?_⟩
  · refine (normalizeContextIntervals_eq_ok (fits_of_normalizeContextIntervals fits accepted)).mpr
      ⟨fun range member => ⟨positive range member, separated.ordered range member⟩, separated,
        positive, fun _ => Iff.rfl⟩
  · obtain ⟨_, separated', _, covers'⟩ := (normalizeContextIntervals_eq_ok fits').mp accepted'
    exact separatedRanges_ext separated' separated fun number =>
      ((covers' number).trans (same number)).trans (covers number).symm

/-- Ranges which overlap or touch are one range. -/
theorem touching_ranges_are_one :
    normalizeContextIntervals [⟨6, 6⟩, ⟨1, 3⟩, ⟨2, 5⟩] = .ok [⟨1, 6⟩] ∧
      normalizeContextIntervals [⟨1, 6⟩] = .ok [⟨1, 6⟩] := by
  have fits : ∀ range ∈ ([⟨6, 6⟩, ⟨1, 3⟩, ⟨2, 5⟩] : List AiContextUnitRange), range.Fits := by
    simp [AiContextUnitRange.Fits]
  have accepted : normalizeContextIntervals [⟨6, 6⟩, ⟨1, 3⟩, ⟨2, 5⟩] = .ok [⟨1, 6⟩] := by
    decide
  obtain ⟨_, _, again, _⟩ := context_ranges_are_canonical.1 _ _ fits accepted
  exact ⟨accepted, again⟩

end LawyerAssistance.AiRuns

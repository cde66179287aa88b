import LawyerAssistance.Privacy.Deterministic
import LawyerAssistance.Std.Disjoint
import LawyerAssistance.Std.Template

/-!
# Verified replacements

`apply_verified_replacements`: the candidates of a text are grouped by their ranges, and the groups
which admit one replacement are replaced from left to right. A group is compared with those which
are replaced already, and not with those behind it.
-/

namespace LawyerAssistance.Privacy

/-! ## Groups -/

/-- The range of a candidate, which is the key of its group. -/
def FindingCandidate.range (candidate : FindingCandidate) : Nat ×ₗ Nat :=
  toLex (candidate.startOffset.toNat, candidate.endOffset.toNat)

/-- The start of a range. -/
def rangeStart (range : Nat ×ₗ Nat) : Nat := (ofLex range).1

/-- The end of a range. -/
def rangeStop (range : Nat ×ₗ Nat) : Nat := (ofLex range).2

/-- The candidates of a range. -/
def rangeGroup (candidates : List FindingCandidate) (range : Nat ×ₗ Nat) : List FindingCandidate :=
  candidates.filter fun candidate => decide (candidate.range = range)

/-- The ranges of candidates, in order. -/
def groupRanges (candidates : List FindingCandidate) : List (Nat ×ₗ Nat) :=
  sortedSet (candidates.map FindingCandidate.range)

/-- The replacement of a group which admits one. -/
def groupReplacement (group : List FindingCandidate) : Option Text :=
  if group.all (fun candidate =>
      candidate.validationPassed && candidate.automaticReplacementAllowed) then
    match sortedSet (group.filterMap FindingCandidate.proposedReplacement) with
    | [replacement] => some replacement
    | _ => none
  else none

/-- A range which is replaced. -/
structure Replaced where
  start : Nat
  stop : Nat
  replacement : Text
  deriving DecidableEq

/-- Replaced ranges, as the candidates which are marked have them. -/
def Replaced.range (replaced : Replaced) : Nat ×ₗ Nat := toLex (replaced.start, replaced.stop)

/-! ## The application -/

/-- The first loop of `apply_verified_replacements`. -/
def checkRange (text : Text) (candidate : FindingCandidate) :
    Except DeterministicDetectorError Unit :=
  refuseIf (candidate.endOffset ≤ candidate.startOffset ∨
    Text.byteLength text < candidate.endOffset.toNat) .invalidContext

/-- The second loop, over the groups behind the cursor: which ranges it replaces, and what it
returns. -/
def applyGroups (text : Text) (candidates : List FindingCandidate) :
    List (Nat ×ₗ Nat) → Nat → Text → List Replaced →
      List Replaced × Except DeterministicDetectorError Text
  | [], cursor, output, applied =>
      (applied, do
        let rest ← presentOr (Text.slice text cursor (Text.byteLength text)) .invalidContext
        pure (output ++ rest))
  | range :: ranges, cursor, output, applied =>
      if rangeStart range < cursor ∨ Text.isCharBoundary text (rangeStart range) = false ∨
          Text.isCharBoundary text (rangeStop range) = false then
        applyGroups text candidates ranges cursor output applied
      else
        match groupReplacement (rangeGroup candidates range) with
        | none => applyGroups text candidates ranges cursor output applied
        | some replacement =>
            match Text.slice text cursor (rangeStart range) with
            | none => (applied, .error .invalidContext)
            | some between =>
                applyGroups text candidates ranges (rangeStop range)
                  (output ++ between ++ replacement)
                  (applied ++ [⟨rangeStart range, rangeStop range, replacement⟩])

/-- The candidates of the ranges which are replaced are marked. -/
def markVerified (applied : List Replaced) (candidate : FindingCandidate) : FindingCandidate :=
  if candidate.range ∈ applied.map Replaced.range then
    { candidate with replacementVerified := true }
  else candidate

/-- The ranges which a call replaces, and what it returns. -/
def applyReplacements (text : Text) (candidates : List FindingCandidate) :
    List Replaced × Except DeterministicDetectorError Text :=
  match forM candidates (checkRange text) with
  | .error error => ([], .error error)
  | .ok _ => applyGroups text candidates (groupRanges candidates) 0 [] []

/-- `apply_verified_replacements`: the candidates behind the call, and what it returns. -/
def applyVerifiedReplacements (text : Text) (candidates : List FindingCandidate) :
    List FindingCandidate × Except DeterministicDetectorError Text :=
  let (applied, result) := applyReplacements text candidates
  (candidates.map (markVerified applied), result)

/-! ## Groups which are replaced -/

section Groups

variable {text : Text} {candidates others : List FindingCandidate} {range : Nat ×ₗ Nat}

/-- The replacement of a group: all its candidates admit one, and they propose it only. -/
theorem groupReplacement_eq_some {group : List FindingCandidate} {replacement : Text} :
    groupReplacement group = some replacement ↔
      (∀ candidate ∈ group, candidate.validationPassed = true ∧
        candidate.automaticReplacementAllowed = true) ∧
      (∃ candidate ∈ group, candidate.proposedReplacement = some replacement) ∧
      ∀ candidate ∈ group, ∀ other, candidate.proposedReplacement = some other →
        other = replacement := by
  have single : (match sortedSet (group.filterMap FindingCandidate.proposedReplacement) with
      | [replacement] => some replacement
      | _ => none) = some replacement ↔
        sortedSet (group.filterMap FindingCandidate.proposedReplacement) = [replacement] := by
    split
    next only same => rw [same, Option.some.injEq, List.cons.injEq, and_iff_left rfl]
    next several => exact ⟨nofun, fun same => absurd same (several replacement)⟩
  rw [groupReplacement]
  split_ifs with all
  · rw [single, sortedSet_eq_singleton]
    simp only [List.all_eq_true, Bool.and_eq_true] at all
    simp only [List.mem_filterMap, forall_exists_index, and_imp]
    constructor
    · rintro ⟨proposed, only⟩
      exact ⟨all, proposed, fun candidate among other proposes =>
        only other candidate among proposes⟩
    · rintro ⟨_, proposed, only⟩
      exact ⟨proposed, fun other candidate among proposes => only candidate among other proposes⟩
  · refine ⟨nofun, fun admits => absurd ?_ all⟩
    simp only [List.all_eq_true, Bool.and_eq_true]
    exact admits.1

theorem groupReplacement_perm {group other : List FindingCandidate} (perm : other.Perm group) :
    groupReplacement other = groupReplacement group := by
  rw [groupReplacement, groupReplacement, perm.all_eq, sortedSet_perm (perm.filterMap _)]

/-- The replacement of a range which has boundaries and admits one. -/
def admittedAt (text : Text) (candidates : List FindingCandidate) (range : Nat ×ₗ Nat) :
    Option Replaced :=
  if Text.isCharBoundary text (rangeStart range) = true ∧
      Text.isCharBoundary text (rangeStop range) = true then
    (groupReplacement (rangeGroup candidates range)).map fun replacement =>
      ⟨rangeStart range, rangeStop range, replacement⟩
  else none

/-- What is admitted at a range. -/
theorem admittedAt_eq_some {replaced : Replaced} :
    admittedAt text candidates range = some replaced ↔
      replaced.range = range ∧ Text.isCharBoundary text replaced.start = true ∧
        Text.isCharBoundary text replaced.stop = true ∧
        groupReplacement (rangeGroup candidates range) = some replaced.replacement := by
  rw [admittedAt]
  split_ifs with boundaries
  · rw [Option.map_eq_some_iff]
    constructor
    · rintro ⟨replacement, found, rfl⟩
      exact ⟨rfl, boundaries.1, boundaries.2, found⟩
    · rintro ⟨rfl, _, _, found⟩
      exact ⟨_, found, rfl⟩
  · refine ⟨nofun, ?_⟩
    rintro ⟨rfl, start, stop, _⟩
    exact absurd ⟨start, stop⟩ boundaries

end Groups

/-! ## One run -/

section Run

variable {text : Text} {candidates : List FindingCandidate}

/-- What a replaced range has of the text. -/
def original (text : Text) (replaced : Replaced) : Text :=
  (Text.slice text replaced.start replaced.stop).getD []

/-- Where a range is replaced. -/
def Replaced.place (replaced : Replaced) : Nat × Nat × Replaced :=
  (replaced.start, replaced.stop, replaced)

/-- A text with its ranges replaced, all at once: it and the text are fillings of one template, whose
holes are the ranges. -/
def Rewrites (text : Text) (applied : List Replaced) (result : Text) : Prop :=
  ∃ template : List (Segment Replaced), Segment.render (original text) template = text ∧
    Segment.render Replaced.replacement template = result ∧
    Segment.places (original text) 0 template = applied.map Replaced.place

/-- What a run has written of a text up to its cursor. -/
def RewritesTo (text : Text) (cursor : Nat) (output : Text) (applied : List Replaced) : Prop :=
  ∃ (template : List (Segment Replaced)) (rest : Text),
    text = Segment.render (original text) template ++ rest ∧
    cursor = Text.byteLength (Segment.render (original text) template) ∧
    Segment.render Replaced.replacement template = output ∧
    Segment.places (original text) 0 template = applied.map Replaced.place

variable {cursor : Nat} {output : Text} {applied : List Replaced}

/-- The rest of the text completes what a run has written. -/
theorem RewritesTo.finish (written : RewritesTo text cursor output applied) :
    ∃ rest, Text.slice text cursor (Text.byteLength text) = some rest ∧
      Rewrites text applied (output ++ rest) := by
  obtain ⟨template, rest, whole, place, filled, holes⟩ := written
  refine ⟨rest, Text.slice_eq_some.mpr ⟨_, [], by rw [List.append_nil]; exact whole, place, ?_⟩,
    template ++ [.text rest], ?_, ?_, ?_⟩
  · rw [place, ← Text.byteLength_append, ← whole]
  · rw [Segment.render_append, Segment.render_text, ← whole]
  · rw [Segment.render_append, Segment.render_text, filled]
  · rw [Segment.places_append, holes]
    exact List.append_nil _

/-- A range behind the cursor is replaced. -/
theorem RewritesTo.step (written : RewritesTo text cursor output applied) {replaced : Replaced}
    (behind : cursor ≤ replaced.start) (ordered : replaced.start < replaced.stop)
    (first : Text.isCharBoundary text replaced.start = true)
    (last : Text.isCharBoundary text replaced.stop = true) :
    ∃ between, Text.slice text cursor replaced.start = some between ∧
      RewritesTo text replaced.stop (output ++ between ++ replaced.replacement)
        (applied ++ [replaced]) := by
  obtain ⟨template, rest, whole, place, filled, holes⟩ := written
  have boundary : Text.isCharBoundary text cursor = true :=
    Text.isCharBoundary_eq_true.mpr ⟨_, rest, whole, place⟩
  obtain ⟨between, sliced⟩ := Text.exists_slice boundary first behind
  obtain ⟨part, taken⟩ := Text.exists_slice first last ordered.le
  refine ⟨between, sliced, template ++ [.text between] ++ [.hole replaced], ?_⟩
  have old : original text replaced = part := by rw [original, taken]; rfl
  obtain ⟨before, after, cut, start, length⟩ := Text.slice_eq_some.mp sliced
  obtain ⟨before', after', cut', start', length'⟩ := Text.slice_eq_some.mp taken
  obtain ⟨rfl, _⟩ : before = Segment.render (original text) template ∧ between ++ after = rest :=
    Text.append_inj_of_byteLength (by rw [← List.append_assoc, ← cut, ← whole])
      (by rw [← start, place])
  obtain ⟨same, _⟩ : before' = Segment.render (original text) template ++ between ∧ part ++ after' = after :=
    Text.append_inj_of_byteLength (by rw [← List.append_assoc, ← cut, ← cut'])
      (by rw [Text.byteLength_append]; omega)
  refine ⟨after', ?_, ?_, ?_, ?_⟩
  · simp only [Segment.render_append, Segment.render_text, Segment.render_hole, old]
    rw [← same, ← cut']
  · simp only [Segment.render_append, Segment.render_text, Segment.render_hole, old,
      Text.byteLength_append]
    omega
  · simp only [Segment.render_append, Segment.render_text, Segment.render_hole, filled]
  · rw [Segment.places_append, Segment.places_append, holes, List.map_append]
    simp only [Segment.places, Segment.render_append, Segment.render_text, old,
      Text.byteLength_append, List.append_nil, List.map_cons, List.map_nil, Replaced.place]
    rw [Nat.zero_add, ← place, ← length, ← length']

/-- A run replaces what a scan keeps of the ranges which are admitted, and does not fail. -/
theorem applyGroups_eq (candidates : List FindingCandidate) {ranges : List (Nat ×ₗ Nat)}
    (ordered : ∀ range ∈ ranges, rangeStart range < rangeStop range)
    (written : RewritesTo text cursor output applied) :
    ∃ kept result,
      kept = disjointFrom Replaced.start Replaced.stop cursor
        (ranges.filterMap (admittedAt text candidates)) ∧
      applyGroups text candidates ranges cursor output applied = (applied ++ kept, .ok result) ∧
      Rewrites text (applied ++ kept) result := by
  induction ranges generalizing cursor output applied with
  | nil =>
      obtain ⟨rest, sliced, rewrites⟩ := written.finish
      refine ⟨[], output ++ rest, rfl, ?_, ?_⟩
      · rw [applyGroups, sliced, List.append_nil]
        rfl
      · rwa [List.append_nil]
  | cons range ranges inductionHypothesis =>
      have orderedRest : ∀ range ∈ ranges, rangeStart range < rangeStop range :=
        fun range among => ordered range (List.mem_cons_of_mem _ among)
      have skip := inductionHypothesis orderedRest written
      rw [applyGroups, List.filterMap_cons]
      cases admits : admittedAt text candidates range with
      | none =>
          split_ifs with unsuitable
          · exact skip
          · simp only [not_or, Bool.not_eq_false] at unsuitable
            rw [admittedAt, if_pos unsuitable.2, Option.map_eq_none_iff] at admits
            rw [admits]
            exact skip
      | some replaced =>
          obtain ⟨rfl, first, last, found⟩ := Iff.mp admittedAt_eq_some admits
          dsimp only
          rw [disjointFrom]
          by_cases early : replaced.start < cursor
          · have unsuitable : rangeStart replaced.range < cursor ∨
                Text.isCharBoundary text (rangeStart replaced.range) = false ∨
                Text.isCharBoundary text (rangeStop replaced.range) = false := .inl early
            rw [if_pos early, if_pos unsuitable]
            exact skip
          · obtain ⟨between, sliced, next⟩ := written.step (not_lt.mp early)
              (ordered replaced.range List.mem_cons_self) first last
            obtain ⟨kept, result, same, run, rewrites⟩ := inductionHypothesis orderedRest next
            have suitable : ¬ (rangeStart replaced.range < cursor ∨
                Text.isCharBoundary text (rangeStart replaced.range) = false ∨
                Text.isCharBoundary text (rangeStop replaced.range) = false) := by
              rintro (behind | start | stop)
              · exact early behind
              · exact absurd first (ne_true_of_eq_false start)
              · exact absurd last (ne_true_of_eq_false stop)
            refine ⟨replaced :: kept, result, ?_, ?_, ?_⟩
            · rw [if_neg early, same]
            · rw [if_neg suitable, found]
              have sliced' : Text.slice text cursor (rangeStart replaced.range) = some between :=
                sliced
              rw [sliced']
              rw [List.append_cons]
              exact run
            · rwa [List.append_cons]

end Run

/-! ## Replacements of a call -/

section Call

variable {text : Text} {candidates others : List FindingCandidate} {replaced : Replaced}

/-- The range of a candidate is in the text. -/
def InText (text : Text) (candidate : FindingCandidate) : Prop :=
  candidate.startOffset < candidate.endOffset ∧
    candidate.endOffset.toNat ≤ Text.byteLength text

/-- A replacement which the group of its range admits. -/
structure Admissible (text : Text) (candidates : List FindingCandidate) (replaced : Replaced) :
    Prop where
  first : Text.isCharBoundary text replaced.start = true
  last : Text.isCharBoundary text replaced.stop = true
  proposed : ∃ candidate ∈ candidates, candidate.range = replaced.range ∧
    candidate.proposedReplacement = some replaced.replacement
  verified : ∀ candidate ∈ candidates, candidate.range = replaced.range →
    candidate.validationPassed = true ∧ candidate.automaticReplacementAllowed = true
  agreed : ∀ candidate ∈ candidates, candidate.range = replaced.range →
    ∀ other, candidate.proposedReplacement = some other → other = replaced.replacement

/-- A range which the range of no other group overlaps. -/
def Uncontested (candidates : List FindingCandidate) (replaced : Replaced) : Prop :=
  ∀ candidate ∈ candidates, candidate.startOffset.toNat < replaced.stop →
    replaced.start < candidate.endOffset.toNat → candidate.range = replaced.range

/-- What a call does of any candidates: it replaces ranges which their groups admit, marks their
candidates, and neither fails with a mark nor depends on an order. -/
structure AppliesExactly (text : Text) (candidates : List FindingCandidate) : Prop where
  rewrites : ∀ {result}, (applyVerifiedReplacements text candidates).2 = .ok result →
    Rewrites text (applyReplacements text candidates).1 result
  marks : (applyVerifiedReplacements text candidates).1 =
    candidates.map (markVerified (applyReplacements text candidates).1)
  admissible : ∀ replaced ∈ (applyReplacements text candidates).1,
    Admissible text candidates replaced
  failed : ∀ {error}, (applyVerifiedReplacements text candidates).2 = .error error →
    (applyVerifiedReplacements text candidates).1 = candidates
  unordered : ∀ {others : List FindingCandidate}, others.Perm candidates →
    applyVerifiedReplacements text others =
      (others.map (markVerified (applyReplacements text candidates).1),
        (applyVerifiedReplacements text candidates).2)

theorem Replaced.ends_eq {candidate : FindingCandidate} (same : candidate.range = replaced.range) :
    candidate.startOffset.toNat = replaced.start ∧ candidate.endOffset.toNat = replaced.stop := by
  have pairs := toLex_inj.mp same
  rw [Prod.mk.injEq] at pairs
  exact pairs

theorem checkRange_eq_ok {candidate : FindingCandidate} :
    checkRange text candidate = .ok () ↔ InText text candidate := by
  rw [checkRange, refuseIf_eq_ok, not_or, UInt32.not_le, not_lt]
  rfl

theorem checkRange_fails (text : Text) (candidate : FindingCandidate) :
    checkRange text candidate = .ok () ∨ checkRange text candidate = .error .invalidContext := by
  rw [checkRange, refuseIf]
  split_ifs
  · exact .inr rfl
  · exact .inl rfl

/-- What a group admits, of its candidates. -/
theorem admissible_iff : Admissible text candidates replaced ↔
    replaced.range ∈ groupRanges candidates ∧
      admittedAt text candidates replaced.range = some replaced := by
  rw [admittedAt_eq_some, groupReplacement_eq_some, groupRanges, mem_sortedSet, List.mem_map]
  simp only [rangeGroup, List.mem_filter, decide_eq_true_eq, and_imp]
  constructor
  · rintro ⟨first, last, ⟨candidate, among, same, proposes⟩, verified, agreed⟩
    exact ⟨⟨candidate, among, same⟩, trivial, first, last, verified,
      ⟨candidate, ⟨among, same⟩, proposes⟩, agreed⟩
  · rintro ⟨_, _, first, last, verified, ⟨candidate, ⟨among, same⟩, proposes⟩, agreed⟩
    exact ⟨first, last, ⟨candidate, among, same, proposes⟩, verified, agreed⟩

/-- A call whose ranges are in the text replaces what a scan keeps of those which are admitted. -/
theorem applyReplacements_eq (inText : ∀ candidate ∈ candidates, InText text candidate) :
    ∃ result, applyReplacements text candidates =
        (disjointFrom Replaced.start Replaced.stop 0
          ((groupRanges candidates).filterMap (admittedAt text candidates)), .ok result) ∧
      Rewrites text (applyReplacements text candidates).1 result := by
  have checked : forM candidates (checkRange text) = .ok () :=
    forM_eq_ok.mpr fun candidate among => checkRange_eq_ok.mpr (inText candidate among)
  have ordered : ∀ range ∈ groupRanges candidates, rangeStart range < rangeStop range := by
    intro range among
    obtain ⟨candidate, amongCandidates, rfl⟩ := List.mem_map.mp (mem_sortedSet.mp among)
    exact (inText candidate amongCandidates).1
  have begun : RewritesTo text 0 [] [] := ⟨[], text, rfl, rfl, rfl, rfl⟩
  obtain ⟨kept, result, same, run, rewrites⟩ := applyGroups_eq candidates ordered begun
  rw [List.nil_append] at run rewrites
  have whole : applyReplacements text candidates = (kept, .ok result) := by
    rw [applyReplacements, checked]
    exact run
  exact ⟨result, by rw [whole, same], by rw [whole]; exact rewrites⟩

theorem applyReplacements_eq_error (outside : ¬ ∀ candidate ∈ candidates, InText text candidate) :
    applyReplacements text candidates = ([], .error .invalidContext) := by
  obtain passed | failed := forM_eq_ok_or (checkRange_fails text) candidates
  · exact absurd (fun candidate among => checkRange_eq_ok.mp (forM_eq_ok.mp passed candidate among))
      outside
  · rw [applyReplacements, failed]

/-- What a call replaces is admitted. -/
theorem admissible_of_mem (among : replaced ∈ (applyReplacements text candidates).1) :
    Admissible text candidates replaced := by
  by_cases inText : ∀ candidate ∈ candidates, InText text candidate
  · obtain ⟨result, run, _⟩ := applyReplacements_eq inText
    rw [run] at among
    obtain ⟨range, amongRanges, admits⟩ := List.mem_filterMap.mp
      (disjointFrom_sublist.subset among)
    obtain ⟨rfl, _⟩ := Iff.mp admittedAt_eq_some admits
    exact admissible_iff.mpr ⟨amongRanges, admits⟩
  · rw [applyReplacements_eq_error inText] at among
    cases among

/-- A call does not depend on the order of the candidates. -/
theorem applyReplacements_perm (perm : others.Perm candidates) :
    applyReplacements text others = applyReplacements text candidates := by
  have ranges : groupRanges others = groupRanges candidates := sortedSet_perm (perm.map _)
  have groups : ∀ (all : List (Nat ×ₗ Nat)) (cursor : Nat) (output : Text)
      (applied : List Replaced), applyGroups text others all cursor output applied =
        applyGroups text candidates all cursor output applied := by
    intro all
    induction all with
    | nil => intro cursor output applied; rfl
    | cons range all inductionHypothesis =>
        intro cursor output applied
        simp only [applyGroups, inductionHypothesis,
          groupReplacement_perm (perm.filter fun candidate => decide (candidate.range = range)),
          rangeGroup]
  rw [applyReplacements, applyReplacements, forM_perm (checkRange_fails text) perm, ranges]
  simp only [groups]

/-- Every call applies exactly what it marks. -/
theorem appliesExactly : AppliesExactly text candidates where
  rewrites := by
    intro result done
    by_cases inText : ∀ candidate ∈ candidates, InText text candidate
    · obtain ⟨other, run, rewrites⟩ := applyReplacements_eq inText
      have same : (applyReplacements text candidates).2 = .ok result := done
      rw [run] at same
      cases same
      exact rewrites
    · have same : (applyReplacements text candidates).2 = .ok result := done
      rw [applyReplacements_eq_error inText] at same
      cases same
  marks := rfl
  admissible := fun _ among => admissible_of_mem among
  failed := by
    intro error failed
    have same : (applyReplacements text candidates).2 = .error error := failed
    by_cases inText : ∀ candidate ∈ candidates, InText text candidate
    · obtain ⟨other, run, _⟩ := applyReplacements_eq inText
      rw [run] at same
      cases same
    · have unmarked : markVerified [] = id := by
        funext candidate
        rw [markVerified, if_neg (by simp)]
        rfl
      rw [applyVerifiedReplacements, applyReplacements_eq_error inText]
      dsimp only
      rw [unmarked, List.map_id]
  unordered := by
    intro others perm
    rw [applyVerifiedReplacements, applyReplacements_perm perm]
    rfl

/-- A call replaces, of every range which is admitted, it or one which it starts in. -/
theorem exists_replaced (inText : ∀ candidate ∈ candidates, InText text candidate)
    (admissible : Admissible text candidates replaced) :
    ∃ first ∈ (applyReplacements text candidates).1,
      first.start ≤ replaced.start ∧ replaced.start < first.stop := by
  obtain ⟨result, run, _⟩ := applyReplacements_eq inText
  rw [run]
  obtain ⟨amongRanges, admits⟩ := admissible_iff.mp admissible
  refine exists_begins ?_ ?_ (List.mem_filterMap.mpr ⟨_, amongRanges, admits⟩) (Nat.zero_le _)
  · intro item among
    obtain ⟨range, amongRanges, admits⟩ := List.mem_filterMap.mp among
    obtain ⟨candidate, amongCandidates, rfl⟩ := List.mem_map.mp (mem_sortedSet.mp amongRanges)
    obtain ⟨same, _⟩ := Iff.mp admittedAt_eq_some admits
    have place := Replaced.ends_eq same.symm
    rw [← place.1, ← place.2]
    exact (inText candidate amongCandidates).1
  · refine List.Pairwise.filterMap _ ?_ pairwise_sortedSet
    intro range other below item admits item' admits'
    obtain ⟨rfl, _⟩ := Iff.mp admittedAt_eq_some admits
    obtain ⟨rfl, _⟩ := Iff.mp admittedAt_eq_some admits'
    exact Prod.Lex.monotone_fst _ _ below.le

/-- A call leaves contested ranges as they are exactly when no range which a group admits is
contested, or a range is not in the text. -/
theorem replacements_are_uncontested_iff (text : Text) (candidates : List FindingCandidate) :
    AppliesExactly text candidates ∧
    ((∀ replaced ∈ (applyReplacements text candidates).1, Uncontested candidates replaced) ↔
      ((∀ candidate ∈ candidates, InText text candidate) →
        ∀ replaced, Admissible text candidates replaced → Uncontested candidates replaced)) := by
  refine ⟨appliesExactly, fun uncontested inText replaced admissible => ?_, fun free replaced among => ?_⟩
  · obtain ⟨first, among, early, inside⟩ := exists_replaced inText admissible
    obtain ⟨candidate, amongCandidates, same, _⟩ := admissible.proposed
    have place := Replaced.ends_eq same
    have positive : candidate.startOffset.toNat < candidate.endOffset.toNat :=
      (inText candidate amongCandidates).1
    have ranges : candidate.range = first.range :=
      uncontested first among candidate amongCandidates (by omega) (by omega)
    have place' := Replaced.ends_eq ranges
    intro other amongOthers before behind
    rw [← same, ranges]
    exact uncontested first among other amongOthers (by omega) (by omega)
  · by_cases inText : ∀ candidate ∈ candidates, InText text candidate
    · exact free inText replaced (admissible_of_mem among)
    · rw [applyReplacements_eq_error inText] at among
      cases among

/-- A number of an account, with its replacement. -/
def accountCandidate : FindingCandidate :=
  { reportedCandidate with
    startOffset := 0, endOffset := 6, proposedReplacement := some "[A]".toList
    replacementVerified := false }

/-- A number which begins in the number of the account. -/
def phoneCandidate : FindingCandidate :=
  { reportedCandidate with
    startOffset := 4, endOffset := 9, proposedReplacement := some "[B]".toList
    replacementVerified := false }

/-- The ranges of two groups overlap, and the first is replaced and marked. -/
theorem contested_range_is_replaced :
    applyVerifiedReplacements "0123456789".toList [accountCandidate, phoneCandidate] =
      ([{ accountCandidate with replacementVerified := true }, phoneCandidate],
        .ok "[A]6789".toList) ∧
    ¬ ∀ replaced ∈ (applyReplacements "0123456789".toList [accountCandidate, phoneCandidate]).1,
      Uncontested [accountCandidate, phoneCandidate] replaced := by
  have applied : (applyReplacements "0123456789".toList [accountCandidate, phoneCandidate]).1 =
      [⟨0, 6, "[A]".toList⟩] := by decide
  refine ⟨by decide, fun uncontested => ?_⟩
  rw [applied] at uncontested
  have same := uncontested _ List.mem_cons_self phoneCandidate (by decide) (by decide) (by decide)
  exact absurd same (by decide)

end Call

end LawyerAssistance.Privacy

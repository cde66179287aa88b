import LawyerAssistance.AiContext.Ledger
import LawyerAssistance.AiContext.Numbering
import LawyerAssistance.Std.Spacing
import Mathlib.Algebra.Group.Action.Defs
import Mathlib.Order.Interval.Finset.Nat

/-!
# Selections of a text, and what they are charged

`ai_runs.rs`: the execution charges every selected segment of a text to the ledger before it sends
it. What it will charge is estimated before: for units of the text from their number, and for the
whole source from the size of its stored file, which says nothing about the text inside.
-/

namespace LawyerAssistance.AiContext

open FileIngest

/-! ## Selecting -/

/-- A source of a task: its kind, its identifier, and the variant of a material. -/
structure ContextPlace where
  sourceKind : Text
  sourceId : Text
  source : Option Text
deriving DecidableEq

/-- `format!("paragraph:{}", index + 1)`, in a source. -/
def ContextPlace.paragraph (place : ContextPlace) (index : Nat) : LedgerIdentity :=
  ⟨place.sourceKind, place.sourceId, place.source,
    "paragraph:".toList ++ Nat.toDigits 10 (index + 1)⟩

/-- The selections of a request, each for a source. -/
abbrev RequestedScope := List (ContextPlace × AiContextRangeSelection)

/-- `requested_range`. -/
def requestedRange (scope : RequestedScope) (place : ContextPlace) :
    Except String AiContextRangeSelection :=
  presentOr ((scope.find? fun entry => decide (entry.1 = place)).map Prod.snd)
    "context_prepare_required"

/-- The unit at an index is selected. -/
def AiContextRangeSelection.selects (requested : AiContextRangeSelection) (index : Nat) : Bool :=
  requested.mode = "all" ||
    requested.ranges.any fun range => decide (range.Covers (unitNumber index))

/-- The selected segments of a text, with their indices. -/
def selectedSegments (requested : AiContextRangeSelection) (text : Text) : List (Text × Nat) :=
  (contextTextSegments text).zipIdx.filter fun segment => requested.selects segment.2

section Selecting

variable (graphic : Char → Bool) (place : ContextPlace)

/-- The loop of `select_context_text`: each segment is reserved and recorded. What was charged
remains when a later segment is refused. -/
def BudgetState.chargeSegments (state : BudgetState) :
    List (Text × Nat) → BudgetState × Except String Unit
  | [] => (state, .ok ())
  | (candidate, index) :: rest =>
      let tokens := estimateTextTokens candidate
      match state.reserve graphic (place.paragraph index) tokens with
      | .error error => (state, .error error.code)
      | .ok (reserved, reservation) =>
          match reservation.record reserved tokens with
          | (recorded, .error error) => (recorded, .error error.code)
          | (recorded, .ok ()) => recorded.chargeSegments rest

/-- `select_context_text`. -/
def BudgetState.selectContextText (state : BudgetState) (text : Text) (scope : RequestedScope) :
    BudgetState × Except String Text :=
  match requestedRange scope place with
  | .error code => (state, .error code)
  | .ok requested =>
      if ["all", "paragraphs"].contains requested.mode = false then
        (state, .error "context_scope_invalid")
      else
        let candidates := selectedSegments requested text
        match state.chargeSegments graphic place candidates with
        | (charged, .error code) => (charged, .error code)
        | (charged, .ok ()) => (charged, .ok (joinUnits (candidates.map Prod.fst)))

end Selecting

/-! ## Estimating -/

/-- What one unit of an inspected source is estimated at. -/
def AiContextInspection.perUnit (inspection : AiContextInspection) : Nat :=
  saturatingAdd inspection.estimatedInputTokens (inspection.unitCount - 1) / inspection.unitCount

/-- A source with a text: the format which is known of it, its text, and `source_byte_len`, the size
of its stored file. For a redacted result this is the size of its text. -/
structure TextSource where
  format : String
  text : Text
  sourceByteLen : Nat

/-- `is_visual_context_format`. -/
def isVisualContextFormat (format : String) : Bool :=
  ["pdf", "png", "jpg", "jpeg", "webp"].contains format

/-- `all_source_tokens`, where a plan is estimated. -/
def TextSource.allSourceTokens (source : TextSource) : Nat :=
  if isVisualContextFormat source.format then estimateImageTokens source.sourceByteLen
  else source.sourceByteLen

/-! ## What is to hold -/

/-- The bytes of segments. -/
def segmentsBytes (segments : List (Text × Nat)) : Nat :=
  (segments.map fun segment => Text.byteLength segment.1).sum

/-- Nothing is reserved in a ledger, what is used is within the limit, a `u32`, and no range was
charged more than everything. -/
structure BudgetState.Settled (state : BudgetState) : Prop where
  pending : state.pending = ∅
  within : state.used ≤ state.inputLimit
  limited : state.inputLimit ≤ maxU32
  ranges : ∀ identity, Amounts.under id state.ranges identity ≤ state.used

/-- The segments were charged, each to its own range, and nothing else was. -/
structure Charged (place : ContextPlace) (segments : List (Text × Nat))
    (before after : BudgetState) : Prop where
  settled : after.Settled
  limit : after.inputLimit = before.inputLimit
  used : after.used = before.used + segmentsBytes segments
  ranges : ∀ identity, Amounts.under id after.ranges identity =
    Amounts.under id before.ranges identity +
      segmentsBytes (segments.filter fun segment => decide (place.paragraph segment.2 = identity))

/-- The bytes of the units with a number. -/
def numberBytes (text : Text) (number : Nat) : Nat :=
  segmentsBytes ((contextTextSegments text).zipIdx.filter fun segment =>
    decide (unitNumber segment.2 = number))

/-- No budget is large enough. -/
def Unaffordable (bytes : Nat) : Prop := maxU32 < bytes

/-- The paragraphs are not longer than what the whole source is estimated at, and no unit is longer
than what one unit is estimated at, where a budget admits them. -/
def EstimateCovers (source : TextSource) : Prop :=
  let paragraphBytes := ((Text.paragraphs source.text).map Text.byteLength).sum
  (paragraphBytes ≤ source.allSourceTokens ∨ Unaffordable paragraphBytes) ∧
  ∀ number, numberBytes source.text number ≤
      (paragraphInspection source.format source.text).perUnit ∨
    Unaffordable (numberBytes source.text number)

/-! ## Segments -/

section Segments

variable {text segment rest part : Text}

/-- A segment is not longer than it may be. -/
theorem byteLength_le_of_mem_cutParagraph (short : Text.byteLength segment ≤ segmentBytes)
    (member : part ∈ cutParagraph segment rest) : Text.byteLength part ≤ segmentBytes := by
  induction rest generalizing segment with
  | nil =>
      rw [cutParagraph] at member
      split_ifs at member
      · cases member
      · obtain rfl := List.mem_singleton.mp member
        exact short
  | cons character rest inductionHypothesis =>
      have small : Text.byteLength [character] ≤ segmentBytes :=
        (Char.utf8Size_le_four character).trans (by decide)
      rw [cutParagraph] at member
      split_ifs at member with full
      · obtain rfl | later := List.mem_cons.mp member
        · exact short
        · exact inductionHypothesis small later
      · refine inductionHypothesis ?_ member
        by_cases begun : segment = []
        · rwa [begun]
        · rw [Text.byteLength_append]
          exact Nat.le_of_not_lt fun long => full ⟨begun, long⟩

theorem byteLength_le_of_mem_contextTextSegments (member : part ∈ contextTextSegments text) :
    Text.byteLength part ≤ segmentBytes := by
  obtain ⟨paragraph, _, inParagraph⟩ := List.mem_flatMap.mp member
  exact byteLength_le_of_mem_cutParagraph (Nat.zero_le _) inParagraph

end Segments

/-! ## Charging -/

section Charging

variable {graphic : Char → Bool} {place : ContextPlace} {state : BudgetState}
  {segments : List (Text × Nat)} {requested : AiContextRangeSelection} {text : Text}

@[simp] theorem segmentsBytes_nil : segmentsBytes [] = 0 := rfl

@[simp] theorem segmentsBytes_cons (candidate : Text) (index : Nat) (rest : List (Text × Nat)) :
    segmentsBytes ((candidate, index) :: rest) =
      estimateTextTokens candidate + segmentsBytes rest := by
  rw [segmentsBytes, List.map_cons, List.sum_cons, ← segmentsBytes, estimateTextTokens]

theorem BudgetState.Settled.bounded (settled : state.Settled) : state.inputLimit < usizeMax :=
  lt_of_le_of_lt settled.limited (by decide)

/-- A reservation in a settled ledger is refused when it exceeds the limit. -/
theorem BudgetState.Settled.reserve (settled : state.Settled) (identity : LedgerIdentity)
    (tokens : Nat) :
    state.reserve graphic identity tokens =
      if state.inputLimit < state.used + tokens then .error .contextBudgetExceeded
      else .ok (
        { state with pending := state.pending.insert (pendingKey graphic identity 0) tokens },
        ⟨some (pendingKey graphic identity 0), identity⟩) := by
  have nothing : state.pendingTotal = 0 := by
    rw [BudgetState.pendingTotal, settled.pending, Amounts.total_empty]
  have count : state.pending.entries.length = 0 := by
    rw [settled.pending]
    rfl
  rw [BudgetState.reserve]
  simp only [saturatingAdd_exceeds_twice settled.bounded, nothing, Nat.add_zero, count]

/-- A segment which is within the limit is charged, and nothing stays reserved. -/
theorem BudgetState.Settled.record (settled : state.Settled) (graphic : Char → Bool)
    (identity : LedgerIdentity) {tokens : Nat} (within : state.used + tokens ≤ state.inputLimit) :
    ∃ charged : BudgetState,
      (ContextBudgetReservation.mk (some (pendingKey graphic identity 0)) identity).record
        { state with pending := state.pending.insert (pendingKey graphic identity 0) tokens }
        tokens = (charged, .ok ()) ∧
      charged.Settled ∧ charged.inputLimit = state.inputLimit ∧
      charged.used = state.used + tokens ∧
      ∀ other, Amounts.under id charged.ranges other =
        Amounts.under id state.ranges other + if identity = other then tokens else 0 := by
  have used : saturatingAdd state.used tokens = state.used + tokens :=
    saturatingAdd_eq settled.bounded within
  have released : (state.pending.insert (pendingKey graphic identity 0) tokens).erase
      (pendingKey graphic identity 0) = ∅ := by
    rw [settled.pending]
    refine AList.ext ?_
    rw [AList.insert_empty]
    exact List.kerase_cons_eq rfl
  have under (other : LedgerIdentity) :
      Amounts.under id (chargeRange state.ranges identity tokens) other =
        Amounts.under id state.ranges other + if identity = other then tokens else 0 :=
    under_chargeRange settled.bounded
      ((Nat.add_le_add_right (settled.ranges identity) tokens).trans within)
  refine ⟨{ state with
    pending := ∅
    used := state.used + tokens
    ranges := chargeRange state.ranges identity tokens }, ?_, ?_, rfl, rfl, under⟩
  · rw [record_of_pending rfl (AList.lookup_insert _), Nat.max_self, if_neg]
    · simp only [released, used]
    · rw [saturatingAdd_exceeds settled.bounded]
      exact Nat.not_lt.mpr within
  · refine ⟨rfl, within, settled.limited, fun other => ?_⟩
    have ranges := settled.ranges other
    dsimp only
    rw [under other]
    split_ifs <;> omega

/-- Segments which are within the limit are charged, each to its own range. -/
theorem BudgetState.Settled.chargeSegments (settled : state.Settled) (graphic : Char → Bool)
    (place : ContextPlace) (within : state.used + segmentsBytes segments ≤ state.inputLimit) :
    ∃ charged : BudgetState, state.chargeSegments graphic place segments = (charged, .ok ()) ∧
      Charged place segments state charged := by
  induction segments generalizing state with
  | nil => exact ⟨state, rfl, settled, rfl, rfl, fun _ => rfl⟩
  | cons segment rest inductionHypothesis =>
      obtain ⟨candidate, index⟩ := segment
      rw [segmentsBytes_cons] at within
      have here : state.used + estimateTextTokens candidate ≤ state.inputLimit :=
        (Nat.add_le_add_left (Nat.le_add_right _ _) _).trans within
      obtain ⟨charged, recorded, settledCharged, limit, used, ranges⟩ :=
        settled.record graphic (place.paragraph index) here
      obtain ⟨last, done, chargedRest⟩ := inductionHypothesis settledCharged
        (by rw [used, limit]; omega)
      refine ⟨last, ?_, chargedRest.settled, chargedRest.limit.trans limit, ?_, fun identity => ?_⟩
      · rw [BudgetState.chargeSegments, settled.reserve, if_neg (Nat.not_lt.mpr here)]
        simp only [recorded, done]
      · rw [chargedRest.used, used, segmentsBytes_cons, Nat.add_assoc]
      · rw [chargedRest.ranges, ranges, List.filter_cons]
        by_cases same : place.paragraph index = identity
        · rw [if_pos same, if_pos (by simpa using same), segmentsBytes_cons, Nat.add_assoc]
        · rw [if_neg same, if_neg (by simpa using same), Nat.add_zero]

/-- The selected segments are the selected units. -/
theorem map_fst_selectedSegments (requested : AiContextRangeSelection) (text : Text) :
    (selectedSegments requested text).map Prod.fst =
      if requested.mode = "all" then contextTextSegments text
      else unitsIn requested.ranges (contextTextSegments text) := by
  split_ifs with all
  · rw [selectedSegments, List.filter_eq_self.mpr fun segment _ => by
      simp [AiContextRangeSelection.selects, all], List.zipIdx_map_fst]
  · rw [unitsIn, numbered, List.filter_map, List.map_map, selectedSegments]
    refine congrArg _ (List.filter_congr fun segment _ => ?_)
    simp [AiContextRangeSelection.selects, all]

end Charging

/-! ## Estimates -/

section Estimates

variable {source : TextSource} {text : Text} {ranges : List AiContextUnitRange}
  {requested : AiContextRangeSelection}

/-- A single number selects the units with this number. -/
theorem selectedSegments_of_number (number : Nat) (hash : Option String) :
    selectedSegments ⟨"paragraphs", [⟨number, number⟩], hash⟩ text =
      (contextTextSegments text).zipIdx.filter fun segment =>
        decide (unitNumber segment.2 = number) := by
  refine List.filter_congr fun segment _ => ?_
  rw [AiContextRangeSelection.selects, Bool.eq_iff_iff]
  simp only [List.any_cons, List.any_nil, Bool.or_false, Bool.or_eq_true, decide_eq_true_eq,
    String.reduceEq, false_or]
  exact ⟨fun covered => Nat.le_antisymm covered.2 covered.1, fun same => ⟨same.ge, same.le⟩⟩

/-- The units with a number are at most one when all numbers are different. -/
theorem numberBytes_le (few : (contextTextSegments text).length < maxU32) (number : Nat) :
    numberBytes text number ≤ segmentBytes := by
  have bytes : numberBytes text number = ((unitsIn [⟨number, number⟩]
      (contextTextSegments text)).map Text.byteLength).sum := by
    have units := map_fst_selectedSegments ⟨"paragraphs", [⟨number, number⟩], none⟩ text
    rw [if_neg (by simp)] at units
    rw [numberBytes, ← selectedSegments_of_number number none, segmentsBytes, ← units,
      List.map_map]
    rfl
  rw [bytes]
  cases number with
  | zero =>
      have none : unitsIn [⟨0, 0⟩] (contextTextSegments text) = [] := by
        rw [unitsIn, numbered, List.filter_eq_nil_iff.mpr, List.map_nil]
        intro unit member
        obtain ⟨⟨_, index⟩, _, rfl⟩ := List.mem_map.mp member
        simp [AiContextUnitRange.Covers, unitNumber, maxU32]
      rw [none]
      exact Nat.zero_le _
  | succ index =>
      rw [unitsIn_single few]
      cases found : (contextTextSegments text)[index]? with
      | none => exact Nat.zero_le _
      | some segment =>
          have member : segment ∈ contextTextSegments text := List.mem_of_getElem? found
          simpa using byteLength_le_of_mem_contextTextSegments member

/-- Below 4194304 segments, a unit is estimated at the bound of a segment. -/
theorem estimateCovers_of_few (few : (contextTextSegments source.text).length < 4194304)
    (whole : ((Text.paragraphs source.text).map Text.byteLength).sum ≤ source.allSourceTokens) :
    EstimateCovers source := by
  refine ⟨.inl whole, fun number => .inl ?_⟩
  by_cases empty : contextTextSegments source.text = []
  · rw [numberBytes, empty]
    exact Nat.zero_le _
  · refine (numberBytes_le (few.trans (by decide)) number).trans ?_
    have positive := List.length_pos_iff.mpr empty
    rw [AiContextInspection.perUnit, paragraphInspection]
    dsimp only
    rw [Nat.min_eq_left (few.le.trans (by decide)), saturatingAdd, usizeMax, maxU32,
      Nat.le_div_iff_mul_le positive, segmentBytes]
    omega

end Estimates

end LawyerAssistance.AiContext

import LawyerAssistance.AiContext.Units

/-!
# Numbers of units

The inspection of stored bytes counts the units of their decoding, while the execution selects from
the extracted text. Both have the same units when the decoding has no byte order mark and no
carriage return inside a paragraph, and only then.
-/

namespace LawyerAssistance.AiContext

open FileIngest

/-! ## Units of a text -/

section Segments

variable {text : Text}

/-- The segments of a paragraph are the paragraph. -/
theorem flatten_cutParagraph (segment rest : Text) :
    (cutParagraph segment rest).flatten = segment ++ rest := by
  induction rest generalizing segment with
  | nil =>
      rw [cutParagraph]
      split_ifs with empty
      · rw [empty]
        rfl
      · simp
  | cons character rest inductionHypothesis =>
      rw [cutParagraph]
      split_ifs
      · rw [List.flatten_cons, inductionHypothesis]
        rfl
      · rw [inductionHypothesis, List.append_assoc]
        rfl

/-- A segment has a character. -/
theorem nonempty_of_mem_cutParagraph {segment rest part : Text}
    (member : part ∈ cutParagraph segment rest) : part ≠ [] := by
  induction rest generalizing segment with
  | nil =>
      rw [cutParagraph] at member
      split_ifs at member with empty
      · cases member
      · obtain rfl := List.mem_singleton.mp member
        exact empty
  | cons character rest inductionHypothesis =>
      rw [cutParagraph] at member
      split_ifs at member with full
      · obtain rfl | inRest := List.mem_cons.mp member
        · exact full.1
        · exact inductionHypothesis inRest
      · exact inductionHypothesis member

/-- The units of a text are its paragraphs. -/
theorem flatten_contextTextSegments (text : Text) :
    (contextTextSegments text).flatten = (Text.paragraphs text).flatten := by
  rw [contextTextSegments]
  induction Text.paragraphs text with
  | nil => rfl
  | cons part rest inductionHypothesis =>
      rw [List.flatMap_cons, List.flatten_append, inductionHypothesis, flatten_cutParagraph,
        List.nil_append, List.flatten_cons]

theorem nonempty_of_mem_contextTextSegments {unit : Text}
    (member : unit ∈ contextTextSegments text) : unit ≠ [] := by
  obtain ⟨part, _, inPart⟩ := List.mem_flatMap.mp member
  exact nonempty_of_mem_cutParagraph inPart

/-- A text has at most as many units as characters. -/
theorem length_contextTextSegments_le (text : Text) :
    (contextTextSegments text).length ≤ text.length := by
  have each {units : List Text} (nonempty : ∀ unit ∈ units, unit ≠ []) :
      units.length ≤ units.flatten.length := by
    induction units with
    | nil => exact Nat.le_refl _
    | cons unit rest inductionHypothesis =>
        obtain ⟨here, others⟩ := List.forall_mem_cons.mp nonempty
        have positive := List.length_pos_iff.mpr here
        have later := inductionHypothesis others
        rw [List.flatten_cons, List.length_append, List.length_cons]
        omega
  refine (each fun unit => nonempty_of_mem_contextTextSegments).trans ?_
  rw [flatten_contextTextSegments]
  exact (Text.flatten_paragraphs_sublist text).length_le

/-- The decoding has neither a byte order mark nor a carriage return inside a paragraph. -/
def PlainlyEnded (text : Text) : Prop :=
  text.head? ≠ some byteOrderMark ∧
    ∀ part ∈ Text.splitBlankLines text, '\r' ∉ Text.trim part

instance (text : Text) : Decidable (PlainlyEnded text) := inferInstanceAs (Decidable (_ ∧ _))

/-- The paragraphs have a carriage return where a part has one. -/
theorem forall_paragraphs_iff :
    (∀ part ∈ Text.paragraphs text, '\r' ∉ part) ↔
      ∀ part ∈ Text.splitBlankLines text, '\r' ∉ Text.trim part := by
  constructor
  · intro plain part member
    by_cases empty : Text.trim part = []
    · rw [empty]
      exact List.not_mem_nil
    · exact plain _ (List.mem_filter.mpr ⟨List.mem_map_of_mem member, by simpa using empty⟩)
  · intro plain part member
    obtain ⟨whole, inText, rfl⟩ := List.mem_map.mp (List.mem_filter.mp member).1
    exact plain whole inText

theorem contextTextSegments_of_plainlyEnded (plain : PlainlyEnded text) :
    contextTextSegments (Text.unifyLineEnds (stripByteOrderMark text)) =
      contextTextSegments text := by
  rw [stripByteOrderMark, if_neg plain.1, contextTextSegments,
    Text.paragraphs_unifyLineEnds (forall_paragraphs_iff.mpr plain.2), ← contextTextSegments]

/-- Units which the execution has as well, in the same order, are of a text which is plainly
ended. -/
theorem plainlyEnded_of_isPrefix
    (same : contextTextSegments text <+:
      contextTextSegments (Text.unifyLineEnds (stripByteOrderMark text))) :
    PlainlyEnded text := by
  have flattened : (contextTextSegments text).flatten.Sublist
      (contextTextSegments (Text.unifyLineEnds (stripByteOrderMark text))).flatten := by
    obtain ⟨others, whole⟩ := same
    rw [← whole, List.flatten_append]
    exact List.sublist_append_left _ _
  rw [flatten_contextTextSegments, flatten_contextTextSegments] at flattened
  refine ⟨fun mark => ?_, forall_paragraphs_iff.mp fun part member feed => ?_⟩
  · have counted := (flattened.filter fun character => !Text.isWhitespace character).length_le
    rw [Text.filter_flatten_paragraphs, Text.filter_flatten_paragraphs, Text.filter_unifyLineEnds,
      stripByteOrderMark, if_pos mark] at counted
    cases text with
    | nil => cases mark
    | cons character rest =>
        cases mark
        rw [List.filter_cons_of_pos (by decide), List.length_cons, List.tail_cons] at counted
        omega
  · refine Text.return_notMem_unifyLineEnds (stripByteOrderMark text) ?_
    refine (Text.flatten_paragraphs_sublist _).mem (flattened.mem ?_)
    exact List.mem_flatten_of_mem member feed

end Segments

/-! ## Merged intervals -/

section Intervals

variable {ranges : List AiContextUnitRange}

instance : Std.Total IntervalLe :=
  ⟨fun first second => by simp only [IntervalLe]; omega⟩

instance : IsTrans AiContextUnitRange IntervalLe :=
  ⟨fun first second third => by simp only [IntervalLe]; omega⟩

/-- Merging keeps the numbers of intervals which are in order. -/
theorem covers_mergeIntervals {previous : AiContextUnitRange} {rest : List AiContextUnitRange}
    (ordered : (previous :: rest).Pairwise fun first second => first.start ≤ second.start)
    (proper : ∀ range ∈ rest, range.start ≤ range.end) (number : Nat) :
    (∃ range ∈ mergeIntervals previous rest, range.Covers number) ↔
      ∃ range ∈ previous :: rest, range.Covers number := by
  induction rest generalizing previous with
  | nil => rfl
  | cons range rest inductionHypothesis =>
      obtain ⟨before, orderedRest⟩ := List.pairwise_cons.mp ordered
      obtain ⟨properHere, properRest⟩ := List.forall_mem_cons.mp proper
      have start := before range List.mem_cons_self
      rw [mergeIntervals]
      split_ifs with touches
      · have orderedMerged : ({ previous with «end» := max previous.end range.end } ::
            rest).Pairwise fun first second => first.start ≤ second.start :=
          List.pairwise_cons.mpr ⟨fun later member => before later (List.mem_cons_of_mem _ member),
            (List.pairwise_cons.mp orderedRest).2⟩
        rw [inductionHypothesis orderedMerged properRest]
        rw [List.exists_mem_cons_iff, List.exists_mem_cons_iff, List.exists_mem_cons_iff, ← or_assoc]
        refine or_congr_left ?_
        simp only [AiContextUnitRange.Covers]
        omega
      · rw [List.exists_mem_cons_iff, List.exists_mem_cons_iff,
          inductionHypothesis orderedRest properRest]

/-- Normalizing keeps the numbers. -/
theorem normalizeContextIntervals_eq_ok {merged : List AiContextUnitRange}
    (done : normalizeContextIntervals ranges = .ok merged) (number : Nat) :
    (∃ range ∈ merged, range.Covers number) ↔ ∃ range ∈ ranges, range.Covers number := by
  obtain ⟨proper, done⟩ := refuseIf_bind_eq_ok.mp done
  have kept : ∀ {range}, range ∈ ranges.insertionSort IntervalLe ↔ range ∈ ranges :=
    (List.perm_insertionSort IntervalLe ranges).mem_iff
  simp only [← @kept]
  have sorted := List.pairwise_insertionSort IntervalLe ranges
  cases order : ranges.insertionSort IntervalLe with
  | nil =>
      rw [order] at done
      cases done
      rfl
  | cons first rest =>
      rw [order] at done sorted
      cases done
      refine covers_mergeIntervals (sorted.imp ?_) (fun range member => ?_) number
      · rintro left right (less | ⟨same, _⟩)
        · exact less.le
        · exact same.le
      · have listed := kept.mp (order ▸ List.mem_cons_of_mem first member)
        by_contra reversed
        refine proper (List.any_eq_true.mpr ⟨range, listed, ?_⟩)
        simp [not_le.mp reversed]

/-- A selection of units: it has the numbers which were supplied, up to the number of units. -/
theorem canonicalSelection_eq_ok {inspections : String → Option AiContextInspection}
    {supplied : List AiContextRangeSelection} {selection : AiContextRangeSelection}
    (done : canonicalSelection inspections supplied = .ok selection)
    (units : selection.mode = "paragraphs") :
    (∀ number, (∃ range ∈ selection.ranges, range.Covers number) ↔
      ∃ range ∈ supplied.flatMap AiContextRangeSelection.ranges, range.Covers number) ∧
    ∃ hash inspection, inspections hash = some inspection ∧
      ∀ range ∈ selection.ranges, range.end ≤ inspection.unitCount := by
  obtain ⟨first, _, done⟩ := bind_eq_ok.mp done
  obtain ⟨_, done⟩ := refuseIf_bind_eq_ok.mp done
  dsimp only at done
  by_cases all : first.mode = "all"
  · rw [if_pos all] at done
    obtain ⟨_, done⟩ := refuseIf_bind_eq_ok.mp done
    cases done
    rw [all] at units
    exact absurd units (by decide)
  · rw [if_neg all] at done
    obtain ⟨_, done⟩ := refuseIf_bind_eq_ok.mp done
    obtain ⟨merged, normalized, done⟩ := bind_eq_ok.mp done
    obtain ⟨inspection, found, done⟩ := bind_eq_ok.mp done
    obtain ⟨within, done⟩ := refuseIf_bind_eq_ok.mp done
    cases done
    refine ⟨normalizeContextIntervals_eq_ok normalized, _, inspection, presentOr_eq_ok.mp found,
      fun range member => ?_⟩
    by_contra beyond
    exact within (.inr (List.any_eq_true.mpr ⟨range, member, by simpa using beyond⟩))

end Intervals

/-! ## Selected units -/

section Units

variable {units : List Text} {ranges : List AiContextUnitRange}

theorem unitsIn_congr {other : List AiContextUnitRange}
    (same : ∀ number, (∃ range ∈ ranges, range.Covers number) ↔
      ∃ range ∈ other, range.Covers number) : unitsIn ranges units = unitsIn other units := by
  rw [unitsIn, unitsIn]
  refine congrArg _ (List.filter_congr fun unit _ => ?_)
  rw [Bool.eq_iff_iff, List.any_eq_true, List.any_eq_true]
  simpa only [decide_eq_true_eq] using same unit.1

/-- A single number selects the unit with this number, from the units behind an offset. -/
theorem unitsFrom_single (offset index : Nat) (few : offset + units.length < maxU32) :
    (((units.zipIdx offset).map fun (unit, index) => (unitNumber index, unit)).filter fun unit =>
        [AiContextUnitRange.mk (index + 1) (index + 1)].any fun range =>
          decide (range.Covers unit.1)).map Prod.snd =
      if offset ≤ index then units[index - offset]?.toList else [] := by
  induction units generalizing offset with
  | nil => simp
  | cons unit rest inductionHypothesis =>
      rw [List.length_cons] at few
      have later := inductionHypothesis (offset + 1) (by omega)
      have number : unitNumber offset = offset + 1 := Nat.min_eq_left (by omega)
      rw [List.zipIdx_cons, List.map_cons, List.filter_cons]
      simp only [number, List.any_cons, List.any_nil, Bool.or_false, AiContextUnitRange.Covers,
        decide_eq_true_eq] at later ⊢
      rcases Nat.lt_trichotomy offset index with before | rfl | behind
      · rw [if_neg (by omega), later, if_pos (by omega), if_pos before.le]
        obtain ⟨gap, rfl⟩ := Nat.exists_eq_add_of_lt before
        rw [show offset + gap + 1 - offset = gap + 1 by omega,
          show offset + gap + 1 - (offset + 1) = gap by omega, List.getElem?_cons_succ]
      · rw [if_pos (by omega), List.map_cons, later, if_neg (by omega), if_pos (Nat.le_refl _),
          Nat.sub_self]
        rfl
      · rw [if_neg (by omega), later, if_neg (by omega), if_neg (by omega)]

theorem unitsIn_single (few : units.length < maxU32) (index : Nat) :
    unitsIn [⟨index + 1, index + 1⟩] units = units[index]?.toList := by
  have selected := unitsFrom_single 0 index (by rwa [Nat.zero_add])
  rw [if_pos (Nat.zero_le _), Nat.sub_zero] at selected
  exact selected

/-- A budget which is large enough admits the units. -/
theorem reserveUnits_eq_ok {limit used : Nat}
    (enough : used + (units.map Text.byteLength).sum ≤ limit) :
    reserveUnits limit used units = .ok (used + (units.map Text.byteLength).sum) := by
  induction units generalizing used with
  | nil => rfl
  | cons unit rest inductionHypothesis =>
      rw [List.map_cons, List.sum_cons] at enough ⊢
      refine refuseIf_bind_eq_ok.mpr ⟨by omega, ?_⟩
      rw [inductionHypothesis (by omega), Nat.add_assoc]

end Units

/-! ## Sources -/

section Sources

variable {readers : ContextReaders} {source : ContextSource}

/-- The units which the inspection counts. -/
def offeredUnits (source : ContextSource) : Option (List Text) :=
  match inspectedText source with
  | .ok (some text) => some (contextTextSegments text)
  | _ => none

/-- The execution sends exactly the offered units whose numbers were supplied, and has a unit for
each of these numbers. -/
def NumberedAlike (readers : ContextReaders) (source : ContextSource) : Prop :=
  ∀ inspections supplied selection units limit used used' sent,
    (∀ hash inspection, inspections hash = some inspection →
      inspectAiContextSource readers source = .ok inspection) →
    offeredUnits source = some units →
    canonicalSelection inspections supplied = .ok selection → selection.mode = "paragraphs" →
    sourceContext readers limit used selection source = .ok (used', sent) →
    sent = joinUnits (unitsIn (supplied.flatMap AiContextRangeSelection.ranges) units) ∧
    ∀ text, executedText readers selection used source = .ok text →
      ∀ range ∈ supplied.flatMap AiContextRangeSelection.ranges, ∀ number, range.Covers number →
        number ≤ (contextTextSegments text.2).length

/-- Stored bytes of a text format decode to a text which is plainly ended. -/
def BytesPlainlyEnded (name : Text) (bytes : Octets) : Prop :=
  isTextFormat (contextFormat name) = true → ∀ text, decodeUtf8 bytes = some text →
    PlainlyEnded text

/-- The text of a source is stored, or the stored bytes decode to a text which is plainly ended. -/
def ContextSource.PlainlyEnded : ContextSource → Prop
  | .redacted _ => True
  | .original name originalText bytes => originalText = [] → BytesPlainlyEnded name bytes
  | .attachment name bytes => BytesPlainlyEnded name bytes

/-- A plain text or a Markdown file is read as a text. -/
theorem extractAiAttachment_of_plain (readers : ContextReaders) {name : Text} {bytes : Octets}
    (plain : detectFormat name = .ok .txt ∨ detectFormat name = .ok .markdown)
    (requested : AiContextRangeSelection) (used : Nat) :
    extractAiAttachment readers name bytes requested used =
      match extractText readers.hasSignature bytes with
      | .error error => .error error.code
      | .ok text => .ok (used, text) := by
  rw [extractAiAttachment]
  obtain found | found := plain <;> cases extractText readers.hasSignature bytes <;>
    simp [found]

/-- The execution reads the extracted text of an attachment which the inspection decodes. -/
theorem extractAiAttachment_of_text {name : Text} {bytes : Octets}
    {requested : AiContextRangeSelection} {used : Nat} {result : Nat × Text}
    (format : isTextFormat (contextFormat name) = true)
    (extracted : extractAiAttachment readers name bytes requested used = .ok result) :
    (∃ decoded, decodeUtf8 bytes = some decoded ∧
      result.2 = Text.unifyLineEnds (stripByteOrderMark decoded) ∧
      Text.byteLength result.2 ≤ maxTextBytes) ∧
    ∀ requested used,
      extractAiAttachment readers name bytes requested used = .ok (used, result.2) := by
  have detected : detectFormat name = .ok .txt ∨ detectFormat name = .ok .markdown ∨
      ∃ error, detectFormat name = .error error := by
    cases named : validateBasename name with
    | error error => exact .inr (.inr ⟨error, by rw [detectFormat, named]; rfl⟩)
    | ok _ =>
        rw [detectFormat, named]
        rw [contextFormat] at format
        cases ends : extension name with
        | none =>
            rw [ends] at format
            exact absurd format (by decide)
        | some extension =>
            rw [ends] at format
            dsimp only at format
            split_ifs at format
            · simp only [isTextFormat, List.contains_cons, List.contains_nil, Bool.or_false,
                Bool.or_eq_true, beq_iff_eq] at format
              obtain rfl | rfl | rfl := format
              · exact .inl rfl
              · exact .inr (.inl rfl)
              · exact .inr (.inl rfl)
            · exact absurd format (by decide)
  rw [← or_assoc] at detected
  obtain text | ⟨error, failed⟩ := detected
  · simp only [extractAiAttachment_of_plain readers text] at extracted ⊢
    cases done : extractText readers.hasSignature bytes with
    | error error =>
        rw [done] at extracted
        cases extracted
    | ok text =>
        rw [done] at extracted
        cases extracted
        exact ⟨extractText_eq_ok done, fun _ _ => rfl⟩
  · rw [extractAiAttachment, failed] at extracted
    cases extracted

/-- What the execution reads of a source with an inspected text: the same text, or the extracted
one. -/
theorem executedText_cases {seen : Text} {requested : AiContextRangeSelection} {used : Nat}
    {result : Nat × Text} (inspected : inspectedText source = .ok (some seen))
    (executed : executedText readers requested used source = .ok result) :
    source.isPaged = false ∧
    (∀ requested used, executedText readers requested used source = .ok (used, result.2)) ∧
    ((result.2 = seen ∧ source.PlainlyEnded) ∨
      (result.2 = Text.unifyLineEnds (stripByteOrderMark seen) ∧
        Text.byteLength result.2 ≤ maxTextBytes ∧
        (source.PlainlyEnded ↔ LawyerAssistance.AiContext.PlainlyEnded seen))) := by
  have unpaged {name : Text} (format : isTextFormat (contextFormat name) = true) :
      contextFormat name ≠ "pdf" := by
    intro paged
    rw [paged] at format
    exact absurd format (by decide)
  have raw {name : Text} {bytes : Octets} (format : isTextFormat (contextFormat name) = true)
      (decoded : decodeUtf8 bytes = some seen)
      (extracted : extractAiAttachment readers name bytes requested used = .ok result) :
      (∀ requested used, extractAiAttachment readers name bytes requested used =
        .ok (used, result.2)) ∧
      result.2 = Text.unifyLineEnds (stripByteOrderMark seen) ∧
      Text.byteLength result.2 ≤ maxTextBytes ∧
      (BytesPlainlyEnded name bytes ↔ LawyerAssistance.AiContext.PlainlyEnded seen) := by
    obtain ⟨⟨text, read, same, bounded⟩, always⟩ := extractAiAttachment_of_text format extracted
    obtain rfl : text = seen := Option.some.inj (read.symm.trans decoded)
    refine ⟨always, same, bounded, fun plain => plain format _ decoded, fun plain _ other known => ?_⟩
    obtain rfl : text = other := Option.some.inj (read.symm.trans known)
    exact plain
  cases source with
  | redacted text =>
      cases inspected
      cases executed
      exact ⟨rfl, fun _ _ => rfl, .inl ⟨rfl, trivial⟩⟩
  | original name originalText bytes =>
      by_cases empty : originalText = []
      · simp only [inspectedText, executedText, empty, ne_eq, not_true_eq_false, if_false]
          at inspected executed ⊢
        by_cases format : isTextFormat (contextFormat name) = true
        · rw [if_pos format] at inspected
          obtain ⟨text, decoded, done⟩ := bind_eq_ok.mp inspected
          cases done
          obtain ⟨always, same, bounded, plain⟩ := raw format (presentOr_eq_ok.mp decoded) executed
          refine ⟨by simp [ContextSource.isPaged, unpaged format], always,
            .inr ⟨same, bounded, ?_⟩⟩
          exact ⟨fun ended => plain.mp (ended rfl), fun ended _ => plain.mpr ended⟩
        · rw [if_neg format] at inspected
          cases inspected
      · simp only [inspectedText, executedText, ne_eq, empty, not_false_eq_true, if_true]
          at inspected executed ⊢
        cases inspected
        cases executed
        exact ⟨by simp [ContextSource.isPaged, empty], fun _ _ => rfl,
          .inl ⟨rfl, fun none => absurd none empty⟩⟩
  | attachment name bytes =>
      simp only [inspectedText, executedText] at inspected executed ⊢
      by_cases format : isTextFormat (contextFormat name) = true
      · rw [if_pos format] at inspected
        obtain ⟨text, decoded, done⟩ := bind_eq_ok.mp inspected
        cases done
        obtain ⟨always, same, bounded, plain⟩ := raw format (presentOr_eq_ok.mp decoded) executed
        exact ⟨by simp [ContextSource.isPaged, unpaged format], always,
          .inr ⟨same, bounded, plain⟩⟩
      · rw [if_neg format] at inspected
        cases inspected

theorem inspectAiContextSource_text {seen : Text}
    (inspected : inspectedText source = .ok (some seen)) :
    inspectAiContextSource readers source = .ok (paragraphInspection source.format seen) := by
  rw [inspectAiContextSource, inspected]
  rfl

/-- What is sent for a selection of units. -/
theorem sourceContext_eq_ok {requested : AiContextRangeSelection} {limit used used' : Nat}
    {sent : Text} (unpaged : source.isPaged = false) (units : requested.mode = "paragraphs")
    (done : sourceContext readers limit used requested source = .ok (used', sent)) :
    ∃ result, executedText readers requested used source = .ok result ∧
      sent = joinUnits (unitsIn requested.ranges (contextTextSegments result.2)) := by
  obtain ⟨result, executed, done⟩ := bind_eq_ok.mp done
  dsimp only at done
  rw [unpaged, if_neg (by decide)] at done
  obtain ⟨_, done⟩ := refuseIf_bind_eq_ok.mp done
  obtain ⟨_, _, done⟩ := bind_eq_ok.mp done
  cases done
  rw [units, if_neg (by decide)]
  exact ⟨result, executed, rfl⟩

/-- The selection of a single unit is accepted at the inspection. -/
theorem canonicalSelection_single {inspection : AiContextInspection} {index : Nat}
    (units : inspection.unitKind = "paragraph") (within : index + 1 ≤ inspection.unitCount) :
    canonicalSelection (fun _ => some inspection)
        [⟨"paragraphs", [⟨index + 1, index + 1⟩], some "inspection"⟩] =
      .ok ⟨"paragraphs", [⟨index + 1, index + 1⟩], some "inspection"⟩ := by
  have merged : normalizeContextIntervals [⟨index + 1, index + 1⟩] =
      .ok [⟨index + 1, index + 1⟩] := by
    refine refuseIf_bind_eq_ok.mpr ⟨by simp, rfl⟩
  refine bind_eq_ok.mpr ⟨_, rfl, refuseIf_bind_eq_ok.mpr ⟨by simp, ?_⟩⟩
  dsimp only [List.flatMap_cons, List.flatMap_nil, List.append_nil]
  rw [if_neg (by decide)]
  refine refuseIf_bind_eq_ok.mpr ⟨by simp, bind_eq_ok.mpr ⟨_, merged, bind_eq_ok.mpr
    ⟨inspection, rfl, refuseIf_bind_eq_ok.mpr ⟨?_, rfl⟩⟩⟩⟩
  simpa [units] using within

/-- A single unit is sent within a budget for all units. -/
theorem sourceContext_single (index : Nat) {text : Text} (unpaged : source.isPaged = false)
    (executed : ∀ requested used, executedText readers requested used source = .ok (used, text))
    (few : (contextTextSegments text).length < maxU32) :
    ∃ limit used', sourceContext readers limit 0
        ⟨"paragraphs", [⟨index + 1, index + 1⟩], some "inspection"⟩ source =
      .ok (used', joinUnits (contextTextSegments text)[index]?.toList) := by
  obtain ⟨total, budget⟩ : ∃ total,
      reserveUnits total 0 (contextTextSegments text)[index]?.toList = .ok total :=
    ⟨_, reserveUnits_eq_ok (Nat.le_refl _)⟩
  refine ⟨total, total, bind_eq_ok.mpr ⟨_, executed _ _, ?_⟩⟩
  dsimp only
  rw [unpaged, if_neg (by decide)]
  refine refuseIf_bind_eq_ok.mpr ⟨by simp, ?_⟩
  dsimp only
  rw [if_neg (by decide), unitsIn_single few, budget]
  rfl

/-- A source without an inspected text has nothing to be ended plainly. -/
theorem plainlyEnded_of_uninspected
    (uninspected : ∀ seen, inspectedText source ≠ .ok (some seen)) : source.PlainlyEnded := by
  cases source with
  | redacted text => trivial
  | original name originalText bytes =>
      intro empty format text decoded
      refine absurd ?_ (uninspected text)
      rw [inspectedText, empty, if_neg (by simp), if_pos format, decoded]
      rfl
  | attachment name bytes =>
      intro format text decoded
      refine absurd ?_ (uninspected text)
      rw [inspectedText, if_pos format, decoded]
      rfl

/-- A joined unit is the unit. -/
theorem getElem?_of_joinUnits {units : List Text} {index : Nat} {unit : Text}
    (nonempty : unit ≠ []) (same : joinUnits units[index]?.toList = joinUnits [unit]) :
    units[index]? = some unit := by
  have single (unit : Text) : joinUnits [unit] = unit := List.intercalate_singleton
  cases found : units[index]? with
  | none =>
      rw [found, single] at same
      exact absurd same.symm nonempty
  | some other =>
      rw [found, Option.toList_some, single, single] at same
      rw [same]

/-- Units which are sent as they are offered are the units of the execution. -/
theorem prefix_of_numberedAlike {seen text : Text}
    (alike : NumberedAlike readers source)
    (inspected : inspectedText source = .ok (some seen)) (unpaged : source.isPaged = false)
    (executed : ∀ requested used, executedText readers requested used source = .ok (used, text))
    (fewSeen : (contextTextSegments seen).length < maxU32)
    (fewText : (contextTextSegments text).length < maxU32) :
    contextTextSegments seen <+: contextTextSegments text := by
  have offered : offeredUnits source = some (contextTextSegments seen) := by
    rw [offeredUnits, inspected]
  rw [List.prefix_iff_getElem?]
  intro index inSeen
  obtain ⟨limit, used', sent⟩ := sourceContext_single index unpaged executed fewText
  have within : index + 1 ≤ (paragraphInspection source.format seen).unitCount :=
    Nat.le_min.mpr ⟨inSeen, by omega⟩
  have selected := (alike (fun _ => some _) _ _ _ _ _ _ _ (fun _ _ found => by
    cases found
    exact inspectAiContextSource_text inspected) offered
    (canonicalSelection_single rfl within) rfl sent).1
  rw [List.flatMap_cons, List.flatMap_nil, List.append_nil, unitsIn_single fewSeen,
    List.getElem?_eq_getElem inSeen] at selected
  exact getElem?_of_joinUnits
    (nonempty_of_mem_contextTextSegments (List.getElem_mem inSeen)) selected

/-- The units of a text which is read are few enough to be numbered. -/
theorem few_units {seen : Text}
    (bounded : Text.byteLength (Text.unifyLineEnds (stripByteOrderMark seen)) ≤ maxTextBytes) :
    (contextTextSegments seen).length < maxU32 ∧
      (contextTextSegments (Text.unifyLineEnds (stripByteOrderMark seen))).length < maxU32 := by
  have shortText := Text.length_le_byteLength (Text.unifyLineEnds (stripByteOrderMark seen))
  have shortStripped := Text.length_le_unifyLineEnds (stripByteOrderMark seen)
  have shortSeen : seen.length ≤ (stripByteOrderMark seen).length + 1 := by
    rw [stripByteOrderMark]
    split_ifs
    · rw [List.length_tail]
      omega
    · exact Nat.le_succ _
  have fewSeen := length_contextTextSegments_le seen
  have fewText := length_contextTextSegments_le (Text.unifyLineEnds (stripByteOrderMark seen))
  simp only [maxTextBytes, maxU32] at bounded ⊢
  omega

/-- For a source which the execution can read, every selection of units which the inspection
accepts is sent as it was offered exactly when the text of the source is stored, or its bytes
decode to a text without a byte order mark and without a carriage return inside a paragraph. -/
theorem numberedAlike_iff {requested : AiContextRangeSelection} {used : Nat} {result : Nat × Text}
    (readable : executedText readers requested used source = .ok result) :
    NumberedAlike readers source ↔ source.PlainlyEnded := by
  by_cases known : ∃ seen, inspectedText source = .ok (some seen)
  · obtain ⟨seen, inspected⟩ := known
    obtain ⟨unpaged, always, texts⟩ := executedText_cases inspected readable
    constructor
    · intro alike
      obtain ⟨_, plain⟩ | ⟨same, bounded, plain⟩ := texts
      · exact plain
      · rw [same] at bounded always
        obtain ⟨fewSeen, fewText⟩ := few_units bounded
        exact plain.mpr (plainlyEnded_of_isPrefix
          (prefix_of_numberedAlike alike inspected unpaged always fewSeen fewText))
    · intro ended inspections supplied selection units limit used used' sent inspected' offered
        accepted mode done
      have sameUnits : contextTextSegments result.2 = contextTextSegments seen := by
        obtain ⟨same, _⟩ | ⟨same, _, plain⟩ := texts
        · rw [same]
        · rw [same, contextTextSegments_of_plainlyEnded (plain.mp ended)]
      obtain ⟨numbers, hash, inspection, found, within⟩ := canonicalSelection_eq_ok accepted mode
      rw [offeredUnits, inspected, Option.some.injEq] at offered
      obtain ⟨text, executed, rfl⟩ := sourceContext_eq_ok unpaged mode done
      obtain rfl := Except.ok.inj (executed.symm.trans (always _ _))
      rw [sameUnits, offered, unitsIn_congr numbers]
      refine ⟨rfl, fun text again range member number covers => ?_⟩
      obtain rfl := Except.ok.inj (again.symm.trans (always _ _))
      obtain ⟨chosen, inSelection, coversNumber⟩ := (numbers number).mpr ⟨range, member, covers⟩
      have counted := inspected' hash inspection found
      rw [inspectAiContextSource_text inspected, Except.ok.injEq] at counted
      have last := within chosen inSelection
      rw [← counted] at last
      rw [sameUnits]
      exact coversNumber.2.trans (last.trans (Nat.min_le_left _ _))
  · refine iff_of_true ?_ (plainlyEnded_of_uninspected fun seen same => known ⟨seen, same⟩)
    intro inspections supplied selection units limit used used' sent _ offered
    rw [offeredUnits] at offered
    split at offered
    · next text same => exact absurd ⟨text, same⟩ known
    · cases offered

end Sources

/-! ## A text with the line ends of another system -/

section Sample

/-- Readers which know plain text only. -/
def textReaders : ContextReaders where
  hasSignature _ := false
  pdfMetadata _ := .error "corrupt_pdf"
  extractOther _ _ _ _ := .error "ocr_model_not_configured"

/-- An attachment with a blank line between carriage returns. -/
def returnsSource : ContextSource := .attachment "合同.txt".toList (utf8 "甲方\r\n\r\n乙方")

/-- An attachment with line feeds only. -/
def feedsSource : ContextSource := .attachment "合同.txt".toList (utf8 "甲方\n\n乙方")

/-- A selection of the first unit. -/
def firstUnit : AiContextRangeSelection := ⟨"paragraphs", [⟨1, 1⟩], some "inspection"⟩

/-- Selections of an attachment with line feeds are sent as they are offered. -/
theorem numberedAlike_iff_for_feeds : NumberedAlike textReaders feedsSource := by
  have readable : executedText textReaders firstUnit 0 feedsSource =
      .ok (0, "甲方\n\n乙方".toList) := by
    decide
  have plain : PlainlyEnded "甲方\n\n乙方".toList := by decide
  have decoded : decodeUtf8 (utf8 "甲方\n\n乙方") = some "甲方\n\n乙方".toList := by decide
  refine (numberedAlike_iff readable).mpr fun _ text known => ?_
  obtain rfl := Option.some.inj (decoded.symm.trans known)
  exact plain

/-- The inspection of an attachment with carriage returns offers one unit, which is accepted, but
the execution sends the first of two. -/
theorem returns_are_numbered_differently :
    offeredUnits returnsSource = some ["甲方\r\n\r\n乙方".toList] ∧
      inspectAiContextSource textReaders returnsSource =
        .ok ⟨"txt", "paragraph", 1, "paragraph-v1", 1024, "paragraph_v1_upper_bound"⟩ ∧
      canonicalSelection (fun _ => (inspectAiContextSource textReaders returnsSource).toOption)
        [firstUnit] = .ok firstUnit ∧
      sourceContext textReaders 16384 0 firstUnit returnsSource = .ok (6, "甲方".toList) ∧
      joinUnits (unitsIn [⟨1, 1⟩] ["甲方\r\n\r\n乙方".toList]) = "甲方\r\n\r\n乙方".toList := by
  decide +kernel

end Sample

end LawyerAssistance.AiContext

import LawyerAssistance.FileIngest.PlainText
import Mathlib.Data.List.Sort

/-!
# Units of a context source

A text source of a task is offered in numbered units: its paragraphs, cut into segments. The
inspection counts the units, a request selects ranges of their numbers, and the execution selects
the units with these numbers from the text which it reads.
-/

namespace LawyerAssistance.AiContext

open FileIngest

/-! ## Segments -/

/-- `SEGMENT_BYTES`. -/
def segmentBytes : Nat := 1024

/-- The segments of a paragraph, behind the characters of the segment which was begun. -/
def cutParagraph : Text → Text → List Text
  | segment, [] => if segment = [] then [] else [segment]
  | segment, character :: rest =>
      if segment ≠ [] ∧ segmentBytes < Text.byteLength segment + character.utf8Size then
        segment :: cutParagraph [character] rest
      else cutParagraph (segment ++ [character]) rest

/-- `context_text_segments`. -/
def contextTextSegments (text : Text) : List Text := (Text.paragraphs text).flatMap (cutParagraph [])

/-! ## Selections -/

/-- `AiContextUnitRange`. -/
structure AiContextUnitRange where
  start : Nat
  «end» : Nat
deriving DecidableEq, Repr

/-- The number is in the range. -/
def AiContextUnitRange.Covers (range : AiContextUnitRange) (number : Nat) : Prop :=
  range.start ≤ number ∧ number ≤ range.end

instance (range : AiContextUnitRange) (number : Nat) : Decidable (range.Covers number) :=
  inferInstanceAs (Decidable (_ ∧ _))

/-- `AiContextRangeSelection`, for one source. -/
structure AiContextRangeSelection where
  mode : String
  ranges : List AiContextUnitRange
  inspectionHash : Option String
deriving DecidableEq, Repr

/-- `AiContextInspection`, without the source which it is bound to. -/
structure AiContextInspection where
  format : String
  unitKind : String
  unitCount : Nat
  unitVersion : String
  estimatedInputTokens : Nat
  estimateBasis : String
deriving DecidableEq, Repr

/-- `u32::MAX`. -/
def maxU32 : Nat := 4294967295

/-- The order of intervals before they are merged. -/
def IntervalLe (first second : AiContextUnitRange) : Prop :=
  first.start < second.start ∨ (first.start = second.start ∧ first.end ≤ second.end)

instance : DecidableRel IntervalLe := fun _ _ => inferInstanceAs (Decidable (_ ∨ _))

/-- The loop of `normalize_context_intervals`, behind the interval which was last. -/
def mergeIntervals : AiContextUnitRange → List AiContextUnitRange → List AiContextUnitRange
  | previous, [] => [previous]
  | previous, range :: rest =>
      if range.start ≤ previous.end + 1 then
        mergeIntervals { previous with «end» := max previous.end range.end } rest
      else previous :: mergeIntervals range rest

/-- `normalize_context_intervals`. -/
def normalizeContextIntervals (ranges : List AiContextUnitRange) :
    Except String (List AiContextUnitRange) := do
  refuseIf (ranges.any (fun range => range.start = 0 || range.end < range.start) = true)
    "context_scope_invalid"
  match ranges.insertionSort IntervalLe with
  | [] => pure []
  | first :: rest => pure (mergeIntervals first rest)

/-- `canonical_context_ranges_metadata`, for the entries of one source and the inspections which
are bound to its current version. -/
def canonicalSelection (inspections : String → Option AiContextInspection)
    (supplied : List AiContextRangeSelection) : Except String AiContextRangeSelection := do
  let first ← presentOr supplied.head? "context_scope_invalid"
  refuseIf (["all", "pages", "paragraphs"].contains first.mode = false ∨
    supplied.any (fun entry => entry.mode ≠ first.mode ||
      entry.inspectionHash ≠ first.inspectionHash) = true) "context_scope_invalid"
  let ranges := supplied.flatMap AiContextRangeSelection.ranges
  if first.mode = "all" then do
    refuseIf (ranges ≠ []) "context_scope_invalid"
    pure ⟨first.mode, [], none⟩
  else do
    refuseIf (ranges = [] ∨ first.inspectionHash.getD "" = "") "context_scope_invalid"
    let merged ← normalizeContextIntervals ranges
    let inspection ← presentOr (inspections (first.inspectionHash.getD ""))
      "context_prepare_required"
    let expectedUnit := if first.mode = "pages" then "page" else "paragraph"
    refuseIf (inspection.unitKind ≠ expectedUnit ∨
      merged.any (fun range => inspection.unitCount < range.end) = true) "context_scope_invalid"
    pure ⟨first.mode, merged, first.inspectionHash⟩

/-! ## Execution -/

/-- The number of a unit at an index. -/
def unitNumber (index : Nat) : Nat := min (index + 1) maxU32

/-- The units of a list with their numbers. -/
def numbered (units : List Text) : List (Nat × Text) :=
  units.zipIdx.map fun (unit, index) => (unitNumber index, unit)

/-- The units whose numbers are in a range. -/
def unitsIn (ranges : List AiContextUnitRange) (units : List Text) : List Text :=
  ((numbered units).filter fun unit => ranges.any fun range => decide (range.Covers unit.1)).map
    Prod.snd

/-- The reservations of the units, of what is left of a budget. -/
def reserveUnits (limit : Nat) : Nat → List Text → Except String Nat
  | used, [] => pure used
  | used, unit :: rest => do
      refuseIf (limit < used + Text.byteLength unit) "context_budget_exceeded"
      reserveUnits limit (used + Text.byteLength unit) rest

/-- Units as they are sent. -/
def joinUnits (units : List Text) : Text := ['\n', '\n'].intercalate units

/-- `select_context_text`. -/
def selectContextText (limit used : Nat) (requested : AiContextRangeSelection) (text : Text) :
    Except String (Nat × Text) := do
  refuseIf (["all", "paragraphs"].contains requested.mode = false) "context_scope_invalid"
  let units := contextTextSegments text
  let selected := if requested.mode = "all" then units else unitsIn requested.ranges units
  let used ← reserveUnits limit used selected
  pure (used, joinUnits selected)

/-! ## Sources -/

/-- One version of a source: the result of a redacted material, an original material with the text
which was extracted from it, if any, or an attachment. -/
inductive ContextSource where
  | redacted (text : Text)
  | original (name originalText : Text) (bytes : Octets)
  | attachment (name : Text) (bytes : Octets)

/-- The libraries and processes which read a source: the signature of known binary formats, the
page tree of a PDF, and the extraction of everything but plain text, within a budget. -/
structure ContextReaders where
  hasSignature : Octets → Bool
  pdfMetadata : Octets → Except String (Nat × Nat × String)
  extractOther : FileFormat → Octets → AiContextRangeSelection → Nat → Except String (Nat × Text)

/-- `context_format`. -/
def contextFormat (name : Text) : String :=
  match extension name with
  | some extension =>
      if ["txt", "md", "markdown", "docx", "pdf", "png", "jpg", "jpeg", "webp"].contains extension
      then extension else "unknown"
  | none => "unknown"

/-- The format is plain text. -/
def isTextFormat (format : String) : Bool := ["txt", "md", "markdown"].contains format

/-- The inspection of a text. -/
def paragraphInspection (format : String) (text : Text) : AiContextInspection :=
  let units := (contextTextSegments text).length
  ⟨format, "paragraph", min units maxU32, "paragraph-v1", min (units * 1024) maxU32,
    "paragraph_v1_upper_bound"⟩

section Readers

variable (readers : ContextReaders)

/-- The text of a source which the inspection reads, if it has one. -/
def inspectedText : ContextSource → Except String (Option Text)
  | .redacted text => pure (some text)
  | .original name originalText bytes =>
      if originalText ≠ [] then pure (some originalText)
      else if isTextFormat (contextFormat name) then do
        let text ← presentOr (decodeUtf8 bytes) "invalid_text_encoding"
        pure (some text)
      else pure none
  | .attachment name bytes =>
      if isTextFormat (contextFormat name) then do
        let text ← presentOr (decodeUtf8 bytes) "invalid_text_encoding"
        pure (some text)
      else pure none

/-- The format of a source, as an inspection reports it. -/
def ContextSource.format : ContextSource → String
  | .redacted _ => "text"
  | .original name _ _ => contextFormat name
  | .attachment name _ => contextFormat name

/-- The stored bytes of a source. -/
def ContextSource.bytes : ContextSource → Octets
  | .redacted _ => []
  | .original _ _ bytes => bytes
  | .attachment _ bytes => bytes

/-- `inspect_ai_context_source`. -/
def inspectAiContextSource (source : ContextSource) : Except String AiContextInspection := do
  match ← inspectedText source with
  | some text => pure (paragraphInspection source.format text)
  | none =>
      if source.format = "pdf" then do
        let (pageCount, estimatedInputTokens, estimateBasis) ← readers.pdfMetadata source.bytes
        pure ⟨"pdf", "page", pageCount, "pdf-page-v1", estimatedInputTokens, estimateBasis⟩
      else pure ⟨source.format, "none", 0, "none-v1", 0, "all_only"⟩

/-- `extract_ai_attachment_scoped`. -/
def extractAiAttachment (name : Text) (bytes : Octets) (requested : AiContextRangeSelection)
    (used : Nat) : Except String (Nat × Text) :=
  match detectFormat name with
  | .error error => .error error.code
  | .ok .txt | .ok .markdown =>
      match extractText readers.hasSignature bytes with
      | .error error => .error error.code
      | .ok text => .ok (used, text)
  | .ok format => readers.extractOther format bytes requested used

/-- The text of a source which the execution reads. -/
def executedText (requested : AiContextRangeSelection) (used : Nat) :
    ContextSource → Except String (Nat × Text)
  | .redacted text => pure (used, text)
  | .original name originalText bytes =>
      if originalText ≠ [] then pure (used, originalText)
      else extractAiAttachment readers name bytes requested used
  | .attachment name bytes => extractAiAttachment readers name bytes requested used

/-- The text is not selected from again: the pages of a PDF are selected while it is read. -/
def ContextSource.isPaged : ContextSource → Bool
  | .redacted _ => false
  | .original name originalText _ => originalText = [] && contextFormat name = "pdf"
  | .attachment name _ => contextFormat name = "pdf"

/-- The text of a source in the messages of a task: the part of `initial_ai_messages` for it. -/
def sourceContext (limit used : Nat) (requested : AiContextRangeSelection)
    (source : ContextSource) : Except String (Nat × Text) := do
  let (used, text) ← executedText readers requested used source
  if source.isPaged then pure (used, text) else selectContextText limit used requested text

end Readers

end LawyerAssistance.AiContext

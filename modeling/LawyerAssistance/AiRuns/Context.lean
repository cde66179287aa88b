import Mathlib.Order.WithBot
import LawyerAssistance.AiRuns.Types

/-!
# Contexts of conversations

A manifest names materials and attachments and the ranges of them which a conversation may
use. `contextContainsManifest` compares two manifests, and `historyTurnIdsForContext` selects
the turns of a conversation whose manifests are all contained in the current one.
-/

namespace LawyerAssistance.AiRuns

/-! ## Ranges -/

/-- The source of a selection. -/
abbrev RangeKey := String × String × Option String

/-- The source of a selection: its kind, its identifier and its variant. -/
def AiContextRangeSelection.key (range : AiContextRangeSelection) : RangeKey :=
  (range.sourceKind, range.sourceId, range.source)

/-- The sort key of a source: the order of the tuple, in which no variant is the least one. -/
def sortableKey (key : RangeKey) : String ×ₗ String ×ₗ WithBot String :=
  toLex (key.1, toLex (key.2.1, key.2.2))

/-- Sort selections by their sources. -/
def sortRanges (ranges : List AiContextRangeSelection) : List AiContextRangeSelection :=
  ranges.insertionSort fun left right => sortableKey left.key ≤ sortableKey right.key

/-- The selection of all of a material. -/
def materialRange (material : AiMaterialReference) : AiContextRangeSelection :=
  ⟨"material", material.id, some material.source, "all", [], none⟩

/-- The selection of all of an attachment. -/
def attachmentRange (attachmentId : String) : AiContextRangeSelection :=
  ⟨"attachment", attachmentId, none, "all", [], none⟩

/-- `implicit_context_ranges`. -/
def implicitContextRanges (materials : List AiMaterialReference) (attachmentIds : List String) :
    List AiContextRangeSelection :=
  sortRanges (materials.map materialRange ++ attachmentIds.map attachmentRange)

/-- `manifest_context_ranges`. -/
def manifestContextRanges (manifest : AiContextManifest) : List AiContextRangeSelection :=
  if manifest.contextRanges = [] then
    implicitContextRanges manifest.materials manifest.attachmentIds
  else manifest.contextRanges

/-- `interval_set_contains`. -/
def intervalSetContains (current required : List AiContextUnitRange) : Bool :=
  required.all fun needed =>
    current.any fun available => available.start ≤ needed.start && needed.end ≤ available.end

/-- `range_selection_contains`. -/
def rangeSelectionContains (current required : AiContextRangeSelection) : Bool :=
  current.key == required.key &&
    (current.mode == "all" ||
      (current.mode == required.mode && required.mode != "all" &&
        intervalSetContains current.ranges required.ranges))

/-- `context_contains_manifest`. -/
def contextContainsManifest (current required : AiContextManifest) : Bool :=
  (required.materials.all fun item => current.materials.contains item) &&
    (required.attachmentIds.all fun item => current.attachmentIds.contains item) &&
    (manifestContextRanges required).all fun needed =>
      (manifestContextRanges current).any fun available => rangeSelectionContains available needed

/-! ## Histories -/

/-- A message of a turn whose manifest the current one contains. -/
def permittedMessage (current : AiContextManifest) (message : ConversationMessage) : Bool :=
  (message.role == "user" || message.role == "assistant") &&
    message.contextManifest.any (contextContainsManifest current)

/-- The messages of one turn. -/
def turnMessages (messages : List ConversationMessage) (runId : String) :
    List ConversationMessage :=
  messages.filter fun message => message.runId == some runId

/-- A turn of a user and an assistant whose messages are all permitted. -/
def permittedTurn (messages : List ConversationMessage) (current : AiContextManifest)
    (runId : String) : Bool :=
  let turn := turnMessages messages runId
  (turn.any fun message => message.role == "user") &&
    (turn.any fun message => message.role == "assistant") &&
    turn.all (permittedMessage current)

/-- `history_turn_ids_for_context`, each turn where it first appears. -/
def historyTurnIdsForContext (messages : List ConversationMessage) (current : AiContextManifest) :
    List String :=
  ((messages.filterMap ConversationMessage.runId).reverse.dedup.reverse).filter
    (permittedTurn messages current)

/-- The turns which a budget admits, from the newest to the oldest. A turn which does not fit is
omitted, and an older one may still fit. -/
def selectTurns (services : Services) (messages : List ConversationMessage) :
    List String → Nat → Except String (List String)
  | [], _ => .ok []
  | runId :: older, remaining =>
      let tokens := ((turnMessages messages runId).map fun message =>
        services.estimateTextTokens message.content).sum
      if remaining < tokens then selectTurns services messages older remaining
      else do
        services.reserveHistory runId
        let selected ← selectTurns services messages older (remaining - tokens)
        pure (runId :: selected)

/-! ## Selections of a request -/

/-- `normalize_context_intervals`. -/
def normalizeContextIntervals (ranges : List AiContextUnitRange) :
    Except String (List AiContextUnitRange) := do
  refuseIf (∃ range ∈ ranges, range.start = 0 ∨ range.end < range.start) "context_scope_invalid"
  let sorted := ranges.insertionSort fun left right =>
    toLex (left.start, left.end) ≤ toLex (right.start, right.end)
  pure (sorted.foldl extendIntervals [] |>.reverse)
where
  /-- Extend the last interval by one which overlaps or touches it. -/
  extendIntervals (canonical : List AiContextUnitRange) (range : AiContextUnitRange) :
      List AiContextUnitRange :=
    match canonical with
    | previous :: rest =>
        if range.start ≤ min (previous.end + 1) (2 ^ 32 - 1) then
          ⟨previous.start, max previous.end range.end⟩ :: rest
        else range :: previous :: rest
    | [] => [range]

/-- The limits of an identifier. -/
def validSourceId (id : String) : Bool := id ≠ "" && decide (id.utf8ByteSize ≤ 200)

/-- The materials of a context: each is named once, and is there. -/
def checkMaterials (present : String → Except String Unit) :
    List AiMaterialReference → List AiMaterialReference → Except String Unit
  | _, [] => .ok ()
  | seen, material :: rest => do
      refuseIf (validSourceId material.id = false ∨
        (material.source ≠ "redacted" ∧ material.source ≠ "original") ∨ material ∈ seen)
        "invalid_ai_request"
      present material.id
      checkMaterials present (material :: seen) rest

/-- The attachments of a context: each is named once, and is there. -/
def checkAttachments (present : String → Except String Unit) :
    List String → List String → Except String Unit
  | _, [] => .ok ()
  | seen, attachmentId :: rest => do
      refuseIf (validSourceId attachmentId = false ∨ attachmentId ∈ seen) "invalid_ai_request"
      present attachmentId
      checkAttachments present (attachmentId :: seen) rest

/-- The shape of a context, with a check that a source of a kind is there. -/
def checkShape (present : String → String → Except String Unit)
    (materials : List AiMaterialReference) (attachmentIds : List String) : Except String Unit := do
  refuseIf (30 < materials.length ∨ 20 < attachmentIds.length) "invalid_ai_request"
  checkMaterials (present "material") [] materials
  checkAttachments (present "ai_attachment") [] attachmentIds

/-- Put a selection to the earlier ones of its source. -/
def groupRange (expected : List RangeKey) (grouped : List AiContextRangeSelection)
    (range : AiContextRangeSelection) : Except String (List AiContextRangeSelection) := do
  refuseIf (range.key ∉ expected ∨ validSourceId range.sourceId = false ∨
    range.mode ∉ ["all", "pages", "paragraphs"]) "context_scope_invalid"
  match grouped.find? fun existing => existing.key == range.key with
  | some existing =>
      refuseIf (existing.mode ≠ range.mode ∨ existing.inspectionHash ≠ range.inspectionHash)
        "context_scope_invalid"
      pure (grouped.map fun item =>
        if item.key = range.key then { item with ranges := item.ranges ++ range.ranges } else item)
  | none => pure (grouped ++ [range])

section Selections

variable (services : Services)

/-- `check_context_shape`: every source opens. -/
def checkContextShape (materials : List AiMaterialReference) (attachmentIds : List String) :
    Except String Unit :=
  checkShape services.opens materials attachmentIds

/-- `check_context_shape_metadata`: every source has a summary. -/
def checkContextShapeMetadata (materials : List AiMaterialReference) (attachmentIds : List String) :
    Except String Unit :=
  checkShape (fun kind id => do
    let summary ← services.maybeSummary kind id
    refuseIf (summary = false) "invalid_ai_request") materials attachmentIds

/-- One selection of a source in its canonical form. -/
def canonicalRange (range : AiContextRangeSelection) : Except String AiContextRangeSelection := do
  if range.mode = "all" then
    refuseIf (range.ranges ≠ []) "context_scope_invalid"
    pure { range with inspectionHash := none }
  else
    refuseIf (range.ranges = [] ∨ range.inspectionHash.getD "" = "") "context_scope_invalid"
    let ranges ← normalizeContextIntervals range.ranges
    let (unitKind, unitCount) ← services.inspection { range with ranges }
    refuseIf (unitKind ≠ (if range.mode = "pages" then "page" else "paragraph") ∨
      ∃ item ∈ ranges, unitCount < item.end) "context_scope_invalid"
    pure { range with ranges }

/-- `canonical_context_ranges_metadata`. -/
def canonicalContextRangesMetadata (materials : List AiMaterialReference)
    (attachmentIds : List String) (supplied : List AiContextRangeSelection) :
    Except String (List AiContextRangeSelection) := do
  checkContextShapeMetadata services materials attachmentIds
  if supplied = [] then pure (implicitContextRanges materials attachmentIds)
  else
    let expected := (implicitContextRanges materials attachmentIds).map AiContextRangeSelection.key
    let grouped ← supplied.foldlM (groupRange expected) []
    refuseIf (grouped.length ≠ expected.dedup.length) "context_scope_invalid"
    let canonical ← (sortRanges grouped).mapM (canonicalRange services)
    pure (sortRanges canonical)

end Selections

/-! ## Sources of a manifest -/

/-- A source which a manifest names. -/
def AiContextManifest.names (manifest : AiContextManifest) (key : RangeKey) : Prop :=
  (∃ material ∈ manifest.materials, key = ("material", material.id, some material.source)) ∨
    ∃ attachmentId ∈ manifest.attachmentIds, key = ("attachment", attachmentId, none)

/-- The shape which a replacement gives to a context: the identifiers are not empty, and the
ranges are one selection of each of some sources of the manifest. -/
structure AiContextManifest.Shaped (manifest : AiContextManifest) : Prop where
  materials : ∀ material ∈ manifest.materials, material.id ≠ "" ∧ material.source ≠ ""
  attachments : ∀ attachmentId ∈ manifest.attachmentIds, attachmentId ≠ ""
  named : ∀ range ∈ manifestContextRanges manifest, manifest.names range.key
  once : ((manifestContextRanges manifest).map AiContextRangeSelection.key).Nodup

end LawyerAssistance.AiRuns

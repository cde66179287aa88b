import Mathlib.Data.List.Sort
import Mathlib.Data.Prod.Lex
import Mathlib.Data.String.Basic
import LawyerAssistance.Std.Program
import LawyerAssistance.Std.Table
import LawyerAssistance.Storage.Derivation
import Mathlib.Algebra.GroupWithZero.Nat

/-!
# Runs of the assistant and their conversations

The records of `ai_runs.rs`, the rows of the store which its operations read and write, and
the services which they ask. Every answer of a service is an input, so that the operations are
total functions of the store and the answers.
-/

namespace LawyerAssistance.AiRuns

open Storage

/-! ## Contexts -/

/-- A material of a context, as it was uploaded or redacted. -/
structure AiMaterialReference where
  id : String
  source : String
deriving DecidableEq, Repr

/-- An interval of pages or paragraphs, both ends included. -/
structure AiContextUnitRange where
  start : Nat
  «end» : Nat
deriving DecidableEq, Repr

/-- The requested extent of one source. -/
structure AiContextRangeSelection where
  sourceKind : String
  sourceId : String
  source : Option String
  mode : String
  ranges : List AiContextUnitRange
  inspectionHash : Option String
deriving DecidableEq, Repr

/-- The sources of a conversation which the user reviewed. -/
structure AiContextManifest where
  revision : Nat
  materials : List AiMaterialReference
  attachmentIds : List String
  contextRanges : List AiContextRangeSelection
  updatedAt : Nat
deriving DecidableEq, Repr

/-- What `AiContextPlan` says about the scope, the budget and the model. -/
structure AiContextPlan where
  planHash : String
  stage : String
  supportsTools : Option Bool
  supportsStructuredOutput : Option Bool
  supportsVision : Option Bool
  attachmentFormats : List (Option String)
  historyRunIds : List String
deriving DecidableEq, Repr

/-! ## Runs -/

/-- A provider and one of its models. -/
structure AiModelSelection where
  providerId : String
  model : String
deriving DecidableEq, Repr

/-- `AiRunRequest`. -/
structure AiRunRequest where
  kind : String
  prompt : String := ""
  providerId : Option String := none
  model : Option String := none
  materials : List AiMaterialReference := []
  attachmentIds : List String := []
  contextRanges : List AiContextRangeSelection := []
  caseDate : Option String := none
  versionScope : Option String := none
  documentType : Option String := none
  requirements : Option String := none
  conversationId : Option String := none
  contextRevision : Option Nat := none
  contextPreparationHash : Option String := none
  contextPlanHash : Option String := none
  parentId : Option String := none
deriving DecidableEq, Repr

/-- The states of a run. -/
inductive RunStatus where
  | queued
  | running
  | completed
  | failed
  | cancelled
  | paused
  | interrupted
deriving DecidableEq, Repr

namespace RunStatus

/-- The text of a state. -/
def text : RunStatus → String
  | queued => "queued"
  | running => "running"
  | completed => "completed"
  | failed => "failed"
  | cancelled => "cancelled"
  | paused => "paused"
  | interrupted => "interrupted"

/-- `["queued", "running"].contains`. -/
def isActive : RunStatus → Bool
  | queued | running => true
  | _ => false

end RunStatus

/-- `AiRun`. -/
structure AiRun where
  id : String
  documentId : Option String
  kind : String
  status : RunStatus
  stage : String
  prompt : String
  title : String
  content : String
  html : String
  citations : List Json
  citationVerification : Option Json
  errorCode : Option String
  usage : Json
  createdAt : Nat
  updatedAt : Nat
  providerId : String
  model : String
  request : AiRunRequest
  messages : List Json
  bindings : List (String × String × String)
  providerRevision : Nat
  providerProfileHash : String
  originalMaterialRevisions : List (String × Nat)
  contextManifest : Option AiContextManifest
  contextPlan : Option AiContextPlan
  revision : Nat

namespace AiRun

/-- A run which is queued or running. -/
def isActive (run : AiRun) : Bool := run.status.isActive

/-- `AiRun::writing_document_id`. -/
def writingDocumentId (run : AiRun) : Option String :=
  if run.kind = "writing" then
    some ((run.documentId.filter fun id => id ≠ "").getD run.id)
  else none

/-- The fields of a run which the index and its relations read. -/
def value (run : AiRun) : Json :=
  .object
    [("kind", .string run.kind), ("status", .string run.status.text),
      ("request", .object
        [("conversation_id", .ofOption run.request.conversationId),
          ("parent_id", .ofOption run.request.parentId),
          ("materials", .array (run.request.materials.map fun material =>
            .object [("id", .string material.id), ("source", .string material.source)])),
          ("attachment_ids", .array (run.request.attachmentIds.map .string))])]

/-- The relations of a run. -/
def relations (run : AiRun) : List Relation := relationsForValue "ai_run" run.value

end AiRun

/-! ## Conversations -/

/-- A message of a conversation. Messages of earlier versions have no run. -/
structure ConversationMessage where
  role : String
  content : String
  runId : Option String
  createdAt : Nat
  contextManifest : Option AiContextManifest
deriving DecidableEq, Repr

/-- `AiConversation`. -/
structure AiConversation where
  id : String
  title : String
  titleManual : Bool
  messages : List ConversationMessage
  materials : List AiMaterialReference
  attachmentIds : List String
  contextRanges : List AiContextRangeSelection
  contextRevision : Nat
  contextKnown : Bool
  updatedAt : Nat
deriving DecidableEq, Repr

/-- `context_manifest`. -/
def contextManifest (conversation : AiConversation) : AiContextManifest :=
  ⟨conversation.contextRevision, conversation.materials, conversation.attachmentIds,
    conversation.contextRanges, conversation.updatedAt⟩

/-! ## The store -/

/-- An object which is written. -/
inductive Row where
  | run (run : AiRun)
  | conversation (conversation : AiConversation)

/-- One transaction of the store: `put_many`, or `delete` of a run. -/
inductive Batch where
  | put (rows : List Row)
  | deleteRun (id : String)

/-- The objects of the store. `written` is a record for proofs: every row of a run which was ever
written, the newest first. No operation reads it. -/
structure Store where
  runs : Table AiRun
  conversations : Table AiConversation
  written : List AiRun

namespace Store

/-- A workspace without runs and conversations. -/
def empty : Store := ⟨∅, ∅, []⟩

/-- Write one object. -/
def putRow (store : Store) : Row → Store
  | .run run => { store with runs := store.runs.put run.id run, written := run :: store.written }
  | .conversation conversation =>
      { store with conversations := store.conversations.put conversation.id conversation }

/-- Apply one transaction. -/
def apply (store : Store) : Batch → Store
  | .put rows => rows.foldl putRow store
  | .deleteRun id => { store with runs := store.runs.remove id }

/-- `any_indexed_relation_with_status`, for active runs. -/
def anyActiveRelation (store : Store) (relation : Relation) : Bool :=
  store.runs.entries.any fun row => row.2.isActive && row.2.relations.contains relation

/-- `related_ids_with_status`, for active runs. -/
def activeRelatedIds (store : Store) (relations : List Relation) : List String :=
  (store.runs.entries.filter fun row =>
    row.2.isActive && row.2.relations.any relations.contains).map fun row => row.1

/-- The active runs, `ORDER BY updated_at ASC, id ASC`. -/
def activeIds (store : Store) : List String :=
  ((store.runs.entries.filter fun row => row.2.isActive).insertionSort fun first second =>
    toLex (first.2.updatedAt, first.1) ≤ toLex (second.2.updatedAt, second.1)).map fun row => row.1

end Store

/-! ## Services -/

/-- What is gathered from the materials and attachments of a run. -/
structure Gathered where
  bindings : List (String × String × String)
  context : String
  remainingTokens : Nat

/-- `AiCompletion`. -/
structure AiCompletion where
  message : Json
  usage : Json

/-- What `finalize_ai_answer` takes from a checked answer. -/
structure FinalAnswer where
  title : String
  content : String
  html : String
  citations : List Json
  citationVerification : Option Json

/-- What the operations ask of everything outside the two tables, and the answers: the gate, the
encrypted bodies, the records of materials, attachments and providers, the model and the tools. -/
structure Services where
  /-- `Workspace::lock`. -/
  gate : Except String Unit
  /-- Whether the body of a stored object opens, by its kind and identifier. -/
  reads : String → String → Except String Unit
  /-- `Store::encoded`: a body may be too large. -/
  encodes : Row → Except String Unit
  validateSearchOptions : AiRunRequest → Except String Unit
  /-- `admission.reserve`. -/
  reserve : Except String Unit
  selectedAiModel : String → Except String AiModelSelection
  /-- `Store::get` of a material or an attachment, by its kind and identifier. -/
  opens : String → String → Except String Unit
  /-- Whether the store has a summary of a kind under an identifier. -/
  maybeSummary : String → String → Except String Bool
  /-- The unit kind and the number of units of the inspection which a selection names, when it is
  an inspection of the source as it is now. -/
  inspection : AiContextRangeSelection → Except String (String × Nat)
  contextPlanFromMetadata :
    AiRunRequest → AiModelSelection → Option AiContextManifest → Except String AiContextPlan
  contextPreparationHash : AiContextManifest → AiModelSelection → AiContextPlan →
    Except String String
  checkMaterialPolicyMetadata :
    List AiMaterialReference → List String → AiModelSelection → Except String Unit
  providerProfileBinding : AiModelSelection → Except String (Nat × String)
  originalMaterialRevisions : List AiMaterialReference → Except String (List (String × Nat))
  /-- The lock of the map of cancellation tokens. -/
  chatCancellations : Except String Unit
  validateRunBindings : AiRun → Except String Unit
  /-- `admission.activate`. -/
  activate : Except String Unit
  /-- The bodies of materials and attachments which a run reads, within its budget. -/
  gather : AiRun → Except String Gathered
  estimateTextTokens : String → Nat
  /-- Whether the budget records a turn of the history. -/
  reserveHistory : String → Except String Unit
  /-- The plan with the ranges which were taken. -/
  applyActualContextScope : AiContextPlan → Except String AiContextPlan
  dispatchBudgetForRun : AiRun → Except String Unit
  /-- What `ai_complete_budgeted` does before it sends the messages. -/
  authorize : Except String Unit
  /-- The answer of the provider. -/
  complete : Except String AiCompletion
  /-- `serde_json::from_str`. -/
  fromStr : String → Option Json
  executeLegalTool : String → Json → Except String Json
  finalizeAiAnswer : AiRun → String → Except String FinalAnswer
  renderedHtml : String → String
  isIsoCalendarDate : String → Bool
  /-- `AiCitationVerification::stale_for_run`. -/
  staleForRun : AiRun → String → Json
  addUsage : Json → Json → Json

end LawyerAssistance.AiRuns

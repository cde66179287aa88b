import LawyerAssistance.AiRuns.Context
import LawyerAssistance.Std.Text

/-!
# Operations on runs and conversations

The operations of `ai_runs.rs` which a user starts: create and rename a conversation, start,
cancel, delete, continue and edit a run, replace the context of a conversation, and the
recovery when the process starts. Each is a program over the store; what it reads before it
writes is a pure function of the store.
-/

namespace LawyerAssistance.AiRuns

open Storage

/-- What an operation sends to the process and to the provider. -/
inductive Signal where
  /-- The cancellation token of a run is cancelled. -/
  | cancelToken (runId : String)
  /-- The messages of a run are sent to the provider. -/
  | dispatch (runId : String) (messages : List Json)
  /-- Turns of a conversation become the history of a run. -/
  | history (runId conversationId : String) (turns : List String)

/-- Programs over the store. -/
abbrev Op (α : Type) := Program Store Batch Signal String α

/-- `u64::checked_add(1)`. -/
def checkedAdd (value : Nat) : Except String Nat :=
  if value + 1 < 2 ^ 64 then .ok (value + 1) else .error "invalid_ai_request"

/-- A text of white space only. -/
def isBlank (text : String) : Bool := text.toList.all Text.isWhitespace

/-- `bounded`. -/
def bounded (value : String) (max : Nat) : Except String Unit :=
  refuseIf (isBlank value = true ∨ max < value.utf8ByteSize ∨ '\x00' ∈ value.toList)
    "invalid_request"

section Operations

variable (services : Services) (now : Nat)

/-! ## Reading and writing -/

/-- `Store::get` of a run. -/
def Store.openRun (store : Store) (id : String) : Except String AiRun := do
  let run ← presentOr (store.runs.get id) "not_found"
  services.reads "ai_run" id
  pure run

/-- `Store::get` of a conversation. -/
def Store.openConversation (store : Store) (id : String) : Except String AiConversation := do
  let conversation ← presentOr (store.conversations.get id) "not_found"
  services.reads "ai_conversation" id
  pure conversation

/-- `Store::summary` of a conversation. -/
def Store.conversationSummary (store : Store) (id : String) : Except String AiConversation := do
  let conversation ← presentOr (store.conversations.get id) "not_found"
  services.reads "summary/ai_conversation" id
  pure conversation

/-- `Store::summary` of a run. -/
def Store.runSummary (store : Store) (id : String) : Except String AiRun := do
  let run ← presentOr (store.runs.get id) "not_found"
  services.reads "summary/ai_run" id
  pure run

/-- `Store::save`. -/
def save (row : Row) : Op Unit := do
  Program.lift (services.encodes row)
  Program.commit (.put [row])

/-! ## Conversations -/

/-- `create_ai_conversation`. -/
def createAiConversation (id : String) (title : Option String) : Op Unit := do
  let title := title.getD ""
  Program.refuse (200 < title.utf8ByteSize) "invalid_title"
  save services (.conversation
    { id
      title := if isBlank title then "新会话" else title
      titleManual := !isBlank title
      messages := []
      materials := []
      attachmentIds := []
      contextRanges := []
      contextRevision := 1
      contextKnown := true
      updatedAt := now })

/-- One conversation of `migrate_legacy_ai_conversations`, from a version without contexts. -/
def migrateLegacyConversation (id title : String) (messages : List (String × String))
    (materialIds : List String) : Op Unit := do
  let store ← Program.current
  if (store.conversations.get id).isNone then
    save services (.conversation
      { id
        title
        titleManual := true
        messages := messages.map fun message => ⟨message.1, message.2, none, 0, none⟩
        materials := materialIds.map fun materialId => ⟨materialId, "redacted"⟩
        attachmentIds := []
        contextRanges := []
        contextRevision := 0
        contextKnown := false
        updatedAt := now })
  else pure ()

/-- `rename_ai_conversation`. -/
def renameAiConversation (id title : String) : Op Unit := do
  Program.lift (bounded title 200)
  Program.lift services.gate
  let store ← Program.current
  let conversation ← Program.lift (store.openConversation services id)
  save services (.conversation { conversation with title, titleManual := true, updatedAt := now })

/-! ## Starting a run -/

/-- The checks of a request before a reservation is made. -/
def checkRequest (request : AiRunRequest) : Except String Unit := do
  refuseIf (request.kind ∉ ["search", "writing", "chat"] ∨
    128 * 1024 < request.prompt.utf8ByteSize ∨ 30 < request.materials.length ∨
    20 < request.attachmentIds.length ∨ 32000 < (request.requirements.getD "").utf8ByteSize)
    "invalid_ai_request"
  refuseIf (request.kind ≠ "chat" ∧ isBlank request.prompt = true ∧ request.materials = [] ∧
    request.attachmentIds = []) "case_description_required"

/-- The model of a request, or the selected one. -/
def requestSelection (request : AiRunRequest) : Except String AiModelSelection :=
  let purpose := if request.kind = "writing" then "writing" else "chat"
  match request.providerId, request.model with
  | some providerId, some model =>
      if providerId ≠ "" ∧ model ≠ "" then .ok ⟨providerId, model⟩
      else services.selectedAiModel purpose
  | _, _ => services.selectedAiModel purpose

/-- A plan which the client saw must be the current one. -/
def checkPlanHash (request : AiRunRequest) (plan : AiContextPlan) : Except String Unit :=
  refuseIf (request.contextPlanHash.any fun value => value ≠ plan.planHash)
    "context_prepare_required"

/-- The context of a chat: the reviewed manifest of its conversation, which must be idle. -/
def chatContext (request : AiRunRequest) (selection : AiModelSelection) (store : Store) :
    Except String (AiRunRequest × Option AiContextManifest × AiContextPlan) := do
  let conversationId ← presentOr request.conversationId "conversation_required"
  refuseIf (store.anyActiveRelation ("conversation", conversationId) = true) "conversation_busy"
  let summary ← store.conversationSummary services conversationId
  refuseIf (summary.contextKnown = false) "context_prepare_required"
  let manifest := contextManifest summary
  let revision ← presentOr request.contextRevision "context_revision_required"
  refuseIf (revision ≠ manifest.revision) "revision_conflict"
  refuseIf (request.materials ≠ [] ∨ request.attachmentIds ≠ [] ∨ request.contextRanges ≠ [])
    "context_prepare_required"
  let base : AiRunRequest :=
    { kind := "chat"
      conversationId := some conversationId
      contextRevision := some manifest.revision }
  let preparedPlan ← services.contextPlanFromMetadata base selection (some manifest)
  let expectedHash ← services.contextPreparationHash manifest selection preparedPlan
  refuseIf (request.contextPreparationHash ≠ some expectedHash) "context_prepare_required"
  let request :=
    { request with
      materials := manifest.materials
      attachmentIds := manifest.attachmentIds
      contextRanges := manifestContextRanges manifest }
  let plan ← services.contextPlanFromMetadata request selection (some manifest)
  checkPlanHash request plan
  pure (request, some manifest, plan)

/-- The context of a search or a document: the sources of the request. -/
def requestContext (request : AiRunRequest) (selection : AiModelSelection) :
    Except String (AiRunRequest × Option AiContextManifest × AiContextPlan) := do
  let contextRanges ← canonicalContextRangesMetadata services request.materials
    request.attachmentIds request.contextRanges
  let request := { request with contextRanges }
  let plan ← services.contextPlanFromMetadata request selection none
  checkPlanHash request plan
  pure (request, none, plan)

/-- The checks of a plan against the request and the model. -/
def checkPlan (request : AiRunRequest) (plan : AiContextPlan) : Except String Unit := do
  refuseIf (isBlank request.prompt = true ∧ request.materials = [] ∧ request.attachmentIds = [])
    "case_description_required"
  refuseIf (plan.stage = "scope_required") "context_budget_exceeded"
  refuseIf (plan.supportsTools = some false) "model_tools_unsupported"
  refuseIf (plan.supportsStructuredOutput = some false) "model_structured_output_unsupported"
  refuseIf (plan.supportsVision = some false ∧ ∃ format ∈ plan.attachmentFormats,
    format ∈ [some "png", some "jpg", some "jpeg", some "webp"]) "model_vision_unsupported"

/-- The document of a run: a writing run has its own one, or that of its parent. -/
def runDocument (request : AiRunRequest) (runId : String) (store : Store) :
    Except String (Option String) :=
  if request.kind = "writing" then
    match request.parentId with
    | none => .ok (some runId)
    | some parentId => do
        let parent ← store.runSummary services parentId
        refuseIf (parent.kind ≠ "writing") "document_not_ready"
        pure parent.writingDocumentId
  else .ok none

/-- Everything in `start_ai_run` before its first write: the run which is saved. -/
def prepareRun (runId : String) (request : AiRunRequest) (store : Store) : Except String AiRun := do
  checkRequest request
  services.validateSearchOptions request
  services.reserve
  let selection ← requestSelection services request
  services.gate
  let (request, manifest, plan) ←
    if request.kind = "chat" then chatContext services request selection store
    else requestContext services request selection
  checkPlan request plan
  services.checkMaterialPolicyMetadata request.materials request.attachmentIds selection
  let (providerRevision, providerProfileHash) ← services.providerProfileBinding selection
  let originalMaterialRevisions ← services.originalMaterialRevisions request.materials
  let documentId ← runDocument services request runId store
  pure
    { id := runId
      documentId
      kind := request.kind
      status := .queued
      stage := "已加入处理队列"
      prompt := request.prompt
      title := if request.kind = "writing" then request.documentType.getD "文书草稿" else "AI 法律检索"
      content := ""
      html := ""
      citations := []
      citationVerification := none
      errorCode := none
      usage := .object [("prompt_tokens", .ofNat 0), ("completion_tokens", .ofNat 0),
        ("total_tokens", .ofNat 0)]
      createdAt := now
      updatedAt := now
      providerId := selection.providerId
      model := selection.model
      request
      messages := []
      bindings := []
      providerRevision
      providerProfileHash
      originalMaterialRevisions
      contextManifest := manifest
      contextPlan := some plan
      revision := 1 }

/-- Add the prompt of a run to its conversation. -/
def recordPrompt (run : AiRun) : Op Unit :=
  match run.request.conversationId with
  | none => pure ()
  | some conversationId => do
      let store ← Program.current
      let conversation ← Program.lift (store.openConversation services conversationId)
      save services (.conversation
        { conversation with
          messages := conversation.messages ++
            [⟨"user", run.prompt, some run.id, now, run.contextManifest⟩] })

/-- `start_ai_run`: the run which a worker is given. -/
def startAiRun (runId : String) (request : AiRunRequest) : Op AiRun := do
  let store ← Program.current
  let run ← Program.lift (prepareRun services now runId request store)
  save services (.run run)
  recordPrompt services now run
  Program.lift services.chatCancellations
  pure run

/-! ## Cancelling, deleting, continuing and editing -/

/-- `cancel_ai_run`. -/
def cancelAiRun (id : String) : Op Unit := do
  Program.lift services.gate
  let store ← Program.current
  let run ← Program.lift (store.openRun services id)
  if run.isActive then do
    Program.lift services.chatCancellations
    Program.send (.cancelToken id)
    let revision ← Program.lift (checkedAdd run.revision)
    save services (.run
      { run with
        status := .cancelled
        stage := "已取消"
        errorCode := some "cancelled"
        updatedAt := now
        revision })
  else pure ()

/-- The check of `delete_ai_run`, which holds no lock. -/
def readForDeletion (id : String) : Op Unit := do
  let store ← Program.current
  let run ← Program.lift (store.openRun services id)
  Program.refuse (run.isActive = true) "task_busy"

/-- The deletion of `delete_ai_run`. -/
def commitDeletion (id : String) : Op Unit := Program.commit (.deleteRun id)

/-- `continue_ai_run`: the run which a worker is given. -/
def continueAiRun (runId id : String) : Op AiRun := do
  Program.lift services.gate
  let store ← Program.current
  let run ← Program.lift (store.openRun services id)
  Program.refuse (run.isActive = true) "task_busy"
  Program.refuse (run.request.conversationId.isSome = true) "context_prepare_required"
  let request := { run.request with parentId := some run.id }
  Program.lift services.reserve
  Program.lift (services.validateRunBindings run)
  if run.status = .completed then startAiRun services now runId request
  else do
    Program.refuse (run.request.conversationId.any fun conversationId =>
      store.anyActiveRelation ("conversation", conversationId)) "conversation_busy"
    let resumed :=
      { run with
        documentId := run.writingDocumentId
        id := runId
        request
        status := .queued
        stage := "已加入处理队列"
        errorCode := none
        createdAt := now
        updatedAt := now
        revision := (run.revision + 1) % 2 ^ 64 }
    save services (.run resumed)
    Program.lift services.chatCancellations
    pure resumed

/-- `AiCaseDateUpdate`. -/
inductive AiCaseDateUpdate where
  | inherit
  | set (caseDate : Option String)

/-- The case date and the version scope of an edited document. -/
def editedScope (run : AiRun) : AiCaseDateUpdate →
    Except String (Option String × Option String)
  | .inherit => .ok (run.request.caseDate, run.request.versionScope)
  | .set caseDate => do
      refuseIf (caseDate.any fun date => !services.isIsoCalendarDate date) "invalid_search_request"
      pure (caseDate, some (if caseDate.isSome then "as_of" else "current"))

/-- `edit_ai_document`: the edited document is a new run. -/
def editAiDocument (runId id content : String) (expectedRevision : Nat)
    (caseDate : AiCaseDateUpdate) : Op Unit := do
  Program.lift (bounded content (2 * 1024 * 1024))
  let store ← Program.current
  let run ← Program.lift (store.openRun services id)
  Program.refuse (run.kind ≠ "writing" ∨ run.status ≠ .completed) "document_not_ready"
  Program.refuse (run.revision ≠ expectedRevision) "revision_conflict"
  let (caseDate, versionScope) ← Program.lift (editedScope services run caseDate)
  let reason :=
    if run.request.caseDate ≠ caseDate then "case_date_changed"
    else if run.request.versionScope ≠ versionScope then "search_scope_changed"
    else if run.content ≠ content then "body_changed"
    else "citation_recheck_required"
  let edited :=
    { run with
      documentId := run.writingDocumentId
      request := { run.request with parentId := some run.id, caseDate, versionScope }
      id := runId
      content
      html := services.renderedHtml content
      revision := (run.revision + 1) % 2 ^ 64
      createdAt := now
      updatedAt := now
      stage := "已保存修改" }
  save services (.run
    { edited with citationVerification := some (services.staleForRun edited reason) })

/-! ## Replacing the context of a conversation -/

/-- `run_uses_deselected_context`. -/
def runUsesDeselectedContext (run : AiRun) (conversationId : String)
    (current : AiContextManifest) : Bool :=
  if run.request.conversationId ≠ some conversationId ∨ run.isActive = false then false
  else
    let required := run.contextManifest.getD
      ⟨run.request.contextRevision.getD 0, run.request.materials, run.request.attachmentIds,
        run.request.contextRanges, 0⟩
    !contextContainsManifest current required

/-- The first selection of a source. -/
def selectionOf (manifest : AiContextManifest) (key : RangeKey) : Option AiContextRangeSelection :=
  (manifestContextRanges manifest).find? fun range => range.key == key

/-- The sources whose selection differs between two manifests. -/
def changedSources (previous current : AiContextManifest) : List RangeKey :=
  ((manifestContextRanges previous ++ manifestContextRanges current).map
    AiContextRangeSelection.key).filter fun key => selectionOf previous key ≠ selectionOf current key

/-- The relation of a source, as a replacement looks for it. -/
def sourceRelation (key : RangeKey) : Relation :=
  if key.1 = "material" then ("material_" ++ key.2.2.getD "", key.2.1) else ("attachment", key.2.1)

/-- The relations of the sources which were removed or changed. -/
def deselectedRelations (previous current : AiContextManifest) : List Relation :=
  relationSet
    (((previous.materials.filter fun material => material ∉ current.materials).map fun material =>
        ("material_" ++ material.source, material.id)) ++
      ((previous.attachmentIds.filter fun id => id ∉ current.attachmentIds).map fun id =>
        ("attachment", id)) ++
      (changedSources previous current).map sourceRelation)

/-- Cancel one affected run if it uses what is not selected any more. -/
def cancelDeselected (conversationId : String) (current : AiContextManifest) (store : Store)
    (runId : String) : Except String (List AiRun) := do
  let run ← store.openRun services runId
  if runUsesDeselectedContext run conversationId current then do
    let revision ← checkedAdd run.revision
    let cancelled :=
      { run with
        status := .cancelled
        stage := "会话材料已移除，任务已取消"
        errorCode := some "context_source_removed"
        updatedAt := now
        revision }
    services.encodes (.run cancelled)
    pure [cancelled]
  else pure []

/-- Everything in `replace_ai_conversation_context` before its write: the conversation with its
new context, and the runs which are cancelled. -/
def replacement (id : String) (expectedRevision : Nat) (materials : List AiMaterialReference)
    (attachmentIds : List String) (supplied : List AiContextRangeSelection) (store : Store) :
    Except String (AiConversation × List AiRun) := do
  checkContextShape services materials attachmentIds
  let contextRanges ← canonicalContextRangesMetadata services materials attachmentIds supplied
  services.gate
  let conversation ← store.openConversation services id
  refuseIf (conversation.contextRevision ≠ expectedRevision) "revision_conflict"
  let previous := contextManifest conversation
  let current := { previous with materials, attachmentIds, contextRanges }
  let contextRevision ← checkedAdd conversation.contextRevision
  let replaced :=
    { conversation with
      materials
      attachmentIds
      contextRanges
      contextKnown := true
      contextRevision
      updatedAt := now }
  services.encodes (.conversation replaced)
  let affected := store.activeRelatedIds (deselectedRelations previous current)
  let cancelled ← gather (cancelDeselected services now id (contextManifest replaced) store) affected
  pure (replaced, cancelled)

/-- Send one signal after the other. -/
def sendAll : List Signal → Op Unit
  | [] => pure ()
  | first :: rest => do
      Program.send first
      sendAll rest

/-- `replace_ai_conversation_context`. -/
def replaceAiConversationContext (id : String) (expectedRevision : Nat)
    (materials : List AiMaterialReference) (attachmentIds : List String)
    (supplied : List AiContextRangeSelection) : Op Unit := do
  let store ← Program.current
  let (replaced, cancelled) ← Program.lift
    (replacement services now id expectedRevision materials attachmentIds supplied store)
  Program.commit (.put (.conversation replaced :: cancelled.map .run))
  sendAll (cancelled.map fun run => .cancelToken run.id)

/-! ## Recovery -/

/-- Mark runs which the last process left as interrupted. -/
def interruptRuns : List String → Op Unit
  | [] => pure ()
  | runId :: rest => do
      let store ← Program.current
      let run ← Program.lift (store.openRun services runId)
      save services (.run
        { run with
          status := .interrupted
          stage := "任务中断，可继续"
          errorCode := some "ai_run_interrupted" })
      interruptRuns rest

/-- `recover_ai_runs`. -/
def recoverAiRuns : Op Unit := do
  let store ← Program.current
  interruptRuns services store.activeIds

end Operations

end LawyerAssistance.AiRuns

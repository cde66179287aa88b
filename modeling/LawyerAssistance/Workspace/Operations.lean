import LawyerAssistance.Std.Program
import LawyerAssistance.Std.Text
import LawyerAssistance.Workspace.Store

/-!
# Operations behind the gate

The requests which the service answers while it holds the workspace gate, as
programs over the store. Each reads the store, checks the request and commits its
rows in one or more transactions. What the source draws from outside enters as an
argument: fresh identifiers, the time, and the answer of the credential vault. The
JSON views which the requests return are left out.
-/

namespace LawyerAssistance.Workspace

open PrivacyText

/-- One poll of the transport under a consent. The first poll of a dispatch sends it, and
the later ones carry it on. -/
structure CloudPoll where
  consentId : Id
  materialId : Id
  revision : Nat
  first : Bool
deriving DecidableEq, Repr

/-- What a program tells the rest of the process: cancelled tokens, polls of a cloud
dispatch and requests to the redaction or OCR model. -/
inductive Signal where
  | cancelTask (taskId : Id)
  | cancelAll
  | cloudPoll (poll : CloudPoll)
  | modelRequest (materialId : Id) (revision : Nat)
deriving DecidableEq, Repr

/-- A program over the workspace store. -/
abbrev Op (α : Type) := Program Store (List Row) Signal Error α

open Program (current commit send lift refuse)

/-! ## Checks on requests -/

/-- `bounded` of the source. -/
def bounded (value : Text) (max : Nat) : Except Error Unit :=
  refuseIf (value.all Text.isWhitespace = true ∨ max < Text.byteLength value ∨ '\x00' ∈ value)
    (.new "invalid_request")

/-- The characters which a file name may not contain. -/
def invalidFilename (name : String) : Bool :=
  name.toList.any fun character => character ∈ ['/', '\\', ':']

/-- The text after the last dot in lower case; the whole name when it has no dot. -/
def extension (name : String) : String :=
  String.ofList ((name.toList.reverse.takeWhile (· ≠ '.')).reverse.map Char.toLower)

/-- `source_format` of the source. -/
def sourceFormat (name : String) : String :=
  if extension name ∈ ["txt", "md", "markdown", "docx", "pdf", "png", "jpg", "jpeg", "webp"] then
    extension name
  else
    "unknown"

/-- The size and name checks of one uploaded file in a submission. -/
def checkFile (file : ImportFile) : Except Error Unit := do
  refuseIf (20 * 1024 * 1024 < file.bytes.length) (.new "file_too_large")
  bounded file.name.toList 250
  refuseIf (invalidFilename file.name = true) (.new "invalid_filename")

/-- Report an error of the text engine under its code. -/
def textResult {α : Type} : Except TextError α → Except Error α
  | .ok value => .ok value
  | .error error => .error (.new error.code)

/-- Report every error of the text engine under one code. -/
def textResultAs {α : Type} (code : String) : Except TextError α → Except Error α
  | .ok value => .ok value
  | .error _ => .error (.new code)

@[simp] theorem textResult_eq_ok {α : Type} {result : Except TextError α} {value : α} :
    textResult result = .ok value ↔ result = .ok value := by
  cases result <;> simp [textResult]

@[simp] theorem textResultAs_eq_ok {α : Type} {code : String} {result : Except TextError α}
    {value : α} : textResultAs code result = .ok value ↔ result = .ok value := by
  cases result <;> simp [textResultAs]

/-! ## Results -/

/-- The row which revokes the result that a material names. -/
def revokedResult (store : Store) : Option Id → Except Error (List Row)
  | none => .ok []
  | some resultId => do
      let result ← Store.require (store.results.get resultId)
      .ok [.result resultId { result with revoked := true }]

/-- The result which `finish_locked` publishes. -/
def publishedResult (services : Services) (now : Nat) (resultId : Id) (m : Material) (g : Group)
    (analysis : Analysis) : ReadyResult where
  id := resultId
  materialId := m.id
  groupId := m.groupId
  revision := m.revision
  dictionaryRevision := g.dictionaryRevision
  outputSha256 := services.hash (utf8 analysis.text)
  textByteLen := Text.byteLength analysis.text
  text := analysis.text
  createdAt := now
  expiresAt := now + 30 * 24 * 3600
  revoked := false
  findings := analysis.findings
  replacements := analysis.replacements
  sourceSha256 := analysis.sourceSha256

/-- The reason which a material in review keeps, or gets when it has none. -/
def reviewReason (reasonCode : Option String) (waiting : Bool) : String :=
  match reasonCode with
  | some code => code
  | none => if waiting then "cloud_consent_required" else "manual_review_required"

/-- The material which `finish_locked` writes. -/
def finishedMaterial (resultId : Id) (m : Material) (g : Group) (analysis : Analysis)
    (waiting : Bool) : Material :=
  if analysis.needsReview then
    { m with
      dictionaryRevision := g.dictionaryRevision
      resultId := none
      status := if waiting then .awaitingConsent else .needsReview
      reasonCode := some (reviewReason m.reasonCode waiting)
      analysis := some analysis }
  else
    { m with
      dictionaryRevision := g.dictionaryRevision
      resultId := some resultId
      status := .ready
      reasonCode := none
      analysis := some analysis }

/-- The publication row of `finish_locked`, after its two checks of the analysis. -/
def publicationRows (services : Services) (now : Nat) (resultId : Id) (m : Material) (g : Group)
    (analysis : Analysis) : Except Error (List Row) :=
  if analysis.needsReview then
    .ok []
  else do
    let _ ← textResultAs "sensitive_content_blocked" (services.validateAnalysis analysis)
    let _ ← textResultAs "result_integrity_failed"
      (services.verifyAnalysisSource m.originalText analysis)
    let result := publishedResult services now resultId m g analysis
    .ok [.result result.id result]

/-- `finish_locked` of the source. -/
def finishLocked (services : Services) (now : Nat) (resultId : Id) (m : Material) (g : Group)
    (analysis : Analysis) (waiting : Bool) : Op Unit := do
  let store ← current
  let revoked ← lift (revokedResult store m.resultId)
  let published ← lift (publicationRows services now resultId m g analysis)
  let finished := finishedMaterial resultId m g analysis waiting
  commit (revoked ++ published ++ [.material finished.id finished])

/-! ## Groups and clients -/

/-- `create_group` of the source. -/
def createGroup (groupId salt : Id) (name : Text) : Op Unit := do
  lift (bounded name 160)
  commit [.group groupId
    { id := groupId
      name := String.ofList ((name.dropWhile Text.isWhitespace).reverse.dropWhile
        Text.isWhitespace).reverse
      dictionaryRevision := 1
      «namespace» := salt
      entries := [] }]

/-- `create_client` of the source; its token is not modelled. -/
def createClient (clientId : Id) (name : Text) (groupId : Id) : Op Unit := do
  lift (bounded name 120)
  let store ← current
  let _ ← lift (Store.require (store.groups.get groupId))
  commit [.client clientId ⟨clientId, groupId, true⟩]

/-- `revoke_client` of the source. -/
def revokeClient (clientId : Id) : Op Unit := do
  let store ← current
  let client ← lift (Store.require (store.clients.get clientId))
  commit [.client clientId { client with enabled := false }]

/-! ## Submission and replacement -/

/-- The material which `submit` creates for a file. -/
def newMaterial (services : Services) (groupId : Id) (group : Group) (taskId materialId : Id)
    (file : ImportFile) : Material where
  id := materialId
  name := file.name
  groupId := groupId
  taskId := taskId
  status := .queued
  reasonCode := none
  revision := 1
  sourceSha256 := services.hash file.bytes
  sourceByteLen := file.bytes.length
  sourceFormat := sourceFormat file.name
  encoding := file.encoding
  originalText := []
  analysis := none
  resultId := none
  dismissed := []
  dictionaryRevision := group.dictionaryRevision

/-- The client check of `submit`. -/
def checkClient (store : Store) (groupId : Id) : Option Id → Except Error Unit
  | none => .ok ()
  | some clientId => do
      let client ← Store.require (store.clients.get clientId)
      refuseIf (client.enabled = false ∨ client.groupId ≠ groupId) (.new "unauthorized")

/-- `submit` of the source, with the fresh identifiers of the task and of one material
for each file. A submission which repeats a request writes nothing. -/
def submit (services : Services) (now : Nat) (groupId requestId : Id) (files : List ImportFile)
    (clientId : Option Id) (taskId : Id) (materialIds : List Id) : Op Unit := do
  lift (bounded requestId.toList 128)
  refuse (files = [] ∨ 100 < files.length ∨
    100 * 1024 * 1024 < (files.map fun file => file.bytes.length).sum) (.new "batch_too_large")
  lift (files.forM checkFile)
  let store ← current
  let group ← lift (Store.require (store.groups.get groupId))
  lift (checkClient store groupId clientId)
  let fingerprint := services.hash (services.filesJson
    (files.map fun file => (file.name, services.hash file.bytes, file.encoding)))
  let earlier := store.tasks.rows.find? fun row =>
    row.2.groupId == groupId && row.2.clientId == clientId && row.2.requestId == requestId
  match earlier with
  | some (_, task) => refuse (task.fingerprint ≠ fingerprint) (.new "idempotency_conflict")
  | none =>
      let pairs := materialIds.zip files
      commit (pairs.flatMap (fun (materialId, file) =>
          [.source materialId file.bytes,
            .material materialId (newMaterial services groupId group taskId materialId file)]) ++
        [.task taskId
          { id := taskId
            groupId := groupId
            clientId := clientId
            requestId := requestId
            fingerprint := fingerprint
            materialIds := pairs.map Prod.fst
            createdAt := now }])

/-- The material which `replace_material` writes. -/
def replacedMaterial (services : Services) (m : Material) (file : ImportFile) : Material :=
  { m with
    resultId := none
    name := file.name
    encoding := file.encoding
    sourceSha256 := services.hash file.bytes
    sourceByteLen := file.bytes.length
    sourceFormat := sourceFormat file.name
    revision := m.revision + 1
    originalText := []
    analysis := none
    dismissed := []
    status := .queued
    reasonCode := none }

/-- `replace_material` of the source. -/
def replaceMaterial (services : Services) (materialId : Id) (revision : Nat)
    (file : ImportFile) : Op Unit := do
  refuse (20 * 1024 * 1024 < file.bytes.length ∨ file.bytes = []) (.new "file_too_large")
  lift (bounded file.name.toList 250)
  refuse (invalidFilename file.name = true) (.new "invalid_filename")
  let store ← current
  let m ← lift (store.material materialId)
  refuse (m.revision ≠ revision) (.new "revision_conflict")
  let revoked ← lift (revokedResult store m.resultId)
  commit ([.source materialId file.bytes] ++ revoked ++
    [.material materialId (replacedMaterial services m file)])
  send (.cancelTask m.taskId)

/-! ## Cancellation and retry -/

/-- The material which `cancel_task` writes. -/
def cancelledMaterial (m : Material) : Material :=
  { m with status := .cancelled, revision := m.revision + 1, reasonCode := some "cancelled" }

/-- The row of `cancel_task` for one material. -/
def cancelMaterial (store : Store) (materialId : Id) : Except Error (List Row) := do
  let m ← store.material materialId
  if m.status ∈ [Status.queued, .running, .awaitingConsent, .needsReview] then
    .ok [.material materialId (cancelledMaterial m)]
  else
    .ok []

/-- `cancel_task` of the source. -/
def cancelTask (taskId : Id) : Op Unit := do
  let store ← current
  let task ← lift (Store.require (store.tasks.get taskId))
  send (.cancelTask taskId)
  let rows ← lift (gather (cancelMaterial store) task.materialIds)
  commit rows

/-- A ready material whose result has expired. -/
def expired (store : Store) (now : Nat) (m : Material) : Bool :=
  m.status == .ready && match m.resultId with
    | none => false
    | some resultId => match store.results.get resultId with
      | none => false
      | some result => result.expiresAt ≤ now

/-- The material which `retry_task` writes. -/
def retriedMaterial (m : Material) : Material :=
  { m with
    resultId := none
    status := .queued
    reasonCode := none
    revision := m.revision + 1
    analysis := none
    dismissed := [] }

/-- The rows of `retry_task` for one material. -/
def retryMaterial (store : Store) (now : Nat) (materialId : Id) : Except Error (List Row) := do
  let m ← store.material materialId
  if expired store now m = true ∨
      m.status ∈ [Status.failed, .cancelled, .needsReview, .awaitingConsent] then do
    let revoked ← revokedResult store m.resultId
    .ok (revoked ++ [.material materialId (retriedMaterial m)])
  else
    .ok []

/-- A task with a material that a worker processes. -/
def taskBusy (store : Store) (task : Task) : Bool :=
  task.materialIds.any fun materialId =>
    match store.materials.get materialId with
    | some m => m.status == .running
    | none => false

/-- `retry_task` of the source. The consent is deleted in a transaction of its own. -/
def retryTask (now : Nat) (taskId : Id) : Op Unit := do
  let store ← current
  let task ← lift (Store.require (store.tasks.get taskId))
  refuse (taskBusy store task = true) (.retry "task_busy")
  commit [.eraseConsent taskId]
  let store ← current
  let rows ← lift (gather (retryMaterial store now) task.materialIds)
  commit rows

/-! ## Dictionaries -/

/-- The checks which `update_dictionary_locked` makes of one entry. -/
def checkEntry (entry : DictionaryEntry) : Except Error Unit := do
  bounded entry.text 1024
  bounded entry.kind.toList 64
  match entry.alias with
  | some name => bounded name 128
  | none => .ok ()

/-- The material which a dictionary update writes. -/
def reanalyzed (m : Material) : Material :=
  if m.status ∈ [Status.cancelled, .revoked] then
    { m with resultId := none }
  else
    { m with
      resultId := none
      status := .queued
      reasonCode := some "dictionary_changed"
      revision := m.revision + 1
      analysis := none
      dismissed := [] }

@[simp] theorem reanalyzed_id (m : Material) : (reanalyzed m).id = m.id := by
  unfold reanalyzed
  split <;> rfl

/-- The revocation which a dictionary update writes, under the identifier that the
result itself carries. -/
def revokedForDictionary (store : Store) : Option Id → Except Error (List Row)
  | none => .ok []
  | some resultId => do
      let result ← Store.require (store.results.get resultId)
      .ok [.result result.id { result with revoked := true }]

/-- The loop of `update_dictionary_locked` over the listed materials. -/
def reanalyzeGroup (store : Store) (groupId : Id) : List (Id × Material) → Op (List Row)
  | [] => pure []
  | (_, m) :: rest =>
      if m.groupId = groupId then do
        send (.cancelTask m.taskId)
        let revoked ← lift (revokedForDictionary store m.resultId)
        let others ← reanalyzeGroup store groupId rest
        pure (revoked ++ [.material m.id (reanalyzed m)] ++ others)
      else
        reanalyzeGroup store groupId rest

/-- `update_dictionary_locked` of the source. -/
def updateDictionaryLocked (services : Services) (groupId : Id)
    (entries : List DictionaryEntry) : Op Unit := do
  refuse (2000 < entries.length) (.new "dictionary_too_large")
  lift (entries.forM checkEntry)
  let store ← current
  let group ← lift (Store.require (store.groups.get groupId))
  let _ ← lift (textResultAs "dictionary_invalid"
    (services.analyze "dictionary validation".toList group.namespace entries [] []))
  let rows ← reanalyzeGroup store groupId store.materials.rows
  commit (.group groupId
    { group with entries := entries, dictionaryRevision := group.dictionaryRevision + 1 } :: rows)

/-- The material which `revoke_material` writes. -/
def revokedMaterial (m : Material) : Material :=
  { m with
    resultId := none
    status := .revoked
    revision := m.revision + 1
    reasonCode := some "result_revoked" }

/-- `revoke_material` of the source. -/
def revokeMaterial (materialId : Id) : Op Unit := do
  let store ← current
  let m ← lift (store.material materialId)
  let revoked ← lift (revokedResult store m.resultId)
  commit (revoked ++ [.material m.id (revokedMaterial m)])
  send (.cancelTask m.taskId)

/-! ## Review -/

/-- `analyze_review` of the source. -/
def analyzeReview (services : Services) (text : Text) («namespace» : String)
    (dictionary : List DictionaryEntry) (aiFindings : Option (List AiFinding))
    (dismissed : List String) : Except Error Analysis :=
  match aiFindings with
  | some findings => textResult (services.analyzeWithAi text «namespace» dictionary findings dismissed)
  | none => textResult (services.analyze text «namespace» dictionary [] dismissed)

/-- `review_ai_evidence_locked` of the source. -/
def reviewAiEvidenceLocked (services : Services) (store : Store) (m : Material) :
    Except Error (Option (List AiFinding) × Option AiStageRecord) := do
  let source ← presentOr (store.sources.get m.id) (.new "source_integrity_failed")
  refuseIf (services.hash source ≠ m.sourceSha256) (.new "source_integrity_failed")
  let recorded := store.aiStages.get m.id
  refuseIf (recorded.any fun record => record.sourceSha256 ≠ m.sourceSha256)
    (.new "ai_review_evidence_missing")
  match m.analysis with
  | none =>
      refuseIf (recorded.isSome = true) (.new "ai_review_evidence_missing")
      .ok (none, none)
  | some analysis =>
      if recorded.isSome || analysis.aiFindings.isSome then do
        let _ ← textResultAs "review_evidence_invalid"
          (services.verifyAnalysisSource m.originalText analysis)
        let findings ← presentOr analysis.aiFindings (.new "ai_review_evidence_missing")
        .ok (some findings, recorded)
      else
        .ok (none, none)

/-- The dictionary of a group after the entries of a review, which replace the entries
with the same text. -/
def mergedEntries (entries : List DictionaryEntry) : List DictionaryEntry → List DictionaryEntry
  | [] => entries
  | entry :: rest => mergedEntries ((entries.filter fun e => e.text ≠ entry.text) ++ [entry]) rest

/-- The part of `review` which commits a changed dictionary and reads the records again. -/
def reviewDictionary (services : Services) (materialId : Id) (m : Material) (group : Group)
    (aiFindings : Option (List AiFinding)) (request : ReviewRequest) : Op (Material × Group) :=
  if request.dictionary = [] then
    pure (m, group)
  else do
    let entries := mergedEntries group.entries request.dictionary
    let _ ← lift (analyzeReview services m.originalText group.namespace entries aiFindings
      request.dismissed)
    updateDictionaryLocked services m.groupId entries
    let store ← current
    let group ← lift (Store.require (store.groups.get m.groupId))
    let m ← lift (store.material materialId)
    pure (m, group)

/-- The material which `review` finishes. -/
def reviewedMaterial (m : Material) (request : ReviewRequest) : Material :=
  { m with revision := m.revision + 1, dismissed := request.dismissed }

@[simp] theorem reviewedMaterial_id (m : Material) (request : ReviewRequest) :
    (reviewedMaterial m request).id = m.id := rfl

@[simp] theorem reviewedMaterial_revision (m : Material) (request : ReviewRequest) :
    (reviewedMaterial m request).revision = m.revision + 1 := rfl

@[simp] theorem reviewedMaterial_taskId (m : Material) (request : ReviewRequest) :
    (reviewedMaterial m request).taskId = m.taskId := rfl

@[simp] theorem reviewedMaterial_groupId (m : Material) (request : ReviewRequest) :
    (reviewedMaterial m request).groupId = m.groupId := rfl

/-- The stage record which `review` writes after it has finished the material. -/
def reviewedStage (now : Nat) (m : Material) (stage : AiStageRecord) : AiStageRecord :=
  { stage with
    revision := m.revision
    sourceSha256 := m.sourceSha256
    stage := .reviewed
    updatedAt := now
    errorCode := none }

/-- The last transaction of `review`. -/
def saveReviewedStage (now : Nat) (materialId : Id) (m : Material) :
    Option AiStageRecord → Op Unit
  | none => pure ()
  | some stage => commit [.aiStage materialId (reviewedStage now m stage)]

/-- `review` of the source. The dictionary, the finished material and the stage record
are three transactions. -/
def review (services : Services) (now : Nat) (resultId materialId : Id)
    (request : ReviewRequest) : Op Unit := do
  let store ← current
  let m ← lift (store.material materialId)
  refuse (m.revision ≠ request.revision) (.new "revision_conflict")
  refuse (m.status ∈ [Status.running, .revoked, .cancelled] ∨ m.originalText = [])
    (.new "material_not_reviewable")
  let (aiFindings, stage) ← lift (reviewAiEvidenceLocked services store m)
  let group ← lift (Store.require (store.groups.get m.groupId))
  let (m, group) ← reviewDictionary services materialId m group aiFindings request
  let analysis ← lift (analyzeReview services m.originalText group.namespace group.entries
    aiFindings request.dismissed)
  let reviewed := reviewedMaterial m request
  finishLocked services now resultId reviewed group analysis false
  saveReviewedStage now materialId reviewed stage

/-! ## Cloud consent -/

/-- The material which `consent` writes. -/
def requeuedMaterial (m : Material) : Material :=
  { m with status := .queued, reasonCode := none }

/-- What `consent` records and writes for one material. -/
def consentMaterial (store : Store) (materialId : Id) :
    Except Error (List ((Id × Nat × String) × Row)) := do
  let m ← store.material materialId
  refuseIf (m.status = .running) (.retry "task_busy")
  if m.status ∈ [Status.queued, .awaitingConsent, .needsReview] then
    .ok [((m.id, m.revision, m.sourceSha256),
      .material materialId (requeuedMaterial m))]
  else
    .ok []

/-- `consent` of the source; `apiKey` is the answer of `api_key`. -/
def consent (services : Services) (now : Nat) (consentId taskId providerId : Id)
    (model purpose : String) (apiKey : Except Error Unit) : Op Unit := do
  refuse (purpose ≠ "redaction_assistance") (.new "invalid_purpose")
  let store ← current
  let task ← lift (Store.require (store.tasks.get taskId))
  let config ← lift (Store.require (store.providers.get providerId))
  refuse (config.model ≠ model) (.new "provider_changed")
  lift apiKey
  let pending ← lift (gather (consentMaterial store) task.materialIds)
  refuse (pending = []) (.new "no_pending_materials")
  commit (pending.map Prod.snd ++ [.consent taskId
    { id := consentId
      providerId := providerId
      model := model
      profileHash := services.hash (services.providerJson config)
      sourceHashes := pending.map Prod.fst
      expiresAt := now + 3600
      usedMaterials := [] }])

/-- `revoke_consent` of the source. -/
def revokeConsent (taskId : Id) : Op Unit := do
  commit [.eraseConsent taskId]
  send (.cancelTask taskId)

/-- The configuration row of `save_provider`; `prepared` is the answer of the request
checks and of the credential vault, which have a model of their own. Every token of the
process is cancelled once the row is stored. -/
def saveProvider (config : ProviderConfig) (prepared : Except Error Unit) : Op Unit := do
  lift prepared
  let store ← current
  let revision := match store.providers.get config.id with
    | some previous => previous.revision + 1
    | none => 1
  commit [.provider config.id { config with revision := revision }]
  send .cancelAll

/-! ## Start of the process -/

/-- The material which `open` writes for an interrupted material. -/
def recoveredMaterial (store : Store) (m : Material) : Material :=
  match store.consents.get m.taskId with
  | some consent =>
      if m.id ∈ consent.usedMaterials then
        { m with status := .needsReview, reasonCode := some "cloud_dispatch_interrupted" }
      else
        { m with status := .queued }
  | none => { m with status := .queued }

/-- The first recovery loop of `open`, over the running materials. -/
def recoverMaterials : List Id → Op Unit
  | [] => pure ()
  | materialId :: rest => do
      let store ← current
      let m ← lift (store.material materialId)
      commit [.material m.id (recoveredMaterial store m)]
      recoverMaterials rest

/-- The material which `recover_ai_stages` writes for a running stage. -/
def interruptedMaterial (m : Material) : Material :=
  { m with status := .needsReview, reasonCode := some "ai_dispatch_interrupted" }

/-- The stage is about the present attempt at the material, which waits or is running. -/
def stageIsCurrent (record : AiStageRecord) (m : Material) : Prop :=
  m.revision = record.revision ∧ m.sourceSha256 = record.sourceSha256 ∧
    m.status ∈ [Status.running, .queued]

instance (record : AiStageRecord) (m : Material) : Decidable (stageIsCurrent record m) :=
  inferInstanceAs (Decidable (_ ∧ _ ∧ _))

/-- The stage record which `recover_ai_stages` writes for a running stage. -/
def interruptedStage (now : Nat) (record : AiStageRecord) : AiStageRecord :=
  { record with
    stage := .interrupted
    errorCode := some "ai_dispatch_interrupted"
    updatedAt := now }

/-- The transaction which moves the material of an interrupted stage to review. -/
def saveInterrupted (record : AiStageRecord) (m : Material) : Op Unit :=
  if stageIsCurrent record m then
    commit [.material m.id (interruptedMaterial m)]
  else
    pure ()

/-- The loop of `recover_ai_stages` over the listed records. -/
def recoverStages (now : Nat) : List (Id × AiStageRecord) → Op Unit
  | [] => pure ()
  | (_, record) :: rest =>
      if record.stage.isRunning then do
        let store ← current
        match store.materials.get record.materialId with
        | none => recoverStages now rest
        | some m => do
            saveInterrupted record m
            commit [.aiStage record.materialId (interruptedStage now record)]
            recoverStages now rest
      else
        recoverStages now rest

/-- `recover_ai_stages` of the source. -/
def recoverAiStages (now : Nat) : Op Unit := do
  let store ← current
  recoverStages now store.aiStages.rows

/-- The recovery of `open` over the running materials in the order of the index. The
migrations between its two loops write other objects. -/
def recovery (now : Nat) (running : List Id) : Op Unit := do
  recoverMaterials running
  recoverAiStages now

end LawyerAssistance.Workspace

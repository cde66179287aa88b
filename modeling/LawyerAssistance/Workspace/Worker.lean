import LawyerAssistance.Workspace.Operations

/-!
# The material worker

One attempt at one material, from `claim_next` to its last write. The attempt runs
without the gate between its transactions, so it is a sequence of phases: a phase
ends at the next point where another request may come in between, and an `Answer`
carries what the environment contributes there. Extraction, model requests and the
transport are answers; the redaction engine, the checks and every write are computed.
-/

namespace LawyerAssistance.Workspace

open PrivacyText
open Program (current commit send lift refuse)

/-- What an attempt carries: its copy of the material, of the group, and its token. -/
structure Job where
  material : Material
  group : Group
  token : Nat
deriving DecidableEq

/-- The progress of one cloud detection. A poll of the transport parks the attempt until
it is woken; `sent` tells whether the dispatch was polled before. -/
inductive CloudLeg where
  | parked (sent : Bool)
  | rechecking
  | connecting
  | polling (sent : Bool)
deriving DecidableEq, Repr

/-- The points of `process_material` at which other requests can come in between. -/
inductive Phase where
  | selecting
  | admitting (selection : Option AiModelSelection)
  | opening (selection : Option AiModelSelection)
  | startingOcr (selection : AiModelSelection)
  | extracting (selection : AiModelSelection)
  | storingText (selection : AiModelSelection) (extracted : Text)
  | savingTextReady (selection : AiModelSelection) (textSha256 : String)
  | startingRedaction (selection : AiModelSelection) (textSha256 : String)
  | redacting (selection : AiModelSelection) (textSha256 : String)
  | publishing (selection : AiModelSelection) (textSha256 : String) (analysis : Analysis)
  | savingOutcome (selection : AiModelSelection) (textSha256 : String) (needsReview : Bool)
  | recordingFailure (selection : AiModelSelection) (textSha256 : Option String) (error : Error)
  | analyzing
  | savingAnalysis (analysis : Analysis)
  | claimingCloud (analysis : Analysis)
  | cloud (analysis : Analysis) (consent : CloudConsent) (config : ProviderConfig) (leg : CloudLeg)
  | accepting (analysis : Analysis) (consent : CloudConsent) (config : ProviderConfig)
      (findings : List CloudFinding)
  | finishing (analysis : Analysis) (waiting : Bool)
deriving DecidableEq

/-- A worker waits for a material, processes one, or settles the failure of one. -/
inductive Worker where
  | idle
  | working (job : Job) (phase : Phase)
  | settling (materialId : Id) (revision : Nat) (code : String)
deriving DecidableEq

/-- What the environment contributes to a step of an attempt. -/
inductive Answer where
  | proceed
  | selected (selection : Except Error AiModelSelection)
  | admitted (admission : Except Error Unit)
  | modelRequest
  | extracted (text : Except Error Text)
  | located (findings : Except Error (List AiFinding))
  | connected (apiKey : Except Error Unit)
  | polled (reply : Option (Except Error (List CloudFinding)))
  | faulted (code : String)

/-- The stored material is still the running attempt at the same revision. -/
def attemptIsCurrent (fresh m : Material) : Bool :=
  fresh.revision == m.revision && fresh.status == .running

/-! ## Claim and failure -/

/-- The material which a claim writes. -/
def claimedMaterial (m : Material) (g : Group) : Material :=
  { m with status := .running, dictionaryRevision := g.dictionaryRevision }

/-- `claim_next` of the source for the material which the queue index selects. -/
def claimNext (materialId : Id) : Op (Option (Material × Group)) := do
  let store ← current
  let m ← lift (store.material materialId)
  let g ← lift (Store.require (store.groups.get m.groupId))
  if m.status = .queued then do
    commit [.material materialId (claimedMaterial m g)]
    pure (some (claimedMaterial m g, g))
  else
    pure none

/-- The material which `fail_material` writes. -/
def failedMaterial (m : Material) (code : String) : Material :=
  { m with status := .failed, reasonCode := some code }

/-- `fail_material` of the source. -/
def failMaterial (materialId : Id) (revision : Nat) (code : String) : Op Unit := do
  let store ← current
  let m ← lift (store.material materialId)
  if m.revision = revision ∧ m.status = .running then
    commit [.material materialId (failedMaterial m code)]
  else
    pure ()

/-! ## The model-led leg -/

/-- The record which `save_ai_stage` writes. -/
def stageRecord (now : Nat) (m : Material) (stage : AiStage) (selection : AiModelSelection)
    (textSha256 errorCode : Option String) : AiStageRecord where
  materialId := m.id
  revision := m.revision
  sourceSha256 := m.sourceSha256
  stage := stage
  providerId := selection.providerId
  model := selection.model
  textSha256 := textSha256
  updatedAt := now
  errorCode := errorCode

/-- `save_ai_stage` of the source. -/
def saveAiStage (now : Nat) (m : Material) (stage : AiStage) (selection : AiModelSelection)
    (textSha256 errorCode : Option String) : Op Unit :=
  commit [.aiStage m.id (stageRecord now m stage selection textSha256 errorCode)]

/-- What `redact_with_ai` computes once both passes of the model have answered. -/
def redactWithAi (services : Services) (job : Job) (findings : List AiFinding) :
    Except Error Analysis := do
  let analysis ← textResult (services.analyzeWithAi job.material.originalText job.group.namespace
    job.group.entries findings job.material.dismissed)
  let _ ← textResult (services.verifyAnalysisSource job.material.originalText analysis)
  if analysis.needsReview then
    .ok analysis
  else do
    let _ ← textResult (services.validateAnalysis analysis)
    .ok analysis

/-- The transaction which stores the extracted text in the current attempt. -/
def storeText (services : Services) (job : Job) (selection : AiModelSelection)
    (extracted : Text) : Op Worker := do
  let store ← current
  let fresh ← lift (store.material job.material.id)
  if attemptIsCurrent fresh job.material then do
    let m := { fresh with originalText := extracted }
    commit [.material m.id m]
    pure (.working { job with material := m }
      (.savingTextReady selection (services.hash (utf8 extracted))))
  else
    pure .idle

/-- The last transaction of both legs: a stale attempt ends, a changed dictionary puts the
material back into the queue, and otherwise the attempt is finished. -/
def finishAttempt (services : Services) (now : Nat) (resultId : Id) (m : Material) (g : Group)
    (analysis : Analysis) (waiting : Bool) (next : Worker) : Op Worker := do
  let store ← current
  let fresh ← lift (store.material m.id)
  let currentGroup ← lift (Store.require (store.groups.get m.groupId))
  if attemptIsCurrent fresh m then
    if currentGroup.dictionaryRevision ≠ g.dictionaryRevision then do
      commit [.material fresh.id { fresh with status := .queued }]
      pure .idle
    else do
      finishLocked services now resultId m g analysis waiting
      pure next
  else
    pure .idle

/-! ## The cloud leg -/

/-- `cloud_matches` of the source. -/
def cloudMatches (services : Services) (now : Nat) (m : Material) (c : CloudConsent)
    (p : ProviderConfig) : Bool :=
  now < c.expiresAt && c.model == p.model &&
    c.profileHash == services.hash (services.providerJson p) &&
    c.sourceHashes.any fun (id, revision, sha) =>
      id == m.id && revision == m.revision && sha == m.sourceSha256

/-- `recheck_cloud_locked` of the source. -/
def recheckCloud (services : Services) (now : Nat) (store : Store) (m : Material)
    (c : CloudConsent) (p : ProviderConfig) : Except Error Unit := do
  let fresh ← store.material m.id
  let group ← Store.require (store.groups.get m.groupId)
  refuseIf (fresh.revision ≠ m.revision ∨ fresh.status ≠ .running ∨
    fresh.sourceSha256 ≠ m.sourceSha256 ∨ group.dictionaryRevision ≠ m.dictionaryRevision)
    (.new "cloud_authorization_changed")
  let actual ← presentOr (store.consents.get m.taskId) (.new "cloud_authorization_revoked")
  let config ← Store.require (store.providers.get c.providerId)
  refuseIf (actual.id ≠ c.id ∨ cloudMatches services now m actual config = false ∨
    actual.profileHash ≠ services.hash (services.providerJson p))
    (.new "cloud_authorization_changed")

/-- `provider_dispatch_snapshot` of the source; `apiKey` is the answer of `api_key`. -/
def providerDispatchSnapshot (services : Services) (store : Store) (expected : ProviderConfig)
    (apiKey : Except Error Unit) : Except Error Unit := do
  let stored ← Store.require (store.providers.get expected.id)
  refuseIf (services.hash (services.providerJson stored) ≠
    services.hash (services.providerJson expected)) (.new "provider_changed")
  apiKey

/-- The consent which `claim_cloud` writes. -/
def claimedConsent (consent : CloudConsent) (materialId : Id) : CloudConsent :=
  { consent with usedMaterials := consent.usedMaterials ++ [materialId] }

/-- `claim_cloud` of the source. -/
def claimCloud (services : Services) (now : Nat) (m : Material) :
    Op (Option (CloudConsent × ProviderConfig)) := do
  let store ← current
  match store.consents.get m.taskId with
  | none => pure none
  | some consent => do
      let config ← lift (Store.require (store.providers.get consent.providerId))
      if cloudMatches services now m consent config = false ∨ m.id ∈ consent.usedMaterials then
        pure none
      else do
        let fresh ← lift (store.material m.id)
        refuse (attemptIsCurrent fresh m = false) (.new "material_changed")
        commit [.consent m.taskId (claimedConsent consent m.id)]
        pure (some (claimedConsent consent m.id, config))

/-- The attempt goes on without cloud findings and keeps the reason. -/
def withoutCloud (job : Job) (analysis : Analysis) (code : String) : Worker :=
  .working { job with material := { job.material with reasonCode := some code } }
    (.finishing analysis false)

/-- Continue after a check of the cloud leg, or go on without cloud findings. -/
def orWithoutCloud (job : Job) (analysis : Analysis) (check : Except Error Unit)
    (next : Op Worker) : Op Worker :=
  match check with
  | .ok () => next
  | .error error => pure (withoutCloud job analysis error.code)

/-- What the attempt does with the answer of one poll of the transport. -/
def pollResult (job : Job) (analysis : Analysis) (consent : CloudConsent)
    (config : ProviderConfig) : Option (Except Error (List CloudFinding)) → Worker
  | none => .working job (.cloud analysis consent config (.parked true))
  | some (.error error) => withoutCloud job analysis error.code
  | some (.ok findings) =>
      if 2000 < findings.length then
        withoutCloud job analysis "cloud_response_invalid"
      else
        .working job (.accepting analysis consent config findings)

/-- The steps of `cloud_findings` inside its biased `select!`: the token is looked at
whenever the attempt wakes up, and every poll of the transport rechecks the consent
under the gate. -/
def cloudStep (services : Services) (now : Nat) (cancelled : Bool) (job : Job)
    (analysis : Analysis) (consent : CloudConsent) (config : ProviderConfig) :
    CloudLeg → Answer → Option (Op Worker)
  | .parked sent, .proceed =>
      some <| pure <|
        if cancelled then
          withoutCloud job analysis "cloud_authorization_revoked"
        else if sent then
          .working job (.cloud analysis consent config (.polling true))
        else
          .working job (.cloud analysis consent config .rechecking)
  | .rechecking, .proceed => some do
      let store ← current
      orWithoutCloud job analysis (recheckCloud services now store job.material consent config)
        (pure (.working job (.cloud analysis consent config .connecting)))
  | .connecting, .connected apiKey => some do
      let store ← current
      orWithoutCloud job analysis (providerDispatchSnapshot services store config apiKey)
        (pure (.working job (.cloud analysis consent config (.polling false))))
  | .polling sent, .polled reply => some do
      let store ← current
      orWithoutCloud job analysis (recheckCloud services now store job.material consent config) do
        send (.cloudPoll ⟨consent.id, job.material.id, job.material.revision, !sent⟩)
        pure (pollResult job analysis consent config reply)
  | _, _ => none

/-- The step which analyses the material again with the findings of the cloud model. -/
def acceptFindings (services : Services) (now : Nat) (job : Job) (analysis : Analysis)
    (consent : CloudConsent) (config : ProviderConfig) (findings : List CloudFinding) :
    Op Worker := do
  let store ← current
  let updated := do
    recheckCloud services now store job.material consent config
    textResultAs "cloud_response_invalid" (services.analyze job.material.originalText
      job.group.namespace job.group.entries findings job.material.dismissed)
  match updated with
  | .ok updated => pure (.working job (.finishing updated false))
  | .error error => pure (withoutCloud job analysis error.code)

/-! ## The steps of an attempt -/

/-- The first write of the local leg stores the attempt's own copy with its analysis. -/
def saveAnalysis (job : Job) (analysis : Analysis) : Op Worker := do
  let store ← current
  let fresh ← lift (store.material job.material.id)
  if attemptIsCurrent fresh job.material then do
    let m := { job.material with analysis := some analysis }
    commit [.material m.id m]
    pure (.working { job with material := m }
      (if analysis.needsReview then .claimingCloud analysis else .finishing analysis false))
  else
    pure .idle

/-- The attempt opens its source once it is admitted. -/
def openSource (services : Services) (job : Job) (selection : Option AiModelSelection) :
    Op Worker := do
  let store ← current
  let bytes ← lift (Store.require (store.sources.get job.material.id))
  refuse (services.hash bytes ≠ job.material.sourceSha256) (.new "source_integrity_failed")
  pure <| match selection with
    | some model => .working job (.startingOcr model)
    | none => .working job .analyzing

/-- The last step of the local leg; a cancelled token sends the material to review. -/
def finishLocal (services : Services) (now : Nat) (resultId : Id) (cancelled : Bool) (job : Job)
    (analysis : Analysis) (waiting : Bool) : Op Worker :=
  if cancelled then
    finishAttempt services now resultId
      { job.material with reasonCode := some "cloud_authorization_revoked" } job.group
      { analysis with needsReview := true } false .idle
  else
    finishAttempt services now resultId job.material job.group analysis waiting .idle

/-- `process_material` of the source, one step at a time; `cancelled` is the state of the
attempt's token and `resultId` a fresh identifier. -/
def Job.step (services : Services) (now : Nat) (resultId : Id) (cancelled : Bool) (job : Job) :
    Phase → Answer → Option (Op Worker)
  | .selecting, .selected (.ok model) => some (pure (.working job (.admitting (some model))))
  | .selecting, .selected (.error error) =>
      some <|
        if error.code = "ai_model_required" then
          pure (.working job (.admitting none))
        else
          .throw error
  | .admitting selection, .admitted admission => some do
      refuse (cancelled = true) (.new "cancelled")
      lift admission
      pure (.working job (.opening selection))
  | .opening selection, .proceed => some (openSource services job selection)
  | .startingOcr selection, .proceed => some do
      saveAiStage now job.material .ocrRunning selection none none
      pure (.working job (.extracting selection))
  | .extracting selection, .modelRequest => some do
      send (.modelRequest job.material.id job.material.revision)
      pure (.working job (.extracting selection))
  | .extracting selection, .extracted (.ok extracted) => some do
      refuse (cancelled = true) (.new "cancelled")
      pure (.working job (.storingText selection extracted))
  | .extracting selection, .extracted (.error error) =>
      some (pure (.working job (.recordingFailure selection none error)))
  | .storingText selection extracted, .proceed => some (storeText services job selection extracted)
  | .savingTextReady selection textSha256, .proceed => some do
      saveAiStage now job.material .textReady selection (some textSha256) none
      pure (.working job (.startingRedaction selection textSha256))
  | .startingRedaction selection textSha256, .proceed => some do
      saveAiStage now job.material .redactionRunning selection (some textSha256) none
      pure (.working job (.redacting selection textSha256))
  | .redacting selection textSha256, .modelRequest => some do
      send (.modelRequest job.material.id job.material.revision)
      pure (.working job (.redacting selection textSha256))
  | .redacting selection textSha256, .located findings =>
      some <| pure <| match findings.bind (redactWithAi services job) with
        | .ok analysis => .working job (.publishing selection textSha256 analysis)
        | .error error => .working job (.recordingFailure selection (some textSha256) error)
  | .publishing selection textSha256 analysis, .proceed =>
      some (finishAttempt services now resultId job.material job.group analysis false
        (.working job (.savingOutcome selection textSha256 analysis.needsReview)))
  | .savingOutcome selection textSha256 needsReview, .proceed => some do
      saveAiStage now job.material (if needsReview then .needsReview else .completed) selection
        (some textSha256) none
      pure .idle
  | .recordingFailure selection textSha256 error, .proceed => some do
      saveAiStage now job.material .failed selection textSha256 (some error.code)
      .throw error
  | .analyzing, .extracted (.ok extracted) => some do
      let analysis ← lift (textResult (services.analyze extracted job.group.namespace
        job.group.entries [] job.material.dismissed))
      pure (.working { job with material := { job.material with originalText := extracted } }
        (.savingAnalysis analysis))
  | .analyzing, .extracted (.error error) => some (.throw error)
  | .savingAnalysis analysis, .proceed => some (saveAnalysis job analysis)
  | .claimingCloud analysis, .proceed => some do
      let claimed ← claimCloud services now job.material
      pure <| match claimed with
        | some (consent, config) =>
            .working job (.cloud analysis consent config (.parked false))
        | none => .working job (.finishing analysis true)
  | .cloud analysis consent config leg, answer =>
      cloudStep services now cancelled job analysis consent config leg answer
  | .accepting analysis consent config findings, .proceed =>
      some (acceptFindings services now job analysis consent config findings)
  | .finishing analysis waiting, .proceed =>
      some (finishLocal services now resultId cancelled job analysis waiting)
  | _, _ => none

/-- One step of a worker. An attempt can also fail at any point, by an error of the storage
or by a panic, and its failure is then settled. -/
def Worker.step (services : Services) (now : Nat) (resultId : Id) (cancelled : Bool) :
    Worker → Answer → Option (Op Worker)
  | .idle, _ => none
  | .working job _, .faulted code =>
      some (pure (.settling job.material.id job.material.revision code))
  | .working job phase, answer => job.step services now resultId cancelled phase answer
  | .settling materialId revision code, .proceed => some do
      failMaterial materialId revision code
      pure .idle
  | .settling .., _ => none

/-- Where a worker goes when its step ends with an error: an attempt is settled under the
code of its error, and a settlement is tried again. The failure of the stage record of a
failed request is ignored. -/
def Worker.failed : Worker → Error → Worker
  | .idle, _ => .idle
  | .working job (.recordingFailure _ _ original), _ =>
      .settling job.material.id job.material.revision original.code
  | .working job _, error => .settling job.material.id job.material.revision error.code
  | .settling materialId revision code, _ => .settling materialId revision code

/-- The token which a step of the worker looks at. -/
def Worker.token : Worker → Option Nat
  | .working job _ => some job.token
  | _ => none

end LawyerAssistance.Workspace

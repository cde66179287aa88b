import LawyerAssistance.Std.Bytes
import LawyerAssistance.Std.Fallible
import LawyerAssistance.Std.Table
import LawyerAssistance.Std.Text
import LawyerAssistance.Workspace.Types
import Mathlib.Data.List.Dedup

/-!
# Capabilities of models

`save_ai_provider` merges the capabilities which a request supplies with the stored ones, and keeps
a declaration for each model which lists the fields that still need a review. A field which was only
inherited is to stay listed until it is supplied. The declaration is made from the merged
capabilities, so a save which supplies one field of a model also takes the inherited ones for
supplied.
-/

namespace LawyerAssistance.Providers

open Workspace (Id Error ProviderConfig AiModelSelection)

/-! ## Records -/

/-- The fields of `AiModelCapabilities`. -/
inductive CapabilityField where
  | contextWindowTokens
  | maxOutputTokens
  | supportsTools
  | supportsStructuredOutput
  | supportsVision
  deriving DecidableEq

namespace CapabilityField

/-- The name of a field. -/
def name : CapabilityField → String
  | .contextWindowTokens => "context_window_tokens"
  | .maxOutputTokens => "max_output_tokens"
  | .supportsTools => "supports_tools"
  | .supportsStructuredOutput => "supports_structured_output"
  | .supportsVision => "supports_vision"

/-- All fields, in their order. -/
def all : List CapabilityField :=
  [.contextWindowTokens, .maxOutputTokens, .supportsTools, .supportsStructuredOutput,
    .supportsVision]

end CapabilityField

/-- `AiModelCapabilities`. -/
structure AiModelCapabilities where
  contextWindowTokens : Option Nat := none
  maxOutputTokens : Option Nat := none
  supportsTools : Option Bool := none
  supportsStructuredOutput : Option Bool := none
  supportsVision : Option Bool := none
  deriving DecidableEq

/-- The field has a value. -/
def AiModelCapabilities.has (capability : AiModelCapabilities) : CapabilityField → Bool
  | .contextWindowTokens => capability.contextWindowTokens.isSome
  | .maxOutputTokens => capability.maxOutputTokens.isSome
  | .supportsTools => capability.supportsTools.isSome
  | .supportsStructuredOutput => capability.supportsStructuredOutput.isSome
  | .supportsVision => capability.supportsVision.isSome

/-- `AiModelCapabilityPresence`: the fields which a request names, with a value or with null. -/
structure AiModelCapabilityPresence where
  contextWindowTokens : Bool := false
  maxOutputTokens : Bool := false
  supportsTools : Bool := false
  supportsStructuredOutput : Bool := false
  supportsVision : Bool := false
  deriving DecidableEq

/-- The request names the field. -/
def AiModelCapabilityPresence.names (presence : AiModelCapabilityPresence) : CapabilityField → Bool
  | .contextWindowTokens => presence.contextWindowTokens
  | .maxOutputTokens => presence.maxOutputTokens
  | .supportsTools => presence.supportsTools
  | .supportsStructuredOutput => presence.supportsStructuredOutput
  | .supportsVision => presence.supportsVision

/-- `AiCapabilityDeclaration`. -/
structure AiCapabilityDeclaration where
  declarationSource : String
  declaredAt : Nat
  configBinding : String
  declarationHash : String
  verificationState : String
  needsReview : Bool
  fieldsNeedingReview : List String
  providerRevision : Nat
  currentConfigBinding : Option String
  deriving DecidableEq

/-- `AiProviderMetadata`. -/
structure AiProviderMetadata where
  preset : String
  enabledModels : List String
  trustRaw : Bool
  baseUrl : String
  modelCapabilities : Table AiModelCapabilities

/-- `AiProviderRequest`. -/
structure AiProviderRequest where
  id : Option Id
  providerId : Option Id
  name : String
  preset : String
  baseUrl : String
  model : String
  enabledModels : List String
  modelCapabilities : Table AiModelCapabilities
  modelCapabilityPresence : Table AiModelCapabilityPresence
  apiKey : Option String
  trustRaw : Option Bool
  allowPrivateNetwork : Bool

/-- The rows of the providers: their configurations, their metadata, the declarations of their
models and the default models. -/
structure ProviderStore where
  providers : Table ProviderConfig
  metadata : Table AiProviderMetadata
  declarations : Table (Table AiCapabilityDeclaration)
  defaults : Table AiModelSelection

/-- What a save uses besides its own code: the digest, the JSON which a declaration digests, and the
check of an endpoint. -/
structure ProviderServices where
  hash : Octets → String
  declarationJson : String → AiModelCapabilities → String → Octets
  endpointValid : ProviderConfig → Bool

/-- A save: the request, the time, the identifier which is drawn for a new provider, and what comes
of writing the credential and the rows. -/
structure ProviderSave where
  request : AiProviderRequest
  now : Nat
  newId : Id
  committed : Except Error Unit

/-! ## Names of endpoints -/

/-- `trim_end_matches`, as often as there are characters. -/
def trimEndLoop (pattern : List Char) : Nat → List Char → List Char
  | 0, text => text
  | count + 1, text =>
      if pattern ≠ [] ∧ pattern.isSuffixOf text = true then
        trimEndLoop pattern count (text.take (text.length - pattern.length))
      else text

/-- `trim_end_matches`. -/
def trimEndMatches (pattern : String) (text : List Char) : List Char :=
  trimEndLoop pattern.toList text.length text

/-- `normalized_base`. -/
def normalizedBase (value : String) : String :=
  String.ofList (trimEndMatches "/responses" (trimEndMatches "/chat/completions"
    (trimEndMatches "/" (Text.trim value.toList))))

/-- The identifiers and endpoints of `ai_presets`. -/
def aiPresets : List (String × String) :=
  [("glm", "https://open.bigmodel.cn/api/paas/v4"), ("deepseek", "https://api.deepseek.com"),
    ("qwen", "https://dashscope.aliyuncs.com/compatible-mode/v1"),
    ("siliconflow", "https://api.siliconflow.cn/v1"),
    ("volcengine", "https://ark.cn-beijing.volces.com/api/v3"),
    ("kimi", "https://api.moonshot.cn/v1"), ("custom", "")]

/-- `recognized_preset`. -/
def recognizedPreset (base : String) : Option String :=
  (aiPresets.find? fun preset =>
    preset.2 ≠ "" && normalizedBase preset.2 = normalizedBase base).map Prod.fst

/-! ## Declarations -/

section Declarations

variable (services : ProviderServices) (config : ProviderConfig) (model : String)

/-- `capability_config_binding`. -/
def capabilityConfigBinding : String :=
  services.hash (utf8 ("provider_id=" ++ config.id ++ "\nbase_url=" ++
    normalizedBase config.baseUrl ++ "\nmodel=" ++ model))

/-- `capability_declaration_hash`. -/
def capabilityDeclarationHash (capability : AiModelCapabilities) (configBinding : String) :
    String :=
  services.hash (services.declarationJson model capability configBinding)

/-- `unknown_capability_declaration`. -/
def unknownCapabilityDeclaration : AiCapabilityDeclaration :=
  let binding := capabilityConfigBinding services config model
  { declarationSource := "unknown"
    declaredAt := 0
    configBinding := binding
    declarationHash := capabilityDeclarationHash services model {} binding
    verificationState := "unknown"
    needsReview := true
    fieldsNeedingReview := []
    providerRevision := config.revision
    currentConfigBinding := none }

/-- The fields of a stored capability without a declaration which need a review. -/
def legacyFields (capability : AiModelCapabilities) : List String :=
  (CapabilityField.all.filter capability.has).map CapabilityField.name

/-- `legacy_capability_declaration`. -/
def legacyCapabilityDeclaration (capability : AiModelCapabilities) : AiCapabilityDeclaration :=
  let binding := capabilityConfigBinding services config model
  { declarationSource := "legacy_migrated"
    declaredAt := 0
    configBinding := binding
    declarationHash := capabilityDeclarationHash services model capability binding
    verificationState := "legacy"
    needsReview := true
    fieldsNeedingReview := legacyFields capability
    providerRevision := config.revision
    currentConfigBinding := none }

/-- `reconcile_legacy_declaration`. -/
def reconcileLegacyDeclaration (declaration : AiCapabilityDeclaration) : AiCapabilityDeclaration :=
  let current := capabilityConfigBinding services config model
  if declaration.configBinding ≠ current then
    { declaration with currentConfigBinding := some current, needsReview := true }
  else declaration

/-- `capability_field_is_explicit`, of the capabilities which the caller passes. -/
def capabilityFieldIsExplicit (capability : AiModelCapabilities)
    (presence : Option AiModelCapabilityPresence) (field : CapabilityField) : Bool :=
  capability.has field || presence.any fun presence => presence.names field

/-- `capability_update_has_explicit_fields`. -/
def capabilityUpdateHasExplicitFields (capability : AiModelCapabilities)
    (presence : Option AiModelCapabilityPresence) : Bool :=
  CapabilityField.all.any (capabilityFieldIsExplicit capability presence)

/-- `all_capability_fields_explicit`. -/
def allCapabilityFieldsExplicit (capability : AiModelCapabilities)
    (presence : Option AiModelCapabilityPresence) : Bool :=
  CapabilityField.all.all (capabilityFieldIsExplicit capability presence)

/-- The first loop of `declared_capability_metadata`: the fields which count as reviewed. -/
def removeReviewed (capability : AiModelCapabilities)
    (presence : Option AiModelCapabilityPresence) (fields : List String) : List String :=
  CapabilityField.all.foldl (fun fields field =>
    if capability.has field || capabilityFieldIsExplicit capability presence field then
      fields.filter (· ≠ field.name)
    else fields) fields

/-- The second loop of `declared_capability_metadata`: the fields which a changed binding lists
again. -/
def addInherited (capability : AiModelCapabilities)
    (presence : Option AiModelCapabilityPresence) (fields : List String) : List String :=
  CapabilityField.all.foldl (fun fields field =>
    if capability.has field && !capabilityFieldIsExplicit capability presence field &&
        !fields.contains field.name then
      fields ++ [field.name]
    else fields) fields

/-- `declared_capability_metadata`. -/
def declaredCapabilityMetadata (now : Nat) (capability : AiModelCapabilities)
    (previous : Option AiCapabilityDeclaration) (presence : Option AiModelCapabilityPresence) :
    AiCapabilityDeclaration :=
  let binding := capabilityConfigBinding services config model
  let staleBinding := previous.any fun old => old.configBinding ≠ binding
  let inherited := (previous.map AiCapabilityDeclaration.fieldsNeedingReview).getD []
  let reviewed := removeReviewed capability presence inherited
  let listed :=
    if staleBinding && !allCapabilityFieldsExplicit capability presence then
      addInherited capability presence reviewed
    else reviewed
  let fieldsNeedingReview := (listed.mergeSort fun left right => left ≤ right).dedup
  { declarationSource := "user_configuration"
    declaredAt := now
    configBinding := binding
    declarationHash := capabilityDeclarationHash services model capability binding
    verificationState := "declared"
    needsReview := staleBinding || fieldsNeedingReview ≠ []
    fieldsNeedingReview := fieldsNeedingReview
    providerRevision := config.revision
    currentConfigBinding := none }

end Declarations

/-- A field of `merge_capability_fields`. -/
def mergeField {Value : Type} (named : Bool) (incoming previous : Option Value) : Option Value :=
  if named || incoming.isSome then incoming else previous

/-- `merge_capability_fields`. -/
def mergeCapabilityFields (previous : Option AiModelCapabilities) (incoming : AiModelCapabilities)
    (presence : Option AiModelCapabilityPresence) : AiModelCapabilities :=
  let previous := previous.getD {}
  let named (field : CapabilityField) : Bool := presence.any fun presence => presence.names field
  { contextWindowTokens := mergeField (named .contextWindowTokens) incoming.contextWindowTokens
      previous.contextWindowTokens
    maxOutputTokens := mergeField (named .maxOutputTokens) incoming.maxOutputTokens
      previous.maxOutputTokens
    supportsTools := mergeField (named .supportsTools) incoming.supportsTools
      previous.supportsTools
    supportsStructuredOutput := mergeField (named .supportsStructuredOutput)
      incoming.supportsStructuredOutput previous.supportsStructuredOutput
    supportsVision := mergeField (named .supportsVision) incoming.supportsVision
      previous.supportsVision }

/-! ## Checks -/

/-- A capability within its bounds. -/
def capabilityValid (capability : AiModelCapabilities) : Bool :=
  !(capability.contextWindowTokens.any (fun value => !(1024 ≤ value && value ≤ 10000000))) &&
    !(capability.maxOutputTokens.any (fun value => !(1 ≤ value && value ≤ 1000000))) &&
    match capability.contextWindowTokens, capability.maxOutputTokens with
    | some context, some output => output < context
    | _, _ => true

/-- `validate_capabilities`, of the rows of a map. -/
def validateCapabilities (enabledModels : List String)
    (capabilities : List (String × AiModelCapabilities)) : Except Error Unit := do
  refuseIf (capabilities.any (fun row => !enabledModels.contains row.1) = true)
    (.new "model_capability_not_enabled")
  refuseIf (capabilities.any (fun row => !capabilityValid row.2) = true)
    (.new "invalid_model_capabilities")

/-- `valid_id`. -/
def validId (value : String) : Except Error Unit :=
  refuseIf (value = "" ∨ 128 < Text.byteLength value.toList ∨
    value.toList.all (fun character => character.isAlphanum || character = '_' || character = '-')
      = false) (.new "invalid_identifier")

/-- `bounded`. -/
def bounded (value : String) (most : Nat) : Except Error Unit :=
  refuseIf (Text.trim value.toList = [] ∨ most < Text.byteLength value.toList ∨
    '\x00' ∈ value.toList) (.new "invalid_request")

/-- A name of a model is admitted. -/
def modelNameValid (model : String) : Bool :=
  model ≠ "" && Text.byteLength model.toList ≤ 200 && !model.toList.any Text.isControl

/-- `prepare_provider_save`, of the request which a save passes on. -/
def prepareProviderSave (services : ProviderServices) (store : ProviderStore) (newId : Id)
    (requested : Option Id) (name baseUrl model : String) (apiKey : Option String)
    (allowPrivateNetwork : Bool) : Except Error ProviderConfig := do
  bounded name 120
  bounded baseUrl 1000
  bounded model 200
  let providerId := requested.getD newId
  validId providerId
  let config : ProviderConfig := {
    id := providerId
    name := name
    baseUrl := baseUrl
    model := model
    allowPrivateNetwork := allowPrivateNetwork
    revision :=
      ((store.providers.get providerId).map fun previous => previous.revision + 1).getD 1 }
  refuseIf (services.endpointValid config = false) (.new "provider_configuration_invalid")
  refuseIf (apiKey.any (fun key => 4000 < Text.byteLength key.toList || key.toList.contains '\r' ||
    key.toList.contains '\n') = true) (.new "invalid_api_key")
  .ok config

/-! ## Saves -/

/-- The provider which a request names. -/
def AiProviderRequest.requestedId (request : AiProviderRequest) : Option Id :=
  request.id.or request.providerId

/-- The endpoint of a request: its own, or that of its preset. -/
def AiProviderRequest.endpoint (request : AiProviderRequest) : String :=
  normalizedBase (if Text.trim request.baseUrl.toList = [] then
    ((aiPresets.find? fun preset => preset.1 = request.preset).map Prod.snd).getD ""
  else request.baseUrl)

/-- The models which a request enables, each one once and in order. -/
def AiProviderRequest.models (request : AiProviderRequest) : List String :=
  let models :=
    if request.enabledModels = [] ∧ request.model ≠ "" then [request.model]
    else request.enabledModels
  (models.mergeSort fun left right => left ≤ right).dedup

/-- The stored capabilities with those of the request. -/
def mergedCapabilities (request : AiProviderRequest) (stored : Table AiModelCapabilities) :
    Table AiModelCapabilities :=
  request.modelCapabilities.rows.foldl (fun merged row =>
    merged.put row.1 (mergeCapabilityFields (merged.get row.1) row.2
      (request.modelCapabilityPresence.get row.1))) stored

/-- The declaration of a model after a save. -/
def savedDeclaration (services : ProviderServices) (save : ProviderSave) (config : ProviderConfig)
    (previousMetadata : Option AiProviderMetadata) (merged : Table AiModelCapabilities)
    (oldDeclaration : Option AiCapabilityDeclaration) (model : String) : AiCapabilityDeclaration :=
  let incoming := save.request.modelCapabilities.get model
  let presence := save.request.modelCapabilityPresence.get model
  if incoming.any (fun value => capabilityUpdateHasExplicitFields value presence) then
    declaredCapabilityMetadata services config model save.now ((merged.get model).getD {})
      oldDeclaration presence
  else
    match oldDeclaration with
    | some old => reconcileLegacyDeclaration services config model old
    | none =>
        match previousMetadata with
        | some metadata =>
            match metadata.modelCapabilities.get model with
            | some oldCapability =>
                let legacyConfig := { config with baseUrl := metadata.baseUrl }
                reconcileLegacyDeclaration services config model
                  (legacyCapabilityDeclaration services legacyConfig model oldCapability)
            | none => unknownCapabilityDeclaration services config model
        | none => unknownCapabilityDeclaration services config model

/-- The models which a save declares: those with capabilities and those which it enables. -/
def declarationModels (merged : Table AiModelCapabilities) (enabledModels : List String) :
    List String :=
  ((merged.rows.map Prod.fst ++ enabledModels).dedup).mergeSort fun left right => left ≤ right

/-- The declarations after a save. -/
def savedDeclarations (services : ProviderServices) (save : ProviderSave) (config : ProviderConfig)
    (previousMetadata : Option AiProviderMetadata) (merged : Table AiModelCapabilities)
    (models : List String) (previous : Table AiCapabilityDeclaration) :
    Table AiCapabilityDeclaration :=
  models.foldl (fun declarations model =>
    declarations.put model (savedDeclaration services save config previousMetadata merged
      (declarations.get model) model)) previous

/-- The purposes with a default model. -/
def defaultPurposes : List String := ["chat", "redaction", "writing", "ocr"]

/-- `save_ai_provider`: the store behind it, and the provider which was saved. -/
def saveAiProvider (services : ProviderServices) (save : ProviderSave) (store : ProviderStore) :
    Except Error (ProviderStore × Id) := do
  let request := save.request
  let previousMetadata := request.requestedId.bind store.metadata.get
  let previousDeclarations := request.requestedId.bind store.declarations.get
  let baseUrl := request.endpoint
  let enabledModels := request.models
  refuseIf (enabledModels = [] ∨ 200 < enabledModels.length ∨
    enabledModels.all modelNameValid = false) (.new "enabled_models_required")
  validateCapabilities enabledModels request.modelCapabilities.rows
  let merged := mergedCapabilities request
    ((previousMetadata.map AiProviderMetadata.modelCapabilities).getD ∅)
  validateCapabilities enabledModels
    (merged.rows.filter fun row => enabledModels.contains row.1)
  let model :=
    if enabledModels.contains request.model then request.model else enabledModels.headD ""
  let preset := (recognizedPreset baseUrl).getD "custom"
  let trustRaw := request.trustRaw.getD (preset ≠ "custom")
  let config ← prepareProviderSave services store save.newId request.requestedId
    (if request.name = "" then preset else request.name) baseUrl model
    (request.apiKey.filter (· ≠ "")) request.allowPrivateNetwork
  let declarations := savedDeclarations services save config previousMetadata merged
    (declarationModels merged enabledModels) (previousDeclarations.getD ∅)
  let defaults := defaultPurposes.foldl (fun defaults purpose =>
    if (defaults.get purpose).isSome then defaults
    else defaults.put purpose ⟨config.id, model⟩) store.defaults
  save.committed
  .ok ({
    providers := store.providers.put config.id config
    metadata := store.metadata.put config.id {
      preset := preset
      enabledModels := enabledModels
      trustRaw := trustRaw
      baseUrl := baseUrl
      modelCapabilities := merged }
    declarations := store.declarations.put config.id declarations
    defaults := defaults }, config.id)

/-! ## Markers -/

/-- The fields of a model which need a review: those of its declaration, or all stored ones where
there is none. -/
def ProviderStore.markers (store : ProviderStore) (id : Id) (model : String) : List String :=
  match (store.declarations.get id).bind fun declarations => declarations.get model with
  | some declaration => declaration.fieldsNeedingReview
  | none =>
      match (store.metadata.get id).bind fun metadata => metadata.modelCapabilities.get model with
      | some capability => legacyFields capability
      | none => []

/-- A field of a model has a stored value. -/
def ProviderStore.Holds (store : ProviderStore) (id : Id) (model : String)
    (field : CapabilityField) : Prop :=
  ∃ metadata capability, store.metadata.get id = some metadata ∧
    metadata.modelCapabilities.get model = some capability ∧ capability.has field = true

/-- The request supplies a field of a model, with a value or with null. -/
def AiProviderRequest.Supplies (request : AiProviderRequest) (model : String)
    (field : CapabilityField) : Prop :=
  ∃ incoming, request.modelCapabilities.get model = some incoming ∧
    capabilityFieldIsExplicit incoming (request.modelCapabilityPresence.get model) field = true

/-- A marker of a provider which is gone after a save was of a field which the request supplies. -/
def KeepsMarkers (store after : ProviderStore) (id : Id) (request : AiProviderRequest) : Prop :=
  ∀ (model : String) (field : CapabilityField), field.name ∈ store.markers id model →
    field.name ∉ after.markers id model → request.Supplies model field

/-- For every model of which the request supplies a field, it supplies every field which needs a
review and has a stored value. -/
def SuppliesInherited (store : ProviderStore) (id : Id) (request : AiProviderRequest) : Prop :=
  ∀ model, (∃ field, request.Supplies model field) → ∀ field : CapabilityField,
    field.name ∈ store.markers id model → store.Holds id model field → request.Supplies model field

/-- The identifier which is drawn for a new provider is one of no stored row. -/
def ProviderSave.Fresh (save : ProviderSave) (store : ProviderStore) : Prop :=
  save.request.requestedId = none →
    store.metadata.get save.newId = none ∧ store.declarations.get save.newId = none

/-- Saves one after another, of which those which succeed supply what they inherit. -/
inductive SuppliedRun (services : ProviderServices) :
    ProviderStore → List ProviderSave → ProviderStore → Prop
  | nil {store : ProviderStore} : SuppliedRun services store [] store
  | saved {store after last : ProviderStore} {save : ProviderSave} {id : Id}
      {saves : List ProviderSave} (fresh : save.Fresh store)
      (done : saveAiProvider services save store = .ok (after, id))
      (supplied : SuppliesInherited store id save.request)
      (rest : SuppliedRun services after saves last) :
      SuppliedRun services store (save :: saves) last
  | refused {store last : ProviderStore} {save : ProviderSave} {error : Error}
      {saves : List ProviderSave} (failed : saveAiProvider services save store = .error error)
      (rest : SuppliedRun services store saves last) :
      SuppliedRun services store (save :: saves) last

/-! ## What a save does to the markers -/

section Markers

variable {capability incoming : AiModelCapabilities} {presence : Option AiModelCapabilityPresence}
  {previous : Option AiModelCapabilities} {field : CapabilityField} {fields : List String}
  {marker : String}

theorem CapabilityField.mem_all (field : CapabilityField) : field ∈ CapabilityField.all := by
  cases field <;> decide

theorem CapabilityField.name_injective : Function.Injective CapabilityField.name := by
  intro first second
  cases first <;> cases second <;> decide

theorem mem_legacyFields : field.name ∈ legacyFields capability ↔ capability.has field = true := by
  rw [legacyFields, List.mem_map]
  constructor
  · rintro ⟨other, member, same⟩
    obtain rfl := CapabilityField.name_injective same
    exact (List.mem_filter.mp member).2
  · intro value
    exact ⟨field, List.mem_filter.mpr ⟨field.mem_all, value⟩, rfl⟩

/-- A merged field has a value when the request gives it one, or inherits it. -/
theorem has_mergeCapabilityFields : (mergeCapabilityFields previous incoming presence).has field =
    if capabilityFieldIsExplicit incoming presence field = true then incoming.has field
    else (previous.getD {}).has field := by
  have merged {Value : Type} (named : Bool) (given stored : Option Value) :
      (mergeField named given stored).isSome =
        if (given.isSome || named) = true then given.isSome else stored.isSome := by
    cases named <;> cases given <;> rfl
  cases field <;> exact merged _ _ _

/-- A field of the merged capabilities is explicit when the request supplies it, and also when it is
inherited with a value. -/
theorem explicit_mergeCapabilityFields :
    capabilityFieldIsExplicit (mergeCapabilityFields previous incoming presence) presence field =
      (capabilityFieldIsExplicit incoming presence field || (previous.getD {}).has field) := by
  rw [capabilityFieldIsExplicit, has_mergeCapabilityFields, capabilityFieldIsExplicit]
  cases incoming.has field <;> cases presence.any fun presence => presence.names field <;> simp

/-- The first loop removes the names of the fields with a value or named by the request. -/
theorem mem_removeReviewed : marker ∈ removeReviewed capability presence fields ↔
    marker ∈ fields ∧ ∀ field : CapabilityField,
      capabilityFieldIsExplicit capability presence field = true → field.name ≠ marker := by
  have loop (chosen : List CapabilityField) (fields : List String) :
      marker ∈ chosen.foldl (fun fields field =>
        if capability.has field || capabilityFieldIsExplicit capability presence field then
          fields.filter (· ≠ field.name)
        else fields) fields ↔
      marker ∈ fields ∧ ∀ field ∈ chosen,
        capabilityFieldIsExplicit capability presence field = true → field.name ≠ marker := by
    induction chosen generalizing fields with
    | nil => simp
    | cons first rest inductionHypothesis =>
        have explicit : (capability.has first ||
            capabilityFieldIsExplicit capability presence first) =
            capabilityFieldIsExplicit capability presence first := by
          rw [capabilityFieldIsExplicit, ← Bool.or_assoc, Bool.or_self]
        rw [List.foldl_cons, inductionHypothesis, explicit, List.forall_mem_cons, ← and_assoc]
        refine and_congr_left fun _ => ?_
        split_ifs with here
        · rw [List.mem_filter, decide_eq_true_eq]
          exact and_congr_right fun _ =>
            ⟨fun other _ same => other same.symm, fun other same => other here same.symm⟩
        · exact ⟨fun member => ⟨member, fun other => absurd other here⟩, And.left⟩
  rw [removeReviewed, loop]
  exact and_congr_right fun _ => ⟨fun others field => others field field.mem_all,
    fun others field _ => others field⟩

/-- The second loop adds nothing: it asks for a value which is not explicit, and every value of the
merged capabilities is. -/
theorem addInherited_eq : addInherited capability presence fields = fields := by
  have loop (chosen : List CapabilityField) (fields : List String) :
      chosen.foldl (fun fields field =>
        if capability.has field && !capabilityFieldIsExplicit capability presence field &&
            !fields.contains field.name then
          fields ++ [field.name]
        else fields) fields = fields := by
    induction chosen generalizing fields with
    | nil => rfl
    | cons first rest inductionHypothesis =>
        have never : (capability.has first &&
            !capabilityFieldIsExplicit capability presence first) = false := by
          rw [capabilityFieldIsExplicit]
          cases capability.has first <;> rfl
        rw [List.foldl_cons, never, Bool.false_and, if_neg Bool.false_ne_true]
        exact inductionHypothesis fields
  exact loop _ _

/-- The markers of a declaration which was just supplied. -/
theorem mem_declaredCapabilityMetadata {services : ProviderServices} {config : ProviderConfig}
    {model : String} {now : Nat} {old : Option AiCapabilityDeclaration} :
    marker ∈ (declaredCapabilityMetadata services config model now capability old
        presence).fieldsNeedingReview ↔
      marker ∈ (old.map AiCapabilityDeclaration.fieldsNeedingReview).getD [] ∧
        ∀ field : CapabilityField,
          capabilityFieldIsExplicit capability presence field = true → field.name ≠ marker := by
  rw [declaredCapabilityMetadata]
  dsimp only
  rw [List.mem_dedup, List.mem_mergeSort, addInherited_eq, ite_self, mem_removeReviewed]

theorem fieldsNeedingReview_reconcile {services : ProviderServices} {config : ProviderConfig}
    {model : String} {declaration : AiCapabilityDeclaration} :
    (reconcileLegacyDeclaration services config model declaration).fieldsNeedingReview =
      declaration.fieldsNeedingReview := by
  rw [reconcileLegacyDeclaration]
  split_ifs <;> rfl

end Markers

/-! ## What a save writes -/

section Saves

variable {services : ProviderServices} {save : ProviderSave} {store after : ProviderStore} {id : Id}
  {request : AiProviderRequest} {stored merged : Table AiModelCapabilities} {model : String}
  {config : ProviderConfig} {previousMetadata : Option AiProviderMetadata}
  {models : List String} {previous : Table AiCapabilityDeclaration}

/-- A loop which writes each key once leaves the other keys alone. -/
theorem get_foldl_put {α β : Type} {key : β → String} {value : Option α → β → α} {items : List β}
    (start : Table α) (once : (items.map key).Nodup) :
    (∀ item ∈ items, (items.foldl (fun table item =>
        table.put (key item) (value (table.get (key item)) item)) start).get (key item) =
      some (value (start.get (key item)) item)) ∧
    ∀ other, other ∉ items.map key → (items.foldl (fun table item =>
        table.put (key item) (value (table.get (key item)) item)) start).get other =
      start.get other := by
  induction items generalizing start with
  | nil => exact ⟨nofun, fun _ _ => rfl⟩
  | cons first rest inductionHypothesis =>
      obtain ⟨apart, once⟩ := List.nodup_cons.mp once
      obtain ⟨written, others⟩ := inductionHypothesis
        (start.put (key first) (value (start.get (key first)) first)) once
      refine ⟨List.forall_mem_cons.mpr ⟨?_, fun item member => ?_⟩, fun other absent => ?_⟩
      · rw [List.foldl_cons, others _ apart, Table.get_put_self]
      · have different : key item ≠ key first := fun same =>
          apart (same ▸ List.mem_map_of_mem member)
        rw [List.foldl_cons, written item member, Table.get_put_other _ _ different]
      · rw [List.map_cons, List.mem_cons, not_or] at absent
        rw [List.foldl_cons, others other absent.2, Table.get_put_other _ _ absent.1]

/-- The capabilities of a model are merged with what the request has of it. -/
theorem get_mergedCapabilities : (mergedCapabilities request stored).get model =
    match request.modelCapabilities.get model with
    | some incoming => some (mergeCapabilityFields (stored.get model) incoming
        (request.modelCapabilityPresence.get model))
    | none => stored.get model := by
  obtain ⟨written, others⟩ := @get_foldl_put _ _ Prod.fst
    (fun old row => mergeCapabilityFields old row.2 (request.modelCapabilityPresence.get row.1))
    request.modelCapabilities.rows stored (Table.nodup_keys_rows _)
  cases given : request.modelCapabilities.get model with
  | some incoming => exact written (model, incoming) (Table.mem_rows.mpr given)
  | none =>
      refine others model fun listed => ?_
      obtain ⟨row, member, rfl⟩ := List.mem_map.mp listed
      have found := Table.mem_rows.mp member
      rw [given] at found
      cases found

theorem mem_declarationModels {enabledModels : List String} :
    model ∈ declarationModels merged enabledModels ↔
      (∃ capability, merged.get model = some capability) ∨ model ∈ enabledModels := by
  rw [declarationModels, List.mem_mergeSort, List.mem_dedup, List.mem_append, List.mem_map]
  refine or_congr_left ⟨?_, ?_⟩
  · rintro ⟨⟨other, capability⟩, member, rfl⟩
    exact ⟨capability, Table.mem_rows.mp member⟩
  · rintro ⟨capability, found⟩
    exact ⟨(model, capability), Table.mem_rows.mpr found, rfl⟩

theorem nodup_declarationModels {enabledModels : List String} :
    (declarationModels merged enabledModels).Nodup :=
  (List.mergeSort_perm _ _).nodup_iff.mpr (List.nodup_dedup _)

/-- Each of the models is declared once, from its declaration before. -/
theorem get_savedDeclarations (once : models.Nodup) :
    (savedDeclarations services save config previousMetadata merged models previous).get model =
      if model ∈ models then some (savedDeclaration services save config previousMetadata merged
        (previous.get model) model)
      else previous.get model := by
  obtain ⟨written, others⟩ := @get_foldl_put _ _ (fun model : String => model)
    (savedDeclaration services save config previousMetadata merged) models previous
    (by rwa [List.map_id'])
  rw [List.map_id'] at others
  split_ifs with member
  · exact written model member
  · exact others model member

/-- A prepared provider has the identifier of the request, or the one which was drawn. -/
theorem id_prepareProviderSave {newId : Id} {requested : Option Id} {name baseUrl model : String}
    {apiKey : Option String} {allowPrivateNetwork : Bool}
    (prepared : prepareProviderSave services store newId requested name baseUrl model apiKey
      allowPrivateNetwork = .ok config) : config.id = requested.getD newId := by
  simp only [prepareProviderSave, bind_eq_ok] at prepared
  obtain ⟨_, _, _, _, _, _, _, _, _, _, _, _, same⟩ := prepared
  rw [← Except.ok.inj same]

/-- A save which succeeds writes the merged capabilities and the declarations of their models. -/
theorem saveAiProvider_eq_ok (fresh : save.Fresh store)
    (done : saveAiProvider services save store = .ok (after, id)) :
    ∃ config metadata enabledModels,
      id = save.request.requestedId.getD save.newId ∧
      metadata.modelCapabilities = mergedCapabilities save.request
        (((store.metadata.get id).map AiProviderMetadata.modelCapabilities).getD ∅) ∧
      after.metadata = store.metadata.put id metadata ∧
      after.declarations = store.declarations.put id (savedDeclarations services save config
        (store.metadata.get id) metadata.modelCapabilities
        (declarationModels metadata.modelCapabilities enabledModels)
        ((store.declarations.get id).getD ∅)) := by
  simp only [saveAiProvider, bind_eq_ok] at done
  obtain ⟨_, _, _, _, _, _, config, prepared, _, _, same⟩ := done
  obtain ⟨rfl, rfl⟩ := Prod.mk.inj (Except.ok.inj same)
  have named := id_prepareProviderSave prepared
  have metadata : save.request.requestedId.bind store.metadata.get =
      store.metadata.get config.id := by
    rw [named]
    cases requested : save.request.requestedId with
    | some requested => rfl
    | none => exact (fresh requested).1.symm
  have declarations : save.request.requestedId.bind store.declarations.get =
      store.declarations.get config.id := by
    rw [named]
    cases requested : save.request.requestedId with
    | some requested => rfl
    | none => exact (fresh requested).2.symm
  rw [← metadata, ← declarations]
  exact ⟨config, _, save.request.models, named, rfl, rfl, rfl⟩

/-- A request supplies a field of a model when its update of the model has one. -/
theorem exists_supplies_iff : (∃ field, request.Supplies model field) ↔
    (request.modelCapabilities.get model).any (fun value => capabilityUpdateHasExplicitFields value
      (request.modelCapabilityPresence.get model)) = true := by
  rw [Option.any_eq_true]
  constructor
  · rintro ⟨field, incoming, given, explicit⟩
    exact ⟨incoming, given, List.any_eq_true.mpr ⟨field, field.mem_all, explicit⟩⟩
  · rintro ⟨incoming, given, some⟩
    obtain ⟨field, -, explicit⟩ := List.any_eq_true.mp some
    exact ⟨field, incoming, given, explicit⟩

/-- The declarations of a provider before a save. -/
def ProviderStore.declarationOf (store : ProviderStore) (id : Id) (model : String) :
    Option AiCapabilityDeclaration :=
  (store.declarations.get id).bind fun declarations => declarations.get model

/-- The stored capabilities of a model. -/
def ProviderStore.capabilityOf (store : ProviderStore) (id : Id) (model : String) :
    Option AiModelCapabilities :=
  (store.metadata.get id).bind fun metadata => metadata.modelCapabilities.get model

theorem markers_eq : store.markers id model =
    match store.declarationOf id model with
    | some declaration => declaration.fieldsNeedingReview
    | none =>
        match store.capabilityOf id model with
        | some capability => legacyFields capability
        | none => [] := rfl

theorem holds_iff {field : CapabilityField} : store.Holds id model field ↔
    ∃ capability, store.capabilityOf id model = some capability ∧ capability.has field = true := by
  rw [ProviderStore.Holds, ProviderStore.capabilityOf]
  constructor
  · rintro ⟨metadata, capability, found, given, value⟩
    exact ⟨capability, Option.bind_eq_some_iff.mpr ⟨metadata, found, given⟩, value⟩
  · rintro ⟨capability, given, value⟩
    obtain ⟨metadata, found, given⟩ := Option.bind_eq_some_iff.mp given
    exact ⟨metadata, capability, found, given, value⟩

theorem getD_empty_get {α : Type} {tables : Option (Table α)} {key : String} :
    (tables.getD ∅).get key = tables.bind fun table => table.get key := by
  cases tables <;> rfl

/-- The capabilities of a model behind a save. -/
theorem capabilityOf_saved (fresh : save.Fresh store)
    (done : saveAiProvider services save store = .ok (after, id)) :
    after.capabilityOf id model =
      match save.request.modelCapabilities.get model with
      | some incoming => some (mergeCapabilityFields (store.capabilityOf id model) incoming
          (save.request.modelCapabilityPresence.get model))
      | none => store.capabilityOf id model := by
  obtain ⟨config, metadata, enabledModels, -, capabilities, written, -⟩ :=
    saveAiProvider_eq_ok fresh done
  have before : (((store.metadata.get id).map AiProviderMetadata.modelCapabilities).getD ∅).get
      model = store.capabilityOf id model := by
    rw [getD_empty_get, ProviderStore.capabilityOf, Option.bind_map]
    rfl
  rw [ProviderStore.capabilityOf, written, Table.get_put_self, Option.bind_some, capabilities,
    get_mergedCapabilities, before]

/-- The declaration of a model behind a save. -/
theorem declarationOf_saved (fresh : save.Fresh store)
    (done : saveAiProvider services save store = .ok (after, id)) :
    ∃ (config : ProviderConfig) (merged : Table AiModelCapabilities) (enabledModels : List String),
      (∀ model, merged.get model = after.capabilityOf id model) ∧
      ∀ model, after.declarationOf id model =
        if (after.capabilityOf id model).isSome = true ∨ model ∈ enabledModels then
          some (savedDeclaration services save config (store.metadata.get id) merged
            (store.declarationOf id model) model)
        else store.declarationOf id model := by
  obtain ⟨config, metadata, enabledModels, -, -, written, declared⟩ :=
    saveAiProvider_eq_ok fresh done
  have capabilities (model : String) :
      metadata.modelCapabilities.get model = after.capabilityOf id model := by
    rw [ProviderStore.capabilityOf, written, Table.get_put_self, Option.bind_some]
  refine ⟨config, metadata.modelCapabilities, enabledModels, capabilities, fun model => ?_⟩
  rw [ProviderStore.declarationOf, declared, Table.get_put_self, Option.bind_some,
    get_savedDeclarations nodup_declarationModels, getD_empty_get, ← ProviderStore.declarationOf]
  refine if_congr ?_ rfl rfl
  rw [mem_declarationModels, capabilities, Option.isSome_iff_exists]

/-- The fields which an update without a field of a model leaves to review. -/
theorem savedDeclaration_of_silent {old : Option AiCapabilityDeclaration}
    (silent : ¬ ∃ field, save.request.Supplies model field) :
    (savedDeclaration services save config previousMetadata merged old model).fieldsNeedingReview =
      match old with
      | some declaration => declaration.fieldsNeedingReview
      | none =>
          match previousMetadata.bind fun metadata => metadata.modelCapabilities.get model with
          | some capability => legacyFields capability
          | none => [] := by
  unfold savedDeclaration
  rw [if_neg (mt exists_supplies_iff.mpr silent)]
  cases old with
  | some declaration => exact fieldsNeedingReview_reconcile
  | none =>
      cases previousMetadata with
      | none => rfl
      | some metadata =>
          rw [Option.bind_some]
          dsimp only
          cases metadata.modelCapabilities.get model with
          | none => rfl
          | some capability => exact fieldsNeedingReview_reconcile

/-- A model of which nothing is supplied keeps its markers. -/
theorem markers_of_silent (fresh : save.Fresh store)
    (done : saveAiProvider services save store = .ok (after, id))
    (silent : ¬ ∃ field, save.request.Supplies model field) :
    after.markers id model = store.markers id model := by
  obtain ⟨config, merged, enabledModels, -, declared⟩ := declarationOf_saved fresh done
  have capabilities := @capabilityOf_saved services save store after id model fresh done
  rw [markers_eq, declared model]
  split_ifs with declaredNow
  · exact savedDeclaration_of_silent silent
  · -- Without capabilities there is nothing to mark, before as behind the save.
    rw [not_or, Bool.not_eq_true, Option.isSome_eq_false_iff,
      Option.isNone_iff_eq_none] at declaredNow
    rw [markers_eq, declaredNow.1]
    have before : store.capabilityOf id model = none := by
      rw [declaredNow.1] at capabilities
      cases given : save.request.modelCapabilities.get model with
      | none =>
          rw [given] at capabilities
          exact capabilities.symm
      | some incoming =>
          rw [given] at capabilities
          cases capabilities
    rw [before]

/-- A field which was marked stays so behind a save which supplies some field of its model, unless
it is explicit in the merged capabilities. -/
theorem mem_markers_of_supplied {field : CapabilityField} (fresh : save.Fresh store)
    (done : saveAiProvider services save store = .ok (after, id))
    (supplied : ∃ field, save.request.Supplies model field) :
    field.name ∈ after.markers id model ↔
      (∃ declaration, store.declarationOf id model = some declaration ∧
        field.name ∈ declaration.fieldsNeedingReview) ∧
      ¬ (save.request.Supplies model field ∨ store.Holds id model field) := by
  obtain ⟨config, merged, enabledModels, mergedEq, declared⟩ := declarationOf_saved fresh done
  have capabilities := @capabilityOf_saved services save store after id model fresh done
  have update := exists_supplies_iff.mp supplied
  obtain ⟨_, incoming, given, _⟩ := supplied
  rw [given] at capabilities
  have holds : store.Holds id model field ↔
      ((store.capabilityOf id model).getD {}).has field = true := by
    rw [holds_iff]
    cases store.capabilityOf id model with
    | none => cases field <;> simp [AiModelCapabilities.has]
    | some capability => simp
  have explicit : capabilityFieldIsExplicit ((merged.get model).getD {})
      (save.request.modelCapabilityPresence.get model) field = true ↔
      save.request.Supplies model field ∨ store.Holds id model field := by
    rw [mergedEq, capabilities, Option.getD_some, explicit_mergeCapabilityFields, Bool.or_eq_true,
      holds]
    refine or_congr_left ⟨fun explicit => ⟨incoming, given, explicit⟩, ?_⟩
    rintro ⟨other, otherGiven, explicit⟩
    rwa [Option.some_inj.mp (given.symm.trans otherGiven)]
  rw [markers_eq, declared model, capabilities, if_pos (.inl rfl)]
  unfold savedDeclaration
  rw [if_pos update]
  dsimp only
  rw [mem_declaredCapabilityMetadata, ← explicit]
  refine and_congr ?_ ⟨fun others here => others field here rfl, fun notHere other here same => ?_⟩
  · cases store.declarationOf id model <;> simp
  · exact notHere (CapabilityField.name_injective same ▸ here)

/-- A save keeps the markers exactly when it supplies every marked field with a value of the models
which it supplies. -/
theorem keepsMarkers_iff (fresh : save.Fresh store)
    (done : saveAiProvider services save store = .ok (after, id)) :
    KeepsMarkers store after id save.request ↔ SuppliesInherited store id save.request := by
  constructor
  · intro keeps model supplied field marked value
    refine keeps model field marked fun still => ?_
    exact ((mem_markers_of_supplied fresh done supplied).mp still).2 (.inr value)
  · intro complete model field marked gone
    by_contra absent
    by_cases supplied : ∃ field, save.request.Supplies model field
    · have lost : ¬ store.Holds id model field := fun value =>
        absent (complete model supplied field marked value)
      refine gone ((mem_markers_of_supplied fresh done supplied).mpr
        ⟨?_, fun parts => parts.elim absent lost⟩)
      rw [markers_eq] at marked
      cases old : store.declarationOf id model with
      | some declaration =>
          rw [old] at marked
          exact ⟨declaration, rfl, marked⟩
      | none =>
          rw [old] at marked
          cases stored : store.capabilityOf id model with
          | some capability =>
              rw [stored] at marked
              exact absurd (holds_iff.mpr ⟨capability, stored, mem_legacyFields.mp marked⟩) lost
          | none =>
              rw [stored] at marked
              exact absurd marked List.not_mem_nil
    · rw [markers_of_silent fresh done supplied] at gone
      exact gone marked

theorem markers_of_other {other : Id} (fresh : save.Fresh store)
    (done : saveAiProvider services save store = .ok (after, id)) (different : other ≠ id) :
    after.markers other model = store.markers other model := by
  obtain ⟨config, metadata, enabledModels, -, -, written, declared⟩ :=
    saveAiProvider_eq_ok fresh done
  rw [ProviderStore.markers, ProviderStore.markers, written, declared,
    Table.get_put_other _ _ different, Table.get_put_other _ _ different]

/-- A marker which is gone behind saves that supply what they inherit was supplied by one of
them. -/
theorem supplied_of_run {last : ProviderStore} {saves : List ProviderSave} {field : CapabilityField}
    (run : SuppliedRun services store saves last)
    (marked : field.name ∈ store.markers id model) (gone : field.name ∉ last.markers id model) :
    ∃ save ∈ saves, save.request.requestedId = some id ∧ save.request.Supplies model field := by
  induction run with
  | nil => exact absurd marked gone
  | @saved store after last save savedId saves fresh done complete _ inductionHypothesis =>
      by_cases still : field.name ∈ after.markers id model
      · obtain ⟨save, member, supplied⟩ := inductionHypothesis still gone
        exact ⟨save, List.mem_cons_of_mem _ member, supplied⟩
      obtain rfl : id = savedId := by
        by_contra different
        rw [markers_of_other fresh done different] at still
        exact still marked
      refine ⟨save, List.mem_cons_self, ?_,
        (keepsMarkers_iff fresh done).mpr complete model field marked still⟩
      obtain ⟨_, _, _, named, -⟩ := saveAiProvider_eq_ok fresh done
      cases requested : save.request.requestedId with
      | some requested => rw [named, requested, Option.getD_some]
      | none =>
          -- A provider which is new had no markers.
          rw [requested, Option.getD_none] at named
          obtain ⟨metadata, declarations⟩ := fresh requested
          rw [ProviderStore.markers, named, metadata, declarations] at marked
          exact absurd marked List.not_mem_nil
  | refused _ _ inductionHypothesis =>
      obtain ⟨save, member, supplied⟩ := inductionHypothesis marked gone
      exact ⟨save, List.mem_cons_of_mem _ member, supplied⟩

end Saves

/-- A save clears markers only of fields which its request supplies exactly when, for every model of
which it supplies some field, it supplies all fields which need a review and have a stored value.
In a run of saves which do, and of refused ones, every marker which is gone in the end was of a
field which one of them supplied. -/
theorem review_markers_cleared_explicitly_iff (services : ProviderServices) :
    (∀ {save : ProviderSave} {store after : ProviderStore} {id : Id}, save.Fresh store →
      saveAiProvider services save store = .ok (after, id) →
      (KeepsMarkers store after id save.request ↔ SuppliesInherited store id save.request)) ∧
    ∀ {store last : ProviderStore} {saves : List ProviderSave},
      SuppliedRun services store saves last →
      ∀ (id : Id) (model : String) (field : CapabilityField),
        field.name ∈ store.markers id model → field.name ∉ last.markers id model →
          ∃ save ∈ saves, save.request.requestedId = some id ∧
            save.request.Supplies model field :=
  ⟨keepsMarkers_iff, fun run _ _ _ marked gone => supplied_of_run run marked gone⟩

/-! ## A marker which an inherited value clears -/

/-- Services which accept every endpoint. -/
def openServices : ProviderServices := ⟨fun _ => "binding", fun _ _ _ => [], fun _ => true⟩

/-- A provider from before the declarations, with a context window and without tools. -/
def legacyStore : ProviderStore where
  providers := (∅ : Table ProviderConfig).put "p" ⟨"p", "name", "http://host", "m", false, 1⟩
  metadata := (∅ : Table AiProviderMetadata).put "p" ⟨"custom", ["m"], false, "http://host",
    (∅ : Table AiModelCapabilities).put "m"
      { contextWindowTokens := some 32000, supportsTools := some false }⟩
  declarations := (∅ : Table (Table AiCapabilityDeclaration)).put "p"
    ((∅ : Table AiCapabilityDeclaration).put "m" (legacyCapabilityDeclaration openServices
      ⟨"p", "name", "http://host", "m", false, 1⟩ "m"
      { contextWindowTokens := some 32000, supportsTools := some false }))
  defaults := ∅

/-- A save which supplies the context window only. -/
def windowSave : ProviderSave where
  request := {
    id := some "p"
    providerId := none
    name := "name"
    preset := "custom"
    baseUrl := "http://host"
    model := "m"
    enabledModels := ["m"]
    modelCapabilities := (∅ : Table AiModelCapabilities).put "m"
      { contextWindowTokens := some 64000 }
    modelCapabilityPresence := (∅ : Table AiModelCapabilityPresence).put "m"
      { contextWindowTokens := true }
    apiKey := none
    trustRaw := none
    allowPrivateNetwork := false }
  now := 1
  newId := "q"
  committed := .ok ()

/-- The save succeeds, and no field needs a review behind it. -/
theorem windowSave_succeeds : ∃ after,
    saveAiProvider openServices windowSave legacyStore = .ok (after, "p") ∧
      after.markers "p" "m" = [] := by
  have saved : (saveAiProvider openServices windowSave legacyStore).toOption.map (fun result =>
      (result.2, result.1.markers "p" "m")) = some ("p", []) := by decide +kernel
  cases done : saveAiProvider openServices windowSave legacyStore with
  | error error =>
      rw [done] at saved
      cases saved
  | ok result =>
      rw [done] at saved
      obtain ⟨named, markers⟩ := Prod.mk.inj (Option.some.inj saved)
      exact ⟨result.1, by rw [← named], markers⟩

/-- For a save of the context window only, the two sides of the equivalence agree. -/
theorem review_markers_of_windowSave : ∃ after,
    saveAiProvider openServices windowSave legacyStore = .ok (after, "p") ∧
      (KeepsMarkers legacyStore after "p" windowSave.request ↔
        SuppliesInherited legacyStore "p" windowSave.request) := by
  obtain ⟨after, done, _⟩ := windowSave_succeeds
  exact ⟨after, done, (review_markers_cleared_explicitly_iff openServices).1 nofun done⟩

/-- The inherited value for tools is taken for reviewed. -/
theorem inherited_marker_is_cleared : ∃ after,
    saveAiProvider openServices windowSave legacyStore = .ok (after, "p") ∧
      "supports_tools" ∈ legacyStore.markers "p" "m" ∧
      "supports_tools" ∉ after.markers "p" "m" ∧
      ¬ windowSave.request.Supplies "m" .supportsTools := by
  obtain ⟨after, done, markers⟩ := windowSave_succeeds
  refine ⟨after, done, by decide, by rw [markers]; exact List.not_mem_nil, ?_⟩
  rintro ⟨incoming, given, explicit⟩
  obtain rfl : { contextWindowTokens := some 64000 } = incoming := Option.some.inj given
  exact absurd explicit (by decide)

end LawyerAssistance.Providers

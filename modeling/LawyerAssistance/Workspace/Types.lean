import LawyerAssistance.PrivacyText.Types

/-!
# Records of the workspace service

The rows of the workspace store, the requests which write them and the outside
services which the operations call. Revisions and times are natural numbers:
every revision starts at one and only grows by one, so 64 bits do not run out.
-/

namespace LawyerAssistance.Workspace

open PrivacyText

/-- Identifiers of stored objects. -/
abbrev Id := String

/-- Raw file content. -/
abbrev Bytes := List UInt8

/-- A stable error: a code, and whether the caller may retry. -/
structure Error where
  code : String
  retryable : Bool
deriving DecidableEq, Repr

/-- An error which a retry does not help. -/
def Error.new (code : String) : Error := ⟨code, false⟩

/-- An error after which the caller may retry. -/
def Error.retry (code : String) : Error := ⟨code, true⟩

/-- The states of a material. -/
inductive Status where
  | queued
  | running
  | awaitingConsent
  | needsReview
  | ready
  | failed
  | cancelled
  | revoked
deriving DecidableEq, Repr

/-- A dictionary group. -/
structure Group where
  id : Id
  name : String
  dictionaryRevision : Nat
  «namespace» : String
  entries : List DictionaryEntry
deriving DecidableEq, Repr

/-- One uploaded file and its processing state. -/
structure Material where
  id : Id
  name : String
  groupId : Id
  taskId : Id
  status : Status
  reasonCode : Option String
  revision : Nat
  sourceSha256 : String
  sourceByteLen : Nat
  sourceFormat : String
  encoding : Option String
  originalText : Text
  analysis : Option Analysis
  resultId : Option Id
  dismissed : List String
  dictionaryRevision : Nat
deriving DecidableEq, Repr

/-- The materials of one submission. -/
structure Task where
  id : Id
  groupId : Id
  clientId : Option Id
  requestId : String
  fingerprint : String
  materialIds : List Id
  createdAt : Nat
deriving DecidableEq, Repr

/-- A published redacted text. -/
structure ReadyResult where
  id : Id
  materialId : Id
  groupId : Id
  revision : Nat
  dictionaryRevision : Nat
  outputSha256 : String
  textByteLen : Nat
  text : Text
  createdAt : Nat
  expiresAt : Nat
  revoked : Bool
  findings : List Finding
  replacements : List Replacement
  sourceSha256 : String
deriving DecidableEq, Repr

/-- The user's consent to send the listed sources of one task to a cloud model. -/
structure CloudConsent where
  id : Id
  providerId : Id
  model : String
  profileHash : String
  sourceHashes : List (Id × Nat × String)
  expiresAt : Nat
  usedMaterials : List Id
deriving DecidableEq, Repr

/-- A configured model provider. -/
structure ProviderConfig where
  id : Id
  name : String
  baseUrl : String
  model : String
  allowPrivateNetwork : Bool
  revision : Nat
deriving DecidableEq, Repr

/-- A client of the private redaction tools. -/
structure McpClient where
  id : Id
  groupId : Id
  enabled : Bool
deriving DecidableEq, Repr

/-- The redaction model which a workspace selected. -/
structure AiModelSelection where
  providerId : Id
  model : String
deriving DecidableEq, Repr

/-- The stages of the model-led path. -/
inductive AiStage where
  | ocrRunning
  | textReady
  | redactionRunning
  | needsReview
  | completed
  | failed
  | reviewed
  | interrupted
deriving DecidableEq, Repr

/-- The stages during which a model request may be under way. -/
def AiStage.isRunning : AiStage → Bool
  | .ocrRunning | .redactionRunning => true
  | _ => false

/-- Durable progress of the model-led path for one material. -/
structure AiStageRecord where
  materialId : Id
  revision : Nat
  sourceSha256 : String
  stage : AiStage
  providerId : Id
  model : String
  textSha256 : Option String
  updatedAt : Nat
  errorCode : Option String
deriving DecidableEq, Repr

/-- An uploaded file. -/
structure ImportFile where
  name : String
  bytes : Bytes
  encoding : Option String
deriving DecidableEq, Repr

/-- A review decision on one material. -/
structure ReviewRequest where
  revision : Nat
  dictionary : List DictionaryEntry
  dismissed : List String
deriving DecidableEq, Repr

/-- What the operations call outside this module: the text redaction engine, the
digest and the JSON encoder. -/
structure Services where
  sha256Hex : Bytes → String
  filesJson : List (String × String × Option String) → Bytes
  providerJson : ProviderConfig → Bytes
  analyze : Text → String → List DictionaryEntry → List CloudFinding → List String →
    Except TextError Analysis
  analyzeWithAi : Text → String → List DictionaryEntry → List AiFinding → List String →
    Except TextError Analysis
  validateAnalysis : Analysis → Except TextError Unit
  verifyAnalysisSource : Text → Analysis → Except TextError Unit

/-- The UTF-8 encoding of a text. -/
def utf8 (text : Text) : Bytes := text.flatMap String.utf8EncodeChar

/-- `hash` of the source. -/
def Services.hash (services : Services) (bytes : Bytes) : String := services.sha256Hex bytes

end LawyerAssistance.Workspace

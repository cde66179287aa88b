import LawyerAssistance.Lifecycle.Types
import LawyerAssistance.Privacy.Findings
import LawyerAssistance.Privacy.Receipts
import Mathlib.Data.List.AList

/-!
# Access tickets of the MCP server

`mcp_ticket.rs`: a ticket is a signed record which names one request. The store keeps a row for
each ticket, and a ticket is consumed in one transaction with its row. `revoke` ends one ticket, and
a new revocation epoch ends all of them. SHA-256 and the random numbers are parameters.
-/

namespace LawyerAssistance.Privacy

open Lifecycle (WorkspaceInstanceId)

/-! ## Tickets -/

/-- `McpTicketError`. -/
inductive McpTicketError where
  | invalidRoot
  | unsafeFilesystem
  | invalidInput
  | invalidTicket
  | ticketExpired
  | ticketRevoked
  | ticketReplayed
  | bindingMismatch
  | databaseFailed
  | platformUnavailable
  deriving DecidableEq, Repr

/-- `McpTransportBindingV1`. -/
inductive McpTransportBinding where
  | stdio
  | streamableHttp
  deriving DecidableEq, Repr

/-- The names of the transports. -/
def McpTransportBinding.variants : Variants McpTransportBinding where
  name
    | .stdio => "stdio".toList
    | .streamableHttp => "streamable_http".toList
  all := [.stdio, .streamableHttp]
  complete value := by cases value <;> decide
  distinct := by decide

/-- `PublicationId`. -/
abbrev PublicationId := OpaqueId "pub_".toList

/-- `WorkProductId`. -/
abbrev WorkProductId := OpaqueId "wp_".toList

/-- `McpAccessTargetV1`. -/
structure McpAccessTarget where
  caseId : Option CaseId
  materialId : Option MaterialId
  publicationId : Option PublicationId
  workProductId : Option WorkProductId
  version : Option UInt64
  deriving DecidableEq

/-- `McpAccessTargetV1::validate`. -/
def McpAccessTarget.validate (target : McpAccessTarget) : Except McpTicketError Unit :=
  refuseIf (target.version = some 0 ∨ (target.materialId.isSome ∧ target.caseId.isNone) ∨
    (target.publicationId.isSome ∧ target.materialId.isNone) ∨
    (target.workProductId.isSome ∧ target.caseId.isNone) ∨
    (target.version.isSome ∧ target.workProductId.isNone)) .invalidInput

/-- The codec of targets. -/
def McpAccessTarget.codec : Codec McpAccessTarget :=
  Fields.record
    ((Fields.one "caseId" (OpaqueId.codec "case_".toList).option).also <|
      (Fields.one "materialId" (OpaqueId.codec "mat_".toList).option).also <|
      (Fields.one "publicationId" (OpaqueId.codec "pub_".toList).option).also <|
      (Fields.one "workProductId" (OpaqueId.codec "wp_".toList).option).also
      (Fields.one "version" (Codec.u64.option Codec.u64_solid)))
    (by decide)
    (fun (caseId, materialId, publicationId, workProductId, version) =>
      { caseId, materialId, publicationId, workProductId, version })
    (fun target => (target.caseId, target.materialId, target.publicationId, target.workProductId,
      target.version))
    (fun _ => rfl)

/-- `McpAccessTicketClaimsV1`. -/
structure McpAccessTicketClaims where
  schemaVersion : Text
  ticketId : Text
  profile : Text
  workspaceInstanceId : WorkspaceInstanceId
  serverInstanceId : Text
  transport : McpTransportBinding
  sessionId : Text
  toolName : Text
  purpose : Text
  canonicalRequestSha256 : Sha256Hex
  target : McpAccessTarget
  issuedAtUnix : UInt64
  expiresAtUnix : UInt64
  nonce : Text
  revocationEpoch : UInt64
  deriving DecidableEq

/-- The codec of claims. -/
def McpAccessTicketClaims.codec : Codec McpAccessTicketClaims :=
  Fields.record
    ((Fields.one "schemaVersion" Codec.text).also <|
      (Fields.one "ticketId" Codec.text).also <|
      (Fields.one "profile" Codec.text).also <|
      (Fields.one "workspaceInstanceId" (OpaqueId.codec "ws_".toList)).also <|
      (Fields.one "serverInstanceId" Codec.text).also <|
      (Fields.one "transport" (Codec.variants McpTransportBinding.variants)).also <|
      (Fields.one "sessionId" Codec.text).also <|
      (Fields.one "toolName" Codec.text).also <|
      (Fields.one "purpose" Codec.text).also <|
      (Fields.one "canonicalRequestSha256" Sha256Hex.codec).also <|
      (Fields.one "target" McpAccessTarget.codec).also <|
      (Fields.one "issuedAtUnix" Codec.u64).also <|
      (Fields.one "expiresAtUnix" Codec.u64).also <|
      (Fields.one "nonce" Codec.text).also
      (Fields.one "revocationEpoch" Codec.u64))
    (by decide)
    (fun (schemaVersion, ticketId, profile, workspaceInstanceId, serverInstanceId, transport,
        sessionId, toolName, purpose, canonicalRequestSha256, target, issuedAtUnix, expiresAtUnix,
        nonce, revocationEpoch) =>
      { schemaVersion, ticketId, profile, workspaceInstanceId, serverInstanceId, transport,
        sessionId, toolName, purpose, canonicalRequestSha256, target, issuedAtUnix, expiresAtUnix,
        nonce, revocationEpoch })
    (fun claims => (claims.schemaVersion, claims.ticketId, claims.profile,
      claims.workspaceInstanceId, claims.serverInstanceId, claims.transport, claims.sessionId,
      claims.toolName, claims.purpose, claims.canonicalRequestSha256, claims.target,
      claims.issuedAtUnix, claims.expiresAtUnix, claims.nonce, claims.revocationEpoch))
    (fun _ => rfl)

/-- `MCP_ACCESS_TICKET_VERSION`. -/
def mcpAccessTicketVersion : Text := "mcp-access-ticket-v1".toList

/-- `MCP_ACCESS_TICKET_PROFILE`. -/
def mcpAccessTicketProfile : Text := "approved_case_workspace".toList

/-- `MAX_MCP_ACCESS_TICKET_BYTES`. -/
def maxMcpAccessTicketBytes : Nat := 16 * 1024

/-- `MAX_MCP_ACCESS_TICKET_TTL_SECONDS`. -/
def maxMcpAccessTicketTtlSeconds : Nat := 5 * 60

/-- `safe_binding`. -/
def safeBinding (value : Text) (min max : Nat) : Bool :=
  decide (min ≤ Text.byteLength value ∧ Text.byteLength value ≤ max) &&
    value.all fun character => character.isAlphanum || ['_', '-', '.', ':'].contains character

/-- `safe_name`. -/
def safeName (value : Text) (max : Nat) : Bool :=
  decide (value ≠ [] ∧ Text.byteLength value ≤ max) &&
    value.all fun character =>
      character.isLower || character.isDigit || ['_', '-', '.'].contains character

/-- `McpAccessTicketClaimsV1::validate`. -/
def McpAccessTicketClaims.validate (claims : McpAccessTicketClaims) :
    Except McpTicketError Unit := do
  refuseIf (claims.schemaVersion ≠ mcpAccessTicketVersion ∨
    claims.profile ≠ mcpAccessTicketProfile ∨
    validOpaqueId "tkt_".toList claims.ticketId = false ∨
    validOpaqueId "srv_".toList claims.serverInstanceId = false ∨
    safeBinding claims.sessionId 16 160 = false ∨ safeName claims.toolName 128 = false ∨
    safeName claims.purpose 160 = false ∨ claims.issuedAtUnix = 0 ∨
    claims.expiresAtUnix ≤ claims.issuedAtUnix ∨
    maxMcpAccessTicketTtlSeconds < claims.expiresAtUnix.toNat - claims.issuedAtUnix.toNat ∨
    validLowerHex claims.nonce 64 = false) .invalidInput
  claims.target.validate

/-- `SignedMcpAccessTicketV1`. -/
structure SignedMcpAccessTicket where
  claims : McpAccessTicketClaims
  canonicalClaimsSha256 : Sha256Hex
  signingAlgorithm : Text
  signingKeyId : Text
  signingKeyVersion : UInt64
  signature : Text
  deriving DecidableEq

/-- The codec of signed tickets. -/
def SignedMcpAccessTicket.codec : Codec SignedMcpAccessTicket :=
  Fields.record
    ((Fields.one "claims" McpAccessTicketClaims.codec).also <|
      (Fields.one "canonicalClaimsSha256" Sha256Hex.codec).also <|
      (Fields.one "signingAlgorithm" Codec.text).also <|
      (Fields.one "signingKeyId" Codec.text).also <|
      (Fields.one "signingKeyVersion" Codec.u64).also
      (Fields.one "signature" Codec.text))
    (by decide)
    (fun (claims, canonicalClaimsSha256, signingAlgorithm, signingKeyId, signingKeyVersion,
        signature) =>
      { claims, canonicalClaimsSha256, signingAlgorithm, signingKeyId, signingKeyVersion,
        signature })
    (fun signed => (signed.claims, signed.canonicalClaimsSha256, signed.signingAlgorithm,
      signed.signingKeyId, signed.signingKeyVersion, signed.signature))
    (fun _ => rfl)

/-! ## Signatures -/

/-- `SIGNING_ALGORITHM`. -/
def signingAlgorithm : Text := "hmac-sha256-v1".toList

/-- `SIGNING_DOMAIN`. -/
def signingDomain : Octets := utf8 "LawyerAssistance/mcp-access-ticket/v1\x00"

/-- `McpTicketSigningKey`. -/
structure McpTicketSigningKey where
  key : Octets
  keyId : Text
  keyVersion : UInt64
  deriving DecidableEq

/-- `McpTicketSigningKey::from_bytes`, of 32 bytes. -/
def McpTicketSigningKey.fromBytes (key : Octets) (keyId : Text) (keyVersion : UInt64) :
    Except McpTicketError McpTicketSigningKey := do
  refuseIf (keyVersion = 0 ∨ key.all (· == 0) = true ∨ safeBinding keyId 8 128 = false)
    .invalidInput
  pure ⟨key, keyId, keyVersion⟩

section Sign

variable (sha256 : Octets → Digest)

/-- `Sha256Hex::parse`. -/
def Sha256Hex.parse (value : Text) : Option Sha256Hex :=
  if valid : validLowerHex value 64 = true then some ⟨value, valid⟩ else none

/-- The signature of an encoding of claims. -/
def McpTicketSigningKey.signature (signer : McpTicketSigningKey) (canonical : Octets) : Text :=
  hexText (hmacSha256 sha256 signer.key (signingDomain ++ canonical)).1

/-- `canonical_json_v1`, of a record. -/
def canonicalOr {α : Type} (codec : Codec α) (value : α) (error : McpTicketError) :
    Except McpTicketError Octets :=
  mapError (fun _ => error) (canonicalJsonV1 (codec.write value))

/-- `sign`. -/
def McpTicketSigningKey.sign (signer : McpTicketSigningKey) (claims : McpAccessTicketClaims) :
    Except McpTicketError SignedMcpAccessTicket := do
  claims.validate
  let canonical ← canonicalOr McpAccessTicketClaims.codec claims .invalidInput
  let hash ← presentOr (Sha256Hex.parse (hexDigest sha256 canonical)) .invalidInput
  pure {
    claims
    canonicalClaimsSha256 := hash
    signingAlgorithm
    signingKeyId := signer.keyId
    signingKeyVersion := signer.keyVersion
    signature := signer.signature sha256 canonical }

/-- `verify`. -/
def McpTicketSigningKey.verify (signer : McpTicketSigningKey) (signed : SignedMcpAccessTicket) :
    Except McpTicketError Unit := do
  mapError (fun _ => McpTicketError.invalidTicket) signed.claims.validate
  refuseIf (signed.signingAlgorithm ≠ signingAlgorithm ∨ signed.signingKeyId ≠ signer.keyId ∨
    signed.signingKeyVersion ≠ signer.keyVersion ∨ validLowerHex signed.signature 64 = false)
    .invalidTicket
  let canonical ← canonicalOr McpAccessTicketClaims.codec signed.claims .invalidTicket
  refuseIf (signed.canonicalClaimsSha256.1 ≠ hexDigest sha256 canonical) .invalidTicket
  refuseIf (signer.signature sha256 canonical ≠ signed.signature) .invalidTicket

end Sign

/-! ## The database -/

/-- The `state` of a row. -/
inductive McpTicketState where
  | issued
  | consumed
  | revoked
  deriving DecidableEq, Repr

/-- A row of `mcp_access_tickets`, but for its key. -/
structure McpTicketRow where
  tokenSha256 : Text
  nonce : Text
  revocationEpoch : Int
  issuedAtUnix : Int
  expiresAtUnix : Int
  state : McpTicketState
  consumedAtUnix : Option Int
  revokedAtUnix : Option Int
  deriving DecidableEq, Repr

/-- The row of `mcp_ticket_meta`. -/
structure McpTicketMeta where
  workspaceInstanceId : WorkspaceInstanceId
  serverInstanceId : Text
  signingKeyId : Text
  signingKeyVersion : Int
  revocationEpoch : Int
  deriving DecidableEq

/-- The tables of tickets. -/
structure McpTicketDatabase where
  ticketMeta : Option McpTicketMeta
  tickets : AList fun _ : Text => McpTicketRow

/-- The current epoch, and zero before there is one. -/
def McpTicketDatabase.epoch (database : McpTicketDatabase) : Int :=
  (database.ticketMeta.map (·.revocationEpoch)).getD 0

/-- `sql_i64`. -/
def sqlI64 (value : UInt64) : Except McpTicketError Int :=
  if value.toNat < 2 ^ 63 then .ok value.toNat else .error .invalidInput

/-- `u64::try_from`, of a number which a column has. -/
def u64FromSql (value : Int) : Option UInt64 :=
  if 0 ≤ value then some (UInt64.ofNat value.toNat) else none

/-- `INSERT INTO mcp_access_tickets`: identifiers, tokens and nonces are unique. -/
def McpTicketDatabase.insertTicket (database : McpTicketDatabase) (ticketId : Text)
    (row : McpTicketRow) : Option McpTicketDatabase :=
  if (database.tickets.lookup ticketId).isSome ∨ database.tickets.entries.any (fun entry =>
      entry.2.tokenSha256 == row.tokenSha256 || entry.2.nonce == row.nonce) then none
  else some { database with tickets := database.tickets.insert ticketId row }

/-- An update of the row of a ticket. -/
def McpTicketDatabase.updateTicket (database : McpTicketDatabase) (ticketId : Text)
    (row : McpTicketRow) : McpTicketDatabase :=
  { database with tickets := database.tickets.insert ticketId row }

/-! ## The store -/

/-- `McpAccessTicketStore`. -/
structure McpAccessTicketStore where
  signer : McpTicketSigningKey
  workspaceInstanceId : WorkspaceInstanceId
  serverInstanceId : Text
  deriving DecidableEq

/-- `McpAccessTicketRequestV1`. -/
structure McpAccessTicketRequest where
  workspaceInstanceId : WorkspaceInstanceId
  serverInstanceId : Text
  transport : McpTransportBinding
  sessionId : Text
  toolName : Text
  purpose : Text
  canonicalRequestSha256 : Sha256Hex
  target : McpAccessTarget
  issuedAtUnix : UInt64
  expiresAtUnix : UInt64
  deriving DecidableEq

/-- `McpTicketVerificationContextV1`. -/
structure McpTicketVerificationContext where
  workspaceInstanceId : WorkspaceInstanceId
  serverInstanceId : Text
  transport : McpTransportBinding
  sessionId : Text
  toolName : Text
  purpose : Text
  canonicalRequestSha256 : Sha256Hex
  target : McpAccessTarget
  nowUnix : UInt64
  deriving DecidableEq

/-- The numbers which `fill_random` gives for an identifier and for a nonce. -/
structure McpTicketRandom where
  ticketId : {bytes : Octets // bytes.length = 16}
  nonce : {bytes : Octets // bytes.length = 32}
  deriving DecidableEq

/-- A ticket with its token. -/
structure IssuedTicket where
  claims : McpAccessTicketClaims
  token : Text
  deriving DecidableEq

namespace McpAccessTicketStore

variable (sha256 : Octets → Digest)

/-- `initialize_database`. -/
def initializeDatabase (store : McpAccessTicketStore) (database : McpTicketDatabase) :
    Except McpTicketError McpTicketDatabase := do
  match database.ticketMeta with
  | some existing =>
      refuseIf (existing.workspaceInstanceId ≠ store.workspaceInstanceId ∨
        existing.serverInstanceId ≠ store.serverInstanceId ∨
        existing.signingKeyId ≠ store.signer.keyId ∨
        u64FromSql existing.signingKeyVersion ≠ some store.signer.keyVersion) .bindingMismatch
      pure database
  | none =>
      let version ← sqlI64 store.signer.keyVersion
      pure { database with ticketMeta := some {
        workspaceInstanceId := store.workspaceInstanceId
        serverInstanceId := store.serverInstanceId
        signingKeyId := store.signer.keyId
        signingKeyVersion := version
        revocationEpoch := 0 } }

/-- `initialize`, but for the files. -/
def initializeStore (store : McpAccessTicketStore) (database : McpTicketDatabase) :
    Except McpTicketError McpTicketDatabase := do
  refuseIf (validOpaqueId "srv_".toList store.serverInstanceId = false) .invalidInput
  store.initializeDatabase database

/-- `current_revocation_epoch`. -/
def currentRevocationEpoch (database : McpTicketDatabase) : Except McpTicketError UInt64 := do
  let ticketMeta ← presentOr database.ticketMeta .databaseFailed
  presentOr (u64FromSql ticketMeta.revocationEpoch) .databaseFailed

/-- The claims of a request. -/
def claimsOf (request : McpAccessTicketRequest) (random : McpTicketRandom)
    (revocationEpoch : UInt64) : McpAccessTicketClaims where
  schemaVersion := mcpAccessTicketVersion
  ticketId := "tkt_".toList ++ hexText random.ticketId.1
  profile := mcpAccessTicketProfile
  workspaceInstanceId := request.workspaceInstanceId
  serverInstanceId := request.serverInstanceId
  transport := request.transport
  sessionId := request.sessionId
  toolName := request.toolName
  purpose := request.purpose
  canonicalRequestSha256 := request.canonicalRequestSha256
  target := request.target
  issuedAtUnix := request.issuedAtUnix
  expiresAtUnix := request.expiresAtUnix
  nonce := hexText random.nonce.1
  revocationEpoch := revocationEpoch

/-- The prefix of a token. -/
def tokenPrefix : Text := "tkt_v1.".toList

/-- `issue`, up to the reading of the epoch. -/
def prepare (store : McpAccessTicketStore) (request : McpAccessTicketRequest)
    (random : McpTicketRandom) (database : McpTicketDatabase) :
    Except McpTicketError McpAccessTicketClaims := do
  refuseIf (request.workspaceInstanceId ≠ store.workspaceInstanceId ∨
    request.serverInstanceId ≠ store.serverInstanceId) .bindingMismatch
  let epoch ← currentRevocationEpoch database
  pure (claimsOf request random epoch)

/-- `issue`, behind the reading of the epoch. -/
def record (store : McpAccessTicketStore) (claims : McpAccessTicketClaims)
    (database : McpTicketDatabase) : Except McpTicketError (McpTicketDatabase × IssuedTicket) := do
  let signed ← store.signer.sign sha256 claims
  let canonical ← canonicalOr SignedMcpAccessTicket.codec signed .invalidInput
  let token := tokenPrefix ++ Base64Url.encodeLetters canonical
  refuseIf (maxMcpAccessTicketBytes < Text.byteLength token) .invalidInput
  let revocationEpoch ← sqlI64 claims.revocationEpoch
  let issuedAtUnix ← sqlI64 claims.issuedAtUnix
  let expiresAtUnix ← sqlI64 claims.expiresAtUnix
  let next ← presentOr (database.insertTicket claims.ticketId {
    tokenSha256 := hexDigest sha256 (utf8 (String.ofList token))
    nonce := claims.nonce
    revocationEpoch, issuedAtUnix, expiresAtUnix
    state := .issued
    consumedAtUnix := none
    revokedAtUnix := none }) .databaseFailed
  pure (next, ⟨claims, token⟩)

/-- `issue`, when nothing comes between its statements. -/
def issue (store : McpAccessTicketStore) (request : McpAccessTicketRequest)
    (random : McpTicketRandom) (database : McpTicketDatabase) :
    Except McpTicketError (McpTicketDatabase × Text) := do
  let claims ← store.prepare request random database
  let (next, ticket) ← store.record sha256 claims database
  pure (next, ticket.token)

/-- `strict_json_v1_from_slice`, of a signed ticket. -/
def readSigned (bytes : Octets) : Option SignedMcpAccessTicket :=
  (strictJsonV1FromSlice bytes).bind SignedMcpAccessTicket.codec.read

/-- `consume`, up to the opening of the database: what a token says. -/
def openToken (store : McpAccessTicketStore) (token : Text) (nowUnix : UInt64) :
    Except McpTicketError McpAccessTicketClaims := do
  refuseIf (token = [] ∨ maxMcpAccessTicketBytes < Text.byteLength token ∨ nowUnix = 0)
    .invalidTicket
  let encoded ← presentOr (tokenPrefix.isPrefixOf? token) .invalidTicket
  let bytes ← presentOr (Base64Url.decode (String.ofList encoded)) .invalidTicket
  refuseIf (bytes = [] ∨ maxMcpAccessTicketBytes < bytes.length) .invalidTicket
  let signed ← presentOr (readSigned bytes) .invalidTicket
  let canonical ← canonicalOr SignedMcpAccessTicket.codec signed .invalidTicket
  refuseIf (canonical ≠ bytes) .invalidTicket
  store.signer.verify sha256 signed
  pure signed.claims

/-- The bindings of claims are those of a context and of the store. -/
def Bound (store : McpAccessTicketStore) (claims : McpAccessTicketClaims)
    (context : McpTicketVerificationContext) : Prop :=
  claims.workspaceInstanceId = context.workspaceInstanceId ∧
    claims.serverInstanceId = context.serverInstanceId ∧ claims.transport = context.transport ∧
    claims.sessionId = context.sessionId ∧ claims.toolName = context.toolName ∧
    claims.purpose = context.purpose ∧
    claims.canonicalRequestSha256 = context.canonicalRequestSha256 ∧
    claims.target = context.target ∧ claims.workspaceInstanceId = store.workspaceInstanceId ∧
    claims.serverInstanceId = store.serverInstanceId

instance (store : McpAccessTicketStore) (claims : McpAccessTicketClaims)
    (context : McpTicketVerificationContext) : Decidable (store.Bound claims context) := by
  unfold Bound
  infer_instance

/-- The transaction of `consume`. -/
def consumeRow (claims : McpAccessTicketClaims) (token : Text) (nowUnix : UInt64)
    (database : McpTicketDatabase) : Except McpTicketError McpTicketDatabase := do
  let tokenSha256 := hexDigest sha256 (utf8 (String.ofList token))
  let ticketMeta ← presentOr database.ticketMeta .databaseFailed
  refuseIf (u64FromSql ticketMeta.revocationEpoch ≠ some claims.revocationEpoch) .ticketRevoked
  let row ← presentOr (database.tickets.lookup claims.ticketId) .invalidTicket
  refuseIf (row.state = .revoked) .ticketRevoked
  refuseIf (row.state ≠ .issued) .ticketReplayed
  refuseIf (row.tokenSha256 ≠ tokenSha256 ∨ row.nonce ≠ claims.nonce ∨
    u64FromSql row.revocationEpoch ≠ some claims.revocationEpoch ∨
    u64FromSql row.issuedAtUnix ≠ some claims.issuedAtUnix ∨
    u64FromSql row.expiresAtUnix ≠ some claims.expiresAtUnix) .invalidTicket
  let consumedAtUnix ← sqlI64 nowUnix
  pure (database.updateTicket claims.ticketId
    { row with state := .consumed, consumedAtUnix := some consumedAtUnix })

/-- `consume`. -/
def consume (store : McpAccessTicketStore) (token : Text) (context : McpTicketVerificationContext)
    (database : McpTicketDatabase) :
    Except McpTicketError (McpTicketDatabase × McpAccessTicketClaims) := do
  let claims ← store.openToken sha256 token context.nowUnix
  refuseIf (context.nowUnix < claims.issuedAtUnix ∨ claims.expiresAtUnix ≤ context.nowUnix)
    .ticketExpired
  context.target.validate
  refuseIf (¬ store.Bound claims context) .bindingMismatch
  let next ← consumeRow sha256 claims token context.nowUnix database
  pure (next, claims)

/-- `revoke`. -/
def revoke (ticketId : Text) (revokedAtUnix : UInt64) (database : McpTicketDatabase) :
    Except McpTicketError McpTicketDatabase := do
  refuseIf (validOpaqueId "tkt_".toList ticketId = false ∨ revokedAtUnix = 0) .invalidInput
  let revokedAtUnix ← sqlI64 revokedAtUnix
  let row ← presentOr ((database.tickets.lookup ticketId).filter (·.state = .issued))
    .ticketReplayed
  pure (database.updateTicket ticketId
    { row with state := .revoked, revokedAtUnix := some revokedAtUnix })

/-- `bump_revocation_epoch`. -/
def bumpRevocationEpoch (database : McpTicketDatabase) :
    Except McpTicketError (McpTicketDatabase × UInt64) := do
  let ticketMeta ← presentOr database.ticketMeta .databaseFailed
  refuseIf (2 ^ 63 ≤ ticketMeta.revocationEpoch + 1) .databaseFailed
  let epoch ← presentOr (u64FromSql (ticketMeta.revocationEpoch + 1)) .databaseFailed
  pure ({ database with
      ticketMeta := some { ticketMeta with revocationEpoch := ticketMeta.revocationEpoch + 1 } },
    epoch)

end McpAccessTicketStore

end LawyerAssistance.Privacy

import LawyerAssistance.Privacy.Schema

/-!
# The alias ledger of a case

`case_dictionary.rs`: every value of a case is named by an alias, which is the stem of its category
and a letter. The ledger is stored in canonical JSON with a hash over what it holds. SHA-256 is a
parameter.
-/

namespace LawyerAssistance.Privacy

/-! ## Categories -/

/-- `DictionaryCategoryV1`. -/
inductive DictionaryCategory where
  | party
  | agent
  | legalRepresentative
  | contact
  | witness
  | company
  | agency
  | court
  | address
  | contactInformation
  | account
  | custom
  deriving DecidableEq

/-- The variants of `DictionaryCategoryV1`. -/
def DictionaryCategory.variants : Variants DictionaryCategory where
  name
    | .party => "party".toList
    | .agent => "agent".toList
    | .legalRepresentative => "legal_representative".toList
    | .contact => "contact".toList
    | .witness => "witness".toList
    | .company => "company".toList
    | .agency => "agency".toList
    | .court => "court".toList
    | .address => "address".toList
    | .contactInformation => "contact_information".toList
    | .account => "account".toList
    | .custom => "custom".toList
  all :=
    [.party, .agent, .legalRepresentative, .contact, .witness, .company, .agency, .court,
    .address, .contactInformation, .account, .custom]
  complete value := by cases value <;> decide
  distinct := by decide

/-- `default_entity_type`. -/
def DictionaryCategory.defaultEntityType : DictionaryCategory → EntityType
  | .party | .agent | .legalRepresentative | .contact | .witness => .personName
  | .company | .agency | .court => .organizationName
  | .address => .address
  | .contactInformation => .phoneNumber
  | .account => .accountName
  | .custom => .custom

/-- `alias_stem`. -/
def DictionaryCategory.aliasStem : DictionaryCategory → Text
  | .party | .agent | .legalRepresentative | .contact | .witness => "\u81ea\u7136\u4eba".toList
  | .company => "\u516c\u53f8".toList
  | .agency => "\u673a\u5173".toList
  | .court => "\u6cd5\u9662".toList
  | .address => "\u5730\u5740".toList
  | .contactInformation => "\u8054\u7cfb\u65b9\u5f0f".toList
  | .account => "\u8d26\u53f7".toList
  | .custom => "\u654f\u611f\u8bcd".toList

/-- The place of a category in the order of their declaration. -/
def DictionaryCategory.rank (category : DictionaryCategory) : Nat :=
  DictionaryCategory.variants.all.idxOf category

/-! ## Aliases -/

/-- The letter of a digit of an ordinal. -/
def ordinalLetter (digit : Nat) : Char := Char.ofNat ('A'.toNat + digit)

/-- The loop of `alpha_ordinal`, with the last letter first. -/
def ordinalDigits : Nat → Nat → Text
  | 0, _ => []
  | fuel + 1, index =>
      ordinalLetter (index % 26) ::
        if index < 26 then [] else ordinalDigits fuel (index / 26 - 1)

/-- `alpha_ordinal`. -/
def alphaOrdinal (index : Nat) : Text := (ordinalDigits (index + 1) index).reverse

/-- The alias of an ordinal within a category. -/
def aliasText (category : DictionaryCategory) (ordinal : Nat) : Text :=
  '\u3010' :: (category.aliasStem ++ alphaOrdinal ordinal ++ ['\u3011'])

/-- `valid_alias`. -/
def validAlias (value : Text) : Bool :=
  value.head? == some '\u3010' && value.getLast? == some '\u3011' &&
    decide (Text.byteLength value ≤ 128) && !value.any Text.isControl

/-! ## The ledger -/

/-- `CASE_ALIAS_LEDGER_SCHEMA_VERSION`. -/
def caseAliasLedgerSchemaVersion : Text := "case-alias-ledger-v1".toList

/-- `MAX_DICTIONARY_ENTRIES`. -/
def maxDictionaryEntries : Nat := 4096

/-- `CaseDictionaryError`, as the ledger, the matches and the clusters return it. -/
inductive CaseDictionaryError where
  | invalidRecord
  | invalidSecret
  | entryLimitExceeded
  | invalidClusterOperation
  deriving DecidableEq

/-- `CaseAliasRecordV1`. -/
structure CaseAliasRecord where
  valueFingerprint : Sha256Hex
  category : DictionaryCategory
  stableAlias : Text
  deriving DecidableEq

/-- `CaseAliasLedgerV1`. -/
structure CaseAliasLedger where
  schemaVersion : Text
  caseId : CaseId
  revision : UInt64
  aliases : List CaseAliasRecord
  revisionHash : Sha256Hex
  deriving DecidableEq

/-- The codec of records. -/
def CaseAliasRecord.codec : Codec CaseAliasRecord :=
  Fields.record
    ((Fields.one "valueFingerprint" Sha256Hex.codec).also <|
      (Fields.one "category" (Codec.variants DictionaryCategory.variants)).also
        (Fields.one "stableAlias" Codec.text))
    (by decide)
    (fun (valueFingerprint, category, stableAlias) => { valueFingerprint, category, stableAlias })
    (fun record => (record.valueFingerprint, record.category, record.stableAlias))
    (fun _ => rfl)

/-- The fields of a ledger which its hash covers. -/
def ledgerClaims : Fields (Text × CaseId × UInt64 × List CaseAliasRecord) :=
  (Fields.one "schemaVersion" Codec.text).also <|
    (Fields.one "caseId" (OpaqueId.codec _)).also <|
    (Fields.one "revision" Codec.u64).also (Fields.one "aliases" CaseAliasRecord.codec.list)

namespace CaseAliasLedger

/-- What is hashed of a ledger. -/
def covered (ledger : CaseAliasLedger) : Text × CaseId × UInt64 × List CaseAliasRecord :=
  (ledger.schemaVersion, ledger.caseId, ledger.revision, ledger.aliases)

/-- The codec of ledgers. -/
def codec : Codec CaseAliasLedger :=
  Fields.record (ledgerClaims.also (Fields.one "revisionHash" Sha256Hex.codec)) (by decide)
    (fun ((schemaVersion, caseId, revision, aliases), revisionHash) =>
      { schemaVersion, caseId, revision, aliases, revisionHash })
    (fun ledger => (ledger.covered, ledger.revisionHash))
    (fun _ => rfl)

section Hash

variable (sha256Hex : Octets → Sha256Hex)

/-- `rehash`. -/
def rehash (ledger : CaseAliasLedger) : Except CaseDictionaryError CaseAliasLedger :=
  match canonicalJsonV1 (.object (ledgerClaims.write ledger.covered)) with
  | .ok bytes => .ok { ledger with revisionHash := sha256Hex bytes }
  | .error _ => .error .invalidRecord

/-- `empty`. -/
def empty (caseId : CaseId) : Except CaseDictionaryError CaseAliasLedger :=
  rehash sha256Hex
    { schemaVersion := caseAliasLedgerSchemaVersion, caseId, revision := 1, aliases := []
      revisionHash := sha256Hex (utf8 "pending") }

/-- `validate`. -/
def validate (ledger : CaseAliasLedger) : Except CaseDictionaryError Unit := do
  refuseIf (ledger.schemaVersion ≠ caseAliasLedgerSchemaVersion ∨ ledger.revision = 0 ∨
    maxDictionaryEntries < ledger.aliases.length ∨
    ledger.aliases.any fun entry => !validAlias entry.stableAlias) .invalidRecord
  let copy ← ledger.rehash sha256Hex
  refuseIf (copy.revisionHash ≠ ledger.revisionHash) .invalidRecord

/-- `state_bytes`. -/
def stateBytes (ledger : CaseAliasLedger) : Except CaseDictionaryError Octets := do
  ledger.validate sha256Hex
  match canonicalJsonV1 (codec.write ledger) with
  | .ok bytes => .ok bytes
  | .error _ => .error .invalidRecord

/-- `from_state_bytes`. -/
def fromStateBytes (bytes : Octets) : Except CaseDictionaryError CaseAliasLedger := do
  let ledger ← presentOr ((strictJsonV1FromSlice bytes).bind codec.read) .invalidRecord
  ledger.validate sha256Hex
  pure ledger

/-- The order of the records: by category, then by alias. -/
def recordBefore (left right : CaseAliasRecord) : Bool :=
  left.category.rank < right.category.rank ||
    (left.category.rank == right.category.rank && left.stableAlias ≤ right.stableAlias)

/-- The records of a category. -/
def recordsOf (ledger : CaseAliasLedger) (category : DictionaryCategory) : List CaseAliasRecord :=
  ledger.aliases.filter fun entry => entry.category = category

/-- The record which `assign` adds. -/
def nextRecord (ledger : CaseAliasLedger) (category : DictionaryCategory)
    (fingerprint : Sha256Hex) : CaseAliasRecord :=
  { valueFingerprint := fingerprint, category
    stableAlias := aliasText category (ledger.recordsOf category).length }

/-- The ledger with a record which `assign` adds, before it is hashed. -/
def withRecord (ledger : CaseAliasLedger) (entry : CaseAliasRecord) : CaseAliasLedger :=
  { ledger with
    aliases := (ledger.aliases ++ [entry]).insertionSort fun left right =>
      recordBefore left right = true
    revision := saturatingNext64 ledger.revision }

/-- `assign`: what it leaves of the ledger, and what it returns. -/
def assign (ledger : CaseAliasLedger) (category : DictionaryCategory) (fingerprint : Sha256Hex) :
    CaseAliasLedger × Except CaseDictionaryError Text :=
  match ledger.aliases.find? fun entry => entry.valueFingerprint == fingerprint with
  | some existing => (ledger, .ok existing.stableAlias)
  | none =>
      if maxDictionaryEntries ≤ ledger.aliases.length then (ledger, .error .entryLimitExceeded)
      else
        let entry := ledger.nextRecord category fingerprint
        let next := ledger.withRecord entry
        match next.rehash sha256Hex with
        | .ok hashed => (hashed, .ok entry.stableAlias)
        | .error error => (next, .error error)

end Hash

end CaseAliasLedger

end LawyerAssistance.Privacy

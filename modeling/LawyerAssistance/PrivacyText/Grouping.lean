import LawyerAssistance.PrivacyText.Types
import LawyerAssistance.Std.Bytes
import LawyerAssistance.Std.Fallible
import LawyerAssistance.Std.Slices
import LawyerAssistance.Std.Spans
import Mathlib.Data.List.Sort

/-!
# Occurrences of an analysis

The candidates of all detectors are grouped by their range. A group is replaced when its evidence
suffices, unless a person name which is repeated may mean several people, or two replacements
overlap. What a reviewer dismisses is never replaced.
-/

namespace LawyerAssistance.PrivacyText

/-- The detectors, in the order of their names. -/
inductive CandidateSource where
  | ai
  | cloud
  | deterministic
  | dictionary
  | localNer
deriving DecidableEq, Repr

/-- The name of a detector. -/
def CandidateSource.name : CandidateSource → String
  | .ai => "ai"
  | .cloud => "cloud"
  | .deterministic => "deterministic"
  | .dictionary => "dictionary"
  | .localNer => "local_ner"

/-- All detectors, in the order of their names. -/
def CandidateSource.all : List CandidateSource :=
  [.ai, .cloud, .deterministic, .dictionary, .localNer]

/-- All kinds, in their order. -/
def EntityType.all : List EntityType :=
  [.personName, .organizationName, .caseNumber, .identityNumber, .passportNumber, .phoneNumber,
    .landlineNumber, .bankAccount, .emailAddress, .address, .organizationCode,
    .businessLicenseNumber, .vehiclePlate, .ipAddress, .socialAccount, .paymentAccount,
    .accountName, .contractNumber, .trackingNumber, .propertyCertificateNumber, .custom]

/-- `entity_kind`. -/
def entityKind : EntityType → String
  | .personName => "person_name"
  | .organizationName => "organization_name"
  | .caseNumber => "case_number"
  | .identityNumber => "identity_number"
  | .passportNumber => "passport_number"
  | .phoneNumber => "phone_number"
  | .landlineNumber => "landline_number"
  | .bankAccount => "bank_account"
  | .emailAddress => "email_address"
  | .address => "address"
  | .organizationCode => "organization_code"
  | .businessLicenseNumber => "business_license_number"
  | .vehiclePlate => "vehicle_plate"
  | .ipAddress => "ip_address"
  | .socialAccount => "social_account"
  | .paymentAccount => "payment_account"
  | .accountName => "account_name"
  | .contractNumber => "contract_number"
  | .trackingNumber => "tracking_number"
  | .propertyCertificateNumber => "property_certificate_number"
  | .custom => "custom"

/-- One occurrence which a detector reports. Only the deterministic rules mark theirs as such. -/
structure Candidate where
  start : Nat
  «end» : Nat
  kind : EntityType
  source : CandidateSource
  «alias» : Text
  deterministic : Bool
  automaticAllowed : Bool
  ruled : deterministic = true → source = .deterministic
deriving DecidableEq, Repr

theorem Candidate.ruled_of_false {source : CandidateSource} :
    false = true → source = .deterministic := nofun

/-- The candidates of one range, as one finding. -/
structure Group where
  start : Nat
  «end» : Nat
  finding : Finding
  replace : Bool
deriving DecidableEq, Repr

/-- A group which stays for review. -/
def Group.unresolved (group : Group) : Group :=
  { group with finding := { group.finding with resolved := false }, replace := false }

/-! ## Identifiers -/

/-- `fold_full_width_ascii`. -/
def foldFullWidthAscii (character : Char) : Char :=
  let code := character.toNat
  if code = 0x3000 then ' '
  else if 0xff01 ≤ code ∧ code ≤ 0xff5e then Char.ofNat (code - 0xfee0)
  else character

/-- `is_ignored_format_character`. -/
def isIgnoredFormatCharacter (character : Char) : Bool :=
  let code := character.toNat
  code == 0x00ad || code == 0x034f || code == 0x061c || code == 0x180e ||
    (0x200b ≤ code && code ≤ 0x200f) || (0x202a ≤ code && code ≤ 0x202e) ||
    (0x2060 ≤ code && code ≤ 0x2064) || (0x2066 ≤ code && code ≤ 0x206f) ||
    (0xfe00 ≤ code && code ≤ 0xfe0f) || code == 0xfeff

/-- `normalize_sensitive_text`. -/
def normalizeSensitiveText (input : Text) : Text :=
  (input.filter fun character => !isIgnoredFormatCharacter character).map foldFullWidthAscii

/-- The bytes which `opaque_hash` digests: every part behind its length. -/
def hashMaterial (parts : List Octets) : Octets :=
  parts.flatMap fun part => (littleEndian 8 part.length).reverse ++ part

/-- The bytes of a text. -/
def textBytes (text : Text) : Octets := utf8 (String.ofList text)

/-- What `finding_id` digests. -/
def findingMaterial (namespaceText : Text) (start stop : Nat) (kind : EntityType) (value : Text) :
    Octets :=
  hashMaterial [utf8 "privacy-text-finding-v1", textBytes namespaceText,
    utf8 (toString start ++ ":" ++ toString stop), utf8 (entityKind kind),
    textBytes (normalizeSensitiveText value)]

/-- `finding_id`, over `sha256_hex`. -/
def findingId (sha256Hex : Octets → String) (namespaceText : Text) (start stop : Nat)
    (kind : EntityType) (value : Text) : String :=
  "fnd_" ++ String.ofList
    ((sha256Hex (findingMaterial namespaceText start stop kind value)).toList.take 32)

/-! ## Grouping -/

/-- `is_known_ner_context`. -/
def isKnownNerContext (value : Text) : Bool :=
  let mark (character : Char) : Bool := ":：,，;；、(（)）".toList.contains character
  let value := Text.trimMatches (fun character => Text.isWhitespace character || mark character) value
  ["", "与", "及", "和", "或", "简称", "全称", "原告", "被告", "甲方", "乙方", "申请人", "被申请人",
    "联系人", "法定代表人"].any fun known => known.toList = value

/-- `local_ner_wrapper_is_safe`. -/
def localNerWrapperIsSafe (text : Text) (localStart localEnd aiStart aiEnd : Nat) : Bool :=
  match Text.slice text localStart aiStart, Text.slice text aiEnd localEnd with
  | some before, some after => isKnownNerContext before && isKnownNerContext after
  | _, _ => false

/-- A candidate of the model makes one of the local recognizer redundant. -/
def Candidate.makesRedundant (text : Text) (ai candidate : Candidate) : Bool :=
  ai.kind = candidate.kind &&
    ((ai.start ≤ candidate.start && candidate.end ≤ ai.end &&
        (ai.start < candidate.start || candidate.end < ai.end)) ||
      (candidate.start ≤ ai.start && ai.end ≤ candidate.end &&
        (candidate.start < ai.start || ai.end < candidate.end) &&
        localNerWrapperIsSafe text candidate.start candidate.end ai.start ai.end))

/-- `suppress_redundant_local_ner`. -/
def suppressRedundantLocalNer (text : Text) (candidates : List Candidate) : List Candidate :=
  let aiRanges := candidates.filter fun candidate => candidate.source = .ai
  candidates.filter fun candidate =>
    candidate.source ≠ .localNer || !aiRanges.any fun ai => ai.makesRedundant text candidate

/-- The order of ranges in the grouping pass. -/
def RangeLe (first second : Nat × Nat) : Prop :=
  first.1 < second.1 ∨ (first.1 = second.1 ∧ first.2 ≤ second.2)

instance : DecidableRel RangeLe := fun _ _ => inferInstanceAs (Decidable (_ ∨ _))

/-- The ranges of the candidates, each one once and in order. -/
def candidateRanges (candidates : List Candidate) : List (Nat × Nat) :=
  ((candidates.map fun candidate => (candidate.start, candidate.end)).dedup).insertionSort RangeLe

/-- Only the local recognizer reports the range, or only the model and without a kind: what a
reviewer may dismiss. -/
def dismissible (kind : EntityType) (sources : List CandidateSource) : Bool :=
  sources = [.localNer] || (sources = [.ai] && kind = .custom)

/-- The alias of a group: the only one of the dictionary, or the only one of all detectors. -/
def groupAlias (values : List Candidate) : Option Text :=
  let aliases := (values.map Candidate.alias).dedup
  let dictionaryAliases :=
    ((values.filter fun value => value.source = .dictionary).map Candidate.alias).dedup
  if dictionaryAliases.length = 1 then dictionaryAliases.head?
  else if dictionaryAliases = [] ∧ aliases.length = 1 then aliases.head?
  else none

/-- The evidence which replaces a group without a review. -/
def automaticEvidence (kind : EntityType) (values : List Candidate) : Bool :=
  let has (source : CandidateSource) : Bool := values.any fun value => value.source = source
  let hasAutomaticAi := values.any fun value => value.source = .ai && value.automaticAllowed
  let deterministic := values.any Candidate.deterministic
  let deterministicAutomatic :=
    (values.filter Candidate.deterministic).all Candidate.automaticAllowed
  has .dictionary || (deterministic && deterministicAutomatic) ||
    (!deterministic && has .localNer && (has .cloud || hasAutomaticAi)) ||
    (!deterministic && hasAutomaticAi && kind ≠ .custom)

section Groups

variable (sha256Hex : Octets → String) (text namespaceText : Text)

/-- The group of a range with the candidates which report it. -/
def candidateGroup (dismissedIds : List String) (ambiguousOrganizations : List Text)
    (range : Nat × Nat) (values : List Candidate) : Except TextError Group := do
  let value ← presentOr (Text.slice text range.1 range.2) .analysisFailed
  let kinds := EntityType.all.filter fun kind => values.any fun value => value.kind = kind
  let sources := CandidateSource.all.filter fun source => values.any fun value =>
    value.source = source
  let kind ← presentOr kinds.head? .analysisFailed
  let id := findingId sha256Hex namespaceText range.1 range.2 kind value
  let dismissed := dismissedIds.contains id && dismissible kind sources
  let «alias» := groupAlias values
  let ambiguous := kind = .organizationName && ambiguousOrganizations.contains value
  let automatic := !ambiguous && kinds.length = 1 && «alias».isSome && automaticEvidence kind values
  pure {
    start := range.1
    «end» := range.2
    finding := {
      id := id
      text := value
      kind := entityKind kind
      «alias» := «alias»
      source := String.intercalate "+" (sources.map CandidateSource.name)
      resolved := automatic || dismissed
      dismissed := dismissed }
    replace := automatic }

/-- The groups of all candidates, by their ranges. -/
def candidateGroups (candidates : List Candidate) (dismissedIds : List String)
    (ambiguousOrganizations : List Text) : Except TextError (List Group) :=
  (candidateRanges candidates).mapM fun range =>
    candidateGroup sha256Hex text namespaceText dismissedIds ambiguousOrganizations range
      (candidates.filter fun candidate => (candidate.start, candidate.end) = range)

end Groups

/-! ## Repeated names -/

/-- The labels of the parties in a text, and what they stand for. -/
def partyLabels : List (String × String) :=
  [("被申请人", "respondent"), ("被上诉人", "appellee"), ("第三人", "third_party"),
    ("申请人", "applicant"), ("上诉人", "appellant"), ("委托人", "principal"), ("受托人", "agent"),
    ("原告", "plaintiff"), ("被告", "defendant"), ("甲方", "party_a"), ("乙方", "party_b"),
    ("丙方", "party_c")]

/-- `str::rfind`: the byte position of the last occurrence. -/
def rfind (needle : Text) : Text → Option Nat
  | [] => if needle = [] then some 0 else none
  | character :: rest =>
      match rfind needle rest with
      | some position => some (position + character.utf8Size)
      | none => if needle.isPrefixOf (character :: rest) then some 0 else none

/-- The later of two labels, the longer one at the same position. -/
def laterLabel (first second : Nat × String × String) : Nat × String × String :=
  if first.1 < second.1 ∨ (first.1 = second.1 ∧ first.2.1.utf8ByteSize ≤ second.2.1.utf8ByteSize)
  then second else first

/-- `person_party_context`: the last label before a name in its sentence. -/
def personPartyContext (text : Text) (nameStart : Nat) : Option String := do
  let beforeName ← Text.slice text 0 nameStart
  let segment := (beforeName.reverse.takeWhile fun character =>
    !("\n。；;".toList.contains character)).reverse
  let found := partyLabels.filterMap fun (label, identity) =>
    (rfind label.toList segment).map fun offset => (offset, label, identity)
  match found with
  | [] => none
  | first :: rest => some (rest.foldl laterLabel first).2.2

/-- `same_person_name_has_explicit_identity_ambiguity`. -/
def samePersonNameHasExplicitIdentityAmbiguity (text name : Text) : Bool :=
  let mentions (marker : String) : Bool := Text.contains text marker.toList
  let pairedNameMarker := ["两位", "两名", "两个", "多位", "多名"].any fun count =>
    Text.contains text (count.toList ++ "姓名均为".toList ++ name)
  let anotherOccurrence := ["另一位", "另一名", "另一个"].any fun another =>
    Text.contains text (another.toList ++ name)
  let explicitIdentityConflict :=
    ["身份不同", "不同身份", "身份不一致", "非同一人", "不是同一人", "并非同一人"].any mentions
  name ≠ [] && (pairedNameMarker || anotherOccurrence || (mentions "同名" && explicitIdentityConflict))

/-- The detectors of a finding. -/
def Finding.sourceNames (finding : Finding) : List (List Char) := finding.source.toList.splitOn '+'

/-- An occurrence of a person name which counts as a repetition. -/
def Group.countsAsPerson (group : Group) : Bool :=
  group.finding.kind = entityKind .personName && !group.finding.dismissed &&
    !group.finding.sourceNames.contains "dictionary".toList &&
    (group.finding.sourceNames.contains "ai".toList ||
      group.finding.sourceNames.contains "local_ner".toList)

/-- A name occurs several times, for different parties or with words which say so. -/
def nameConflict (text : Text) (groups : List Group) (name : Text) : Bool :=
  let occurrences := groups.filter fun group => group.countsAsPerson && group.finding.text = name
  let contexts := (occurrences.filterMap fun group => personPartyContext text group.start).dedup
  1 < occurrences.length &&
    (2 ≤ contexts.length || samePersonNameHasExplicitIdentityAmbiguity text name)

/-- `mark_conflicting_repeated_people`. Every occurrence belongs to one name, so the order of the
names does not matter. -/
def markConflictingRepeatedPeople (text : Text) (groups : List Group) : List Group :=
  groups.map fun group =>
    if group.countsAsPerson && nameConflict text groups group.finding.text then group.unresolved
    else group

/-! ## Overlapping replacements -/

/-- Two replacements of a component overlap. -/
def conflictingReplacements : List Group → Bool
  | [] => false
  | left :: rest =>
      (left.replace && rest.any fun right =>
        right.replace && right.start < left.end && left.start < right.end) ||
        conflictingReplacements rest

/-- A component in which two replacements overlap stays for review. -/
def settleComponent (component : List Group) : List Group :=
  if 1 < component.length ∧ conflictingReplacements component = true then
    component.map fun group => if group.finding.dismissed then group else group.unresolved
  else component

/-- `resolve_conflicting_replacement_overlaps`. -/
def resolveConflictingReplacementOverlaps (groups : List Group) : List Group :=
  (spans Group.start Group.end groups).flatMap settleComponent

end LawyerAssistance.PrivacyText

import LawyerAssistance.Privacy.Codecs
import Mathlib.Data.Fintype.Pi
import Mathlib.Tactic.SplitIfs

/-!
# Domain types of the privacy pipeline

Checked texts and the enumerations which more than one record uses, with the names under which
they are serialized.
-/

namespace LawyerAssistance.Privacy

/-! ## Checked texts -/

/-- A digit of lower case hexadecimal. -/
def isLowerHex (character : Char) : Bool :=
  character.isDigit || ('a' ≤ character && character ≤ 'f')

/-- `valid_lower_hex`. -/
def validLowerHex (value : Text) (length : Nat) : Bool :=
  Text.byteLength value == length && value.all isLowerHex

/-- An opaque identifier: what it begins with and 32 digits. -/
def validOpaqueId (start value : Text) : Bool :=
  match start.isPrefixOf? value with
  | some suffix => validLowerHex suffix 32
  | none => false

/-- `opaque_id!`. -/
abbrev OpaqueId (start : Text) := {value : Text // validOpaqueId start value = true}

/-- `CaseId`. -/
abbrev CaseId := OpaqueId "case_".toList

/-- `Sha256Hex`. -/
abbrev Sha256Hex := {value : Text // validLowerHex value 64 = true}

/-- The codec of opaque identifiers. -/
def OpaqueId.codec (start : Text) : Codec (OpaqueId start) :=
  Codec.text.refined fun value => validOpaqueId start value = true

/-- The codec of hashes. -/
def Sha256Hex.codec : Codec Sha256Hex := Codec.text.refined fun value => validLowerHex value 64 = true

/-- `validate_safe_strings`. -/
def validateSafeStrings (values : List Text) : Except VNextSchemaError Unit :=
  values.forM fun value => do
    refuseIf (value = []) .invalidSchema
    rejectControlChars value

/-- Digits are not control characters. -/
theorem isControl_of_isLowerHex {character : Char} (digit : isLowerHex character = true) :
    Text.isControl character = false := by
  have range : 0x30 ≤ character.toNat ∧ character.toNat ≤ 0x66 := by
    rw [isLowerHex, Bool.or_eq_true, Char.isDigit, Bool.and_eq_true, Bool.and_eq_true,
      decide_eq_true_eq, decide_eq_true_eq, decide_eq_true_eq, decide_eq_true_eq] at digit
    obtain ⟨above, below⟩ | ⟨above, below⟩ := digit
    · exact ⟨above, Nat.le_trans below (by decide)⟩
    · exact ⟨Nat.le_trans (by decide) (Char.le_def.mp above), Char.le_def.mp below⟩
  rw [Text.isControl, Bool.or_eq_false_iff, Bool.and_eq_false_iff, decide_eq_false_iff_not,
    decide_eq_false_iff_not]
  omega

theorem printable_of_validLowerHex {value : Text} {length : Nat}
    (valid : validLowerHex value length = true) : value.any Text.isControl = false := by
  rw [validLowerHex, Bool.and_eq_true, List.all_eq_true] at valid
  rw [List.any_eq_false]
  intro character among
  rw [isControl_of_isLowerHex (valid.2 character among)]
  exact Bool.false_ne_true

/-- An identifier is printable when what it begins with is. -/
theorem printable_of_validOpaqueId {start value : Text} (plain : start.any Text.isControl = false)
    (valid : validOpaqueId start value = true) : value.any Text.isControl = false := by
  rw [validOpaqueId] at valid
  split at valid
  next suffix found =>
    obtain rfl := List.isPrefixOf?_eq_some_iff_append_eq.mp found
    rw [List.any_append, plain, printable_of_validLowerHex valid]
    rfl
  next => cases valid

/-! ## Numbers -/

/-- `u32::try_from`. -/
def toUInt32 (value : Nat) : Option UInt32 :=
  if value < 2 ^ 32 then some (UInt32.ofNat value) else none

/-- `u32::saturating_add`, of one. -/
def saturatingNext (value : UInt32) : UInt32 :=
  if value = 0xFFFFFFFF then value else value + 1

/-- `u64::saturating_add`, of one. -/
def saturatingNext64 (value : UInt64) : UInt64 :=
  if value = 0xFFFFFFFFFFFFFFFF then value else value + 1

/-- A number which is counted up to its bound is not zero. -/
theorem saturatingNext64_ne_zero (value : UInt64) : saturatingNext64 value ≠ 0 := by
  rw [saturatingNext64]
  split_ifs with last
  · rw [last]
    decide
  · intro zero
    refine last (UInt64.toNat_inj.mp ?_)
    have wrapped := congrArg UInt64.toNat zero
    rw [UInt64.toNat_add] at wrapped
    have bound := value.toNat_lt
    simp only [UInt64.reduceToNat] at wrapped ⊢
    omega

/-- `ConfidencePpm`. -/
abbrev ConfidencePpm := {value : UInt32 // value ≤ 1000000}

/-! ## Enumerations -/

/-- `EntityType`. -/
inductive EntityType where
  | personName
  | organizationName
  | caseNumber
  | identityNumber
  | passportNumber
  | phoneNumber
  | landlineNumber
  | bankAccount
  | emailAddress
  | address
  | organizationCode
  | businessLicenseNumber
  | vehiclePlate
  | ipAddress
  | socialAccount
  | paymentAccount
  | accountName
  | contractNumber
  | trackingNumber
  | propertyCertificateNumber
  | custom
  deriving DecidableEq

/-- The variants of `EntityType`. -/
def EntityType.variants : Variants EntityType where
  name
    | .personName => "person_name".toList
    | .organizationName => "organization_name".toList
    | .caseNumber => "case_number".toList
    | .identityNumber => "identity_number".toList
    | .passportNumber => "passport_number".toList
    | .phoneNumber => "phone_number".toList
    | .landlineNumber => "landline_number".toList
    | .bankAccount => "bank_account".toList
    | .emailAddress => "email_address".toList
    | .address => "address".toList
    | .organizationCode => "organization_code".toList
    | .businessLicenseNumber => "business_license_number".toList
    | .vehiclePlate => "vehicle_plate".toList
    | .ipAddress => "ip_address".toList
    | .socialAccount => "social_account".toList
    | .paymentAccount => "payment_account".toList
    | .accountName => "account_name".toList
    | .contractNumber => "contract_number".toList
    | .trackingNumber => "tracking_number".toList
    | .propertyCertificateNumber => "property_certificate_number".toList
    | .custom => "custom".toList
  all :=
    [.personName, .organizationName, .caseNumber, .identityNumber, .passportNumber,
    .phoneNumber, .landlineNumber, .bankAccount, .emailAddress, .address, .organizationCode,
    .businessLicenseNumber, .vehiclePlate, .ipAddress, .socialAccount, .paymentAccount,
    .accountName, .contractNumber, .trackingNumber, .propertyCertificateNumber, .custom]
  complete value := by cases value <;> decide
  distinct := by decide

instance : Fintype EntityType :=
  Fintype.ofList EntityType.variants.all EntityType.variants.complete

/-- `AutoApprovalPolicyMode`. -/
inductive AutoApprovalPolicyMode where
  | strict
  | balanced
  | batch
  | shadow
  | disabled
  deriving DecidableEq

/-- `DocumentRoute`. -/
inductive DocumentRoute where
  | autoApprovalEligible
  | quickReviewRequired
  | fullReviewRequired
  | blocked
  deriving DecidableEq

/-- `RequestedApprovalRoute`. -/
inductive RequestedApprovalRoute where
  | human
  | shadowHuman
  | automatic
  deriving DecidableEq

end LawyerAssistance.Privacy

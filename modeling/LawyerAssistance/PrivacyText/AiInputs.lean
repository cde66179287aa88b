import LawyerAssistance.PrivacyText.Types
import LawyerAssistance.Std.Fallible
import LawyerAssistance.Std.Slices

/-!
# Findings of the model

`validate_ai_inputs` admits a list of findings into an analysis: every finding names its exact
place in the text, and the list and the texts are bounded.
-/

namespace LawyerAssistance.PrivacyText

/-- `MAX_AI_FINDINGS`. -/
def maxAiFindings : Nat := 8192

/-- `MAX_AI_FINDING_TEXT_BYTES`. -/
def maxAiFindingTextBytes : Nat := 16 * 1024

/-- `parse_entity_kind`. -/
def parseEntityKind (value : String) : Except TextError EntityType :=
  match value with
  | "person_name" | "person" => .ok .personName
  | "organization_name" | "organization" => .ok .organizationName
  | "case_number" => .ok .caseNumber
  | "identity_number" | "id_card" => .ok .identityNumber
  | "passport_number" => .ok .passportNumber
  | "phone_number" | "phone" => .ok .phoneNumber
  | "landline_number" => .ok .landlineNumber
  | "bank_account" => .ok .bankAccount
  | "email_address" | "email" => .ok .emailAddress
  | "address" => .ok .address
  | "organization_code" => .ok .organizationCode
  | "business_license_number" => .ok .businessLicenseNumber
  | "vehicle_plate" => .ok .vehiclePlate
  | "ip_address" => .ok .ipAddress
  | "social_account" => .ok .socialAccount
  | "payment_account" => .ok .paymentAccount
  | "account_name" => .ok .accountName
  | "contract_number" => .ok .contractNumber
  | "tracking_number" => .ok .trackingNumber
  | "property_certificate_number" => .ok .propertyCertificateNumber
  | "custom" => .ok .custom
  | _ => .error .invalidInput

/-- The checks of `validate_ai_inputs` on one finding. -/
def validateAiFinding (text : Text) (finding : AiFinding) : Except TextError Unit := do
  refuseIf (finding.text = [] ∨ maxAiFindingTextBytes < Text.byteLength finding.text ∨
      '\x00' ∈ finding.text ∨ finding.end ≤ finding.start ∨
      Text.byteLength text < finding.end ∨ Text.isCharBoundary text finding.start = false ∨
      Text.isCharBoundary text finding.end = false ∨
      Text.slice text finding.start finding.end ≠ some finding.text)
    .cloudFindingAbsent
  refuseIf (finding.confidencePpm.any (fun confidence => 1000000 < confidence) = true)
    .invalidInput
  let _ ← parseEntityKind finding.kind
  pure ()

/-- `validate_ai_inputs`. -/
def validateAiInputs (text : Text) (findings : List AiFinding) : Except TextError Unit := do
  refuseIf (maxAiFindings < findings.length) .tooManyFindings
  forM findings (validateAiFinding text)

/-- A finding at its exact place in a text, of a known kind. -/
structure Exact (text : Text) (finding : AiFinding) : Prop where
  nonempty : finding.text ≠ []
  place : Text.slice text finding.start finding.end = some finding.text
  kind : ∃ kind, parseEntityKind finding.kind = .ok kind
  confidence : ∀ confidence, finding.confidencePpm = some confidence → confidence ≤ 1000000

variable {text : Text} {finding : AiFinding} {findings : List AiFinding}

/-- A finding at its exact place is admitted when its text is within the bound. -/
theorem validateAiFinding_iff (plain : '\x00' ∉ text) (exact : Exact text finding) :
    validateAiFinding text finding = .ok () ↔
      Text.byteLength finding.text ≤ maxAiFindingTextBytes := by
  obtain ⟨kind, known⟩ := exact.kind
  have boundaries := Text.isCharBoundary_of_slice exact.place
  have inside := Text.stop_le_of_slice exact.place
  have ordered : finding.start < finding.end := by
    obtain ⟨_, _, _, _, stop⟩ := Text.slice_eq_some.mp exact.place
    have positive : 0 < Text.byteLength finding.text := Text.byteLength_pos exact.nonempty
    omega
  have clean : '\x00' ∉ finding.text := fun member =>
    plain (Text.mem_of_mem_slice exact.place member)
  have bounded : finding.confidencePpm.any (fun confidence => 1000000 < confidence) = false := by
    cases stated : finding.confidencePpm with
    | none => rfl
    | some confidence => simpa using exact.confidence confidence stated
  simp only [validateAiFinding, bind_eq_ok, refuseIf_eq_ok, known, exact.nonempty, clean,
    boundaries, exact.place, bounded, Nat.not_le.mpr ordered, Nat.not_lt.mpr inside]
  simp [pure, Except.pure]

/-- Findings at their exact places are admitted when the list and the texts are within the
bounds. -/
theorem validateAiInputs_iff (plain : '\x00' ∉ text)
    (exact : ∀ finding ∈ findings, Exact text finding) :
    validateAiInputs text findings = .ok () ↔ findings.length ≤ maxAiFindings ∧
      ∀ finding ∈ findings, Text.byteLength finding.text ≤ maxAiFindingTextBytes := by
  rw [validateAiInputs, refuseIf_bind_eq_ok, Nat.not_lt, forM_eq_ok]
  refine and_congr_right fun _ => forall₂_congr fun finding member => ?_
  exact validateAiFinding_iff plain (exact finding member)

end LawyerAssistance.PrivacyText

import Mathlib.Data.List.Basic

/-!
# Records of the text redaction crate

The data which `privacy-text` reads and returns. Document text is a list of
characters; every range is a pair of byte offsets into its UTF-8 encoding, as
in the source. Identifiers, digests, entity kinds and detector names are ASCII
texts and stay strings.
-/

namespace LawyerAssistance.PrivacyText

/-- Document text, a sequence of Unicode scalar values. -/
abbrev Text := List Char

theorem lawfulBEq_text : LawfulBEq Text := inferInstance

/-- Entity kinds in the order of their declaration, which is the order in which
the grouping pass compares them. -/
inductive EntityType where
  | personName
  | organizationName
  | caseNumber
  | identityNumber
  | passportNumber
  | phoneNumber
  | landlineNumber
  | bankAccount
  | emailAddress
  | address
  | organizationCode
  | businessLicenseNumber
  | vehiclePlate
  | ipAddress
  | socialAccount
  | paymentAccount
  | accountName
  | contractNumber
  | trackingNumber
  | propertyCertificateNumber
  | custom
deriving DecidableEq, Repr

/-- Stable error codes of the crate. -/
inductive TextError where
  | invalidInput
  | invalidNamespace
  | inputRejected
  | incompleteDocx
  | corruptDocx
  | unsafeDocx
  | invalidTextEncoding
  | unsupportedTextEncoding
  | unsupportedExportFormat
  | cloudFindingAbsent
  | analysisFailed
  | tooManyFindings
  | resultNeedsReview
  | residualRisk
  | exportVerificationFailed
  | evidenceVerificationFailed
deriving DecidableEq, Repr

/-- The text of an error code. -/
def TextError.code : TextError → String
  | .invalidInput => "privacy_text_invalid_input"
  | .invalidNamespace => "privacy_text_invalid_namespace"
  | .inputRejected => "privacy_text_input_rejected"
  | .incompleteDocx => "docx_extraction_incomplete"
  | .corruptDocx => "docx_corrupt_or_encrypted"
  | .unsafeDocx => "docx_unsafe_package"
  | .invalidTextEncoding => "privacy_text_invalid_text_encoding"
  | .unsupportedTextEncoding => "privacy_text_unsupported_text_encoding"
  | .unsupportedExportFormat => "privacy_text_unsupported_export_format"
  | .cloudFindingAbsent => "privacy_text_cloud_finding_absent"
  | .analysisFailed => "privacy_text_analysis_failed"
  | .tooManyFindings => "privacy_text_too_many_findings"
  | .resultNeedsReview => "privacy_text_result_needs_review"
  | .residualRisk => "privacy_text_residual_risk"
  | .exportVerificationFailed => "privacy_text_export_verification_failed"
  | .evidenceVerificationFailed => "privacy_text_evidence_verification_failed"

/-- A confirmed dictionary term with its optional replacement alias. -/
structure DictionaryEntry where
  text : Text
  kind : String
  «alias» : Option Text
deriving DecidableEq, Repr

/-- A candidate of an authorized cloud detector. -/
structure CloudFinding where
  text : Text
  kind : String
deriving DecidableEq, Repr

/-- An entity occurrence which the redaction model reported, with its byte range. -/
structure AiFinding where
  text : Text
  kind : String
  start : Nat
  «end» : Nat
  confidencePpm : Option Nat
deriving DecidableEq, Repr

/-- One sensitive match of an analysis. -/
structure Finding where
  id : String
  text : Text
  kind : String
  «alias» : Option Text
  source : String
  resolved : Bool
  dismissed : Bool
deriving DecidableEq, Repr

/-- The byte spans of one substitution, in the source and in the output. -/
structure Replacement where
  findingId : String
  sourceStart : Nat
  sourceEnd : Nat
  outputStart : Nat
  outputEnd : Nat
  «alias» : Text
deriving DecidableEq, Repr

/-- The analysis of one immutable source text. -/
structure Analysis where
  text : Text
  findings : List Finding
  aiFindings : Option (List AiFinding)
  replacements : List Replacement
  needsReview : Bool
  sourceSha256 : String
  outputSha256 : String
deriving DecidableEq, Repr

end LawyerAssistance.PrivacyText

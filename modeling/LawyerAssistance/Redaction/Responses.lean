import LawyerAssistance.PrivacyText.AiInputs
import LawyerAssistance.Storage.Derivation

/-!
# Answers of the redaction model

The model lists sensitive texts of a chunk. Each item is placed by its occurrence, by its only
match, by the text around it, or by a range, and accepted when the chunk has its text there.
-/

namespace LawyerAssistance.Redaction

open PrivacyText Storage

/-- `MAX_MODEL_RESPONSE_BYTES`. -/
def maxModelResponseBytes : Nat := 4 * 1024 * 1024

/-- `MAX_FINDINGS`. -/
def maxFindings : Nat := 8192

/-- `MAX_CONTEXT_BYTES`. -/
def maxContextBytes : Nat := 1024

/-! ## Places -/

section Places

variable (source needle : List Char) (before after : Option (List Char))

/-- `context_matches`. -/
def contextMatches (start stop : Nat) : Bool :=
  before.all (fun context =>
    decide (Text.byteLength context ≤ start) &&
      decide (Text.slice source (start - Text.byteLength context) start = some context)) &&
  after.all fun context =>
    decide (Text.slice source stop (stop + Text.byteLength context) = some context)

/-- The ranges of the matches of a text. -/
def matchSpans : List (Nat × Nat) :=
  (Text.matchIndices needle 0 0 source).map fun start => (start, start + Text.byteLength needle)

/-- `occurrence_span_with_context`. -/
def occurrenceSpanWithContext (occurrence : Nat) : Option (Nat × Nat) :=
  (matchSpans source needle)[occurrence]?.filter fun span =>
    contextMatches source before after span.1 span.2

/-- `unique_occurrence_span_with_context`. -/
def uniqueOccurrenceSpanWithContext : Option (Nat × Nat) :=
  match matchSpans source needle with
  | [span] => if contextMatches source before after span.1 span.2 then some span else none
  | _ => none

/-- `context_disambiguated_span`. -/
def contextDisambiguatedSpan : Option (Nat × Nat) :=
  match (matchSpans source needle).filter fun span =>
      contextMatches source before after span.1 span.2 with
  | [span] => some span
  | _ => none

end Places

/-! ## Items -/

/-- `allowed_ai_kind`. -/
def allowedAiKind (kind : String) : Bool :=
  kind ∈ ["person_name", "organization_name", "organization", "address", "phone_number", "phone",
    "landline_number", "email_address", "email", "identity_number", "passport_number",
    "bank_account", "payment_account", "account_name", "case_number", "contract_number",
    "tracking_number", "property_certificate_number", "organization_code",
    "business_license_number", "vehicle_plate", "ip_address", "social_account", "custom"]

/-- The one error of the parser. -/
def responseInvalid {α : Type} : Except String α := .error "ai_response_invalid"

/-- `optional_context`. -/
def optionalContext (item : Json) (name : String) : Except String (Option (List Char)) :=
  match item.get? name with
  | none => .ok none
  | some value => do
      let context ← presentOr value.asStr "ai_response_invalid"
      refuseIf (maxContextBytes < Text.byteLength context.toList ∨ '\x00' ∈ context.toList)
        "ai_response_invalid"
      pure (some context.toList)

/-- A member which is missing, or a number. -/
def optionalNumber (item : Json) (name : String) : Except String (Option Nat) :=
  match item.get? name with
  | none => .ok none
  | some value => (presentOr value.asU64 "ai_response_invalid").map some

/-- The range of an item which has both of its ends. -/
def suppliedRange (item : Json) : Except String (Option (Nat × Nat)) :=
  match item.get? "start", item.get? "end" with
  | some start, some stop => do
      let start ← presentOr start.asU64 "ai_response_invalid"
      let stop ← presentOr stop.asU64 "ai_response_invalid"
      pure (some (start, stop))
  | _, _ => .ok none

/-- `parse_finding`. -/
def parseFinding (source : List Char) (item : Json) : Except String AiFinding := do
  refuseIf (item.isObject = false) "ai_response_invalid"
  let text ← presentOr (((item.get? "text").bind Json.asStr).filter fun text => text ≠ "")
    "ai_response_invalid"
  let kind ← presentOr (((item.get? "kind").bind Json.asStr).filter allowedAiKind)
    "ai_response_invalid"
  let contextBefore ← optionalContext item "context_before"
  let contextAfter ← optionalContext item "context_after"
  let occurrence ← optionalNumber item "occurrence"
  let range ← suppliedRange item
  let unique := uniqueOccurrenceSpanWithContext source text.toList contextBefore contextAfter
  let byContext := contextDisambiguatedSpan source text.toList contextBefore contextAfter
  let counted := occurrence.bind
    (occurrenceSpanWithContext source text.toList contextBefore contextAfter)
  let (start, stop) ← presentOr (counted.or (unique.or (byContext.or range)))
    "ai_response_invalid"
  let confidencePpm ← optionalNumber item "confidence_ppm"
  refuseIf (confidencePpm.any (fun confidence => 1000000 < confidence) = true)
    "ai_response_invalid"
  refuseIf (stop ≤ start ∨ Text.byteLength source < stop ∨
      Text.isCharBoundary source start = false ∨ Text.isCharBoundary source stop = false ∨
      Text.slice source start stop ≠ some text.toList ∨
      contextMatches source contextBefore contextAfter start stop = false)
    "ai_response_invalid"
  pure ⟨text.toList, kind, start, stop, confidencePpm⟩

/-! ## Responses -/

/-- `message_text`. -/
def messageText (message : Json) : Option (List Char) :=
  match ((message.get? "content").bind Json.asStr).or message.asStr with
  | some content => some content.toList
  | none => do
      let parts ← (message.get? "content").bind Json.asArray
      let text := parts.flatMap fun part =>
        (((part.get? "text").bind Json.asStr).map String.toList).getD []
      if text = [] then none else some text

/-- The JSON text of a response, without the fence around it. -/
def withoutFence (raw : List Char) : List Char :=
  let trimmed := Text.trim raw
  match ("```json".toList.isPrefixOf? trimmed).or ("```".toList.isPrefixOf? trimmed) with
  | some value => Text.trim (("```".toList.isSuffixOf? value).getD value)
  | none => trimmed

section Parser

variable (parseJson : List Char → Option Json)

/-- `parse_findings_response`. The parameter is `serde_json::from_str`. -/
def parseFindingsResponse (message : Json) (source : List Char) :
    Except String (List AiFinding) := do
  let raw ← presentOr (messageText message) "ai_response_invalid"
  refuseIf (maxModelResponseBytes < Text.byteLength raw ∨ '\x00' ∈ raw) "ai_response_invalid"
  let value ← presentOr (parseJson (withoutFence raw)) "ai_response_invalid"
  let items ← presentOr ((value.get? "findings").bind Json.asArray) "ai_response_invalid"
  refuseIf (maxFindings < items.length) "ai_response_invalid"
  items.mapM (parseFinding source)

end Parser

/-! ## What is accepted -/

section Accepted

variable {source : List Char}

/-- Every kind which the parser allows is a kind of an entity. -/
theorem parseEntityKind_of_allowed {kind : String} (allowed : allowedAiKind kind = true) :
    ∃ entity, parseEntityKind kind = .ok entity := by
  rw [allowedAiKind, decide_eq_true_eq] at allowed
  have all : ∀ kind ∈ ["person_name", "organization_name", "organization", "address",
      "phone_number", "phone", "landline_number", "email_address", "email", "identity_number",
      "passport_number", "bank_account", "payment_account", "account_name", "case_number",
      "contract_number", "tracking_number", "property_certificate_number", "organization_code",
      "business_license_number", "vehicle_plate", "ip_address", "social_account", "custom"],
      (parseEntityKind kind).toOption.isSome = true := by
    decide
  have known := all kind allowed
  cases entity : parseEntityKind kind with
  | error code =>
      rw [entity] at known
      cases known
  | ok found => exact ⟨found, rfl⟩

/-- An item which is accepted stands at its place in the chunk. -/
theorem parseFinding_exact {item : Json} {finding : AiFinding}
    (parsed : parseFinding source item = .ok finding) : Exact source finding := by
  obtain ⟨_, parsed⟩ := refuseIf_bind_eq_ok.mp parsed
  obtain ⟨text, named, parsed⟩ := bind_eq_ok.mp parsed
  obtain ⟨kind, allowed, parsed⟩ := bind_eq_ok.mp parsed
  obtain ⟨contextBefore, _, parsed⟩ := bind_eq_ok.mp parsed
  obtain ⟨contextAfter, _, parsed⟩ := bind_eq_ok.mp parsed
  obtain ⟨occurrence, _, parsed⟩ := bind_eq_ok.mp parsed
  obtain ⟨range, _, parsed⟩ := bind_eq_ok.mp parsed
  obtain ⟨⟨start, stop⟩, _, parsed⟩ := bind_eq_ok.mp parsed
  obtain ⟨confidencePpm, _, parsed⟩ := bind_eq_ok.mp parsed
  obtain ⟨confidence, parsed⟩ := refuseIf_bind_eq_ok.mp parsed
  obtain ⟨placed, parsed⟩ := refuseIf_bind_eq_ok.mp parsed
  cases parsed
  simp only [not_or, not_not] at placed
  obtain ⟨_, nonempty⟩ := Option.filter_eq_some_iff.mp (presentOr_eq_ok.mp named)
  obtain ⟨_, allowed⟩ := Option.filter_eq_some_iff.mp (presentOr_eq_ok.mp allowed)
  refine ⟨?_, placed.2.2.2.2.1, parseEntityKind_of_allowed allowed, fun stated same => ?_⟩
  · simpa using nonempty
  · rw [show confidencePpm = some stated from same] at confidence
    simpa using confidence

/-- A response which is accepted lists texts at their places in the chunk. -/
theorem parseFindingsResponse_exact {parseJson : List Char → Option Json} {message : Json}
    {findings : List AiFinding}
    (parsed : parseFindingsResponse parseJson message source = .ok findings) :
    ∀ finding ∈ findings, Exact source finding := by
  obtain ⟨_, _, parsed⟩ := bind_eq_ok.mp parsed
  obtain ⟨_, parsed⟩ := refuseIf_bind_eq_ok.mp parsed
  obtain ⟨_, _, parsed⟩ := bind_eq_ok.mp parsed
  obtain ⟨items, _, parsed⟩ := bind_eq_ok.mp parsed
  obtain ⟨_, parsed⟩ := refuseIf_bind_eq_ok.mp parsed
  intro finding member
  obtain ⟨item, _, placed⟩ := exists_of_forall₂_right (mapM_eq_ok parsed) member
  exact parseFinding_exact placed

end Accepted

end LawyerAssistance.Redaction

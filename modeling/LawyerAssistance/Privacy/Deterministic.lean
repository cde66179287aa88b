import LawyerAssistance.Privacy.FindingEngine
import LawyerAssistance.Std.Slices

/-!
# Deterministic detection

`deterministic.rs`: rules match values in a text, a scan from the left selects matches which are
disjoint, and the values of the selected matches are stored before they become candidates. The
matches of a pattern and the store are parameters.
-/

namespace LawyerAssistance.Privacy

/-- `DeterministicDetectorError`. -/
inductive DeterministicDetectorError where
  | invalidContext
  | patternUnavailable
  | matchLimitExceeded
  | privateValueStoreFailed
  | invalidPrivateBinding
  deriving DecidableEq

/-- `MAX_DETERMINISTIC_MATCHES_PER_BLOCK`. -/
def maxDeterministicMatchesPerBlock : Nat := 20000

/-! ## Validators -/

/-- `to_ascii_uppercase`. -/
def toAsciiUppercase (value : Text) : Text :=
  value.map fun character =>
    if 'a' ≤ character ∧ character ≤ 'z' then Char.ofNat (character.toNat - 32) else character

/-- `ascii_digits`. -/
def asciiDigits (value : Text) : Text := value.filter Char.isDigit

/-- The value of a digit. -/
def digitValue (digit : Char) : Nat := digit.toNat - '0'.toNat

/-- The number which digits denote. -/
def digitsValue (digits : Text) : Nat :=
  digits.foldl (fun value digit => 10 * value + digitValue digit) 0

/-- `valid_date`. -/
def validDate (year month day : Nat) : Bool :=
  let leap := year % 400 = 0 ∨ year % 4 = 0 ∧ year % 100 ≠ 0
  let limit := if month = 2 then if leap then 29 else 28
    else if month = 4 ∨ month = 6 ∨ month = 9 ∨ month = 11 then 30 else 31
  decide (1900 ≤ year ∧ year ≤ 2200 ∧ 1 ≤ month ∧ month ≤ 12 ∧ day ≠ 0 ∧ day ≤ limit)

/-- The sum of numbers with weights. -/
def weightedSum (values weights : List Nat) : Nat :=
  (List.zipWith (fun value weight => value * weight) values weights).sum

/-- `validate_china_identity`. -/
def validateChinaIdentity (value : Text) : Bool :=
  let normalized := toAsciiUppercase (Text.trim value)
  let digits := normalized.take 17
  let part := fun start stop : Nat => digitsValue ((normalized.take stop).drop start)
  let sum := weightedSum (digits.map digitValue) [7, 9, 10, 5, 8, 4, 2, 1, 6, 3, 7, 9, 10, 5, 8, 4, 2]
  decide (Text.byteLength normalized = 18) && digits.all Char.isDigit &&
    validDate (part 6 10) (part 10 12) (part 12 14) &&
    "10X98765432".toList[sum % 11]? == normalized[17]?

/-- The digits of a card with every second one doubled, from the end. -/
def luhnDigits (digits : Text) : List Nat :=
  digits.mapIdx fun index digit =>
    if index % 2 = digits.length % 2 then
      if 9 < 2 * digitValue digit then 2 * digitValue digit - 9 else 2 * digitValue digit
    else digitValue digit

/-- `validate_luhn`. -/
def validateLuhn (value : Text) : Bool :=
  decide (12 ≤ Text.byteLength value ∧ Text.byteLength value ≤ 19) && value.all Char.isDigit &&
    decide ((luhnDigits value).sum % 10 = 0)

/-- The characters of a credit code, by value. -/
def creditAlphabet : Text := "0123456789ABCDEFGHJKLMNPQRTUWXY".toList

/-- `validate_unified_social_credit`. -/
def validateUnifiedSocialCredit (value : Text) : Bool :=
  let normalized := toAsciiUppercase (Text.trim value)
  let body := normalized.take 17
  let sum := weightedSum (body.map creditAlphabet.idxOf)
    [1, 3, 9, 27, 19, 26, 16, 17, 20, 29, 25, 13, 8, 24, 10, 30, 28]
  decide (Text.byteLength normalized = 18) && body.all (creditAlphabet.contains ·) &&
    creditAlphabet[(31 - sum % 31) % 31]? == normalized[17]?

/-- `validate_vehicle_plate`. -/
def validateVehiclePlate (value : Text) : Bool :=
  let compact := value.filter fun character => character ≠ '\u00b7' ∧ character ≠ ' '
  decide (compact.length = 7 ∨ compact.length = 8) &&
    compact.head?.any (fun character => decide ('\u4e00' ≤ character ∧ character ≤ '\u9fff')) &&
    (compact.drop 2).all fun character => character.isDigit ||
      (character.isUpper && decide (character ≠ 'I' ∧ character ≠ 'O'))

/-- `str::parse`, to a byte, succeeds. -/
def parsesAsByte (value : Text) : Bool :=
  let digits := if value.head? = some '+' then value.tail else value
  decide (digits ≠ []) && digits.all Char.isDigit && decide (digitsValue digits ≤ 255)

/-- `validate_ipv4`. -/
def validateIpv4 (value : Text) : Bool :=
  let octets := value.splitOn '.'
  decide (octets.length = 4) && octets.all fun octet =>
    decide (octet ≠ []) && (octet == ['0'] || octet.head? != some '0') && parsesAsByte octet

/-- `Validator`. -/
inductive Validator where
  | none
  | chinaIdentity
  | mobile
  | landline
  | bankCard
  | email
  | caseNumber
  | unifiedSocialCredit
  | legacyBusinessLicense
  | vehiclePlate
  | ipv4
  | passport
  deriving DecidableEq

/-- `validate_value`. -/
def validateValue (validator : Validator) (value : Text) : Bool :=
  match validator with
  | .none => true
  | .chinaIdentity => validateChinaIdentity value
  | .mobile =>
      decide ((asciiDigits value).length = 11) && (asciiDigits value).head? == some '1' &&
        (asciiDigits value)[1]?.any fun digit => decide ('3' ≤ digit ∧ digit ≤ '9')
  | .landline =>
      decide (10 ≤ (asciiDigits value).length ∧ (asciiDigits value).length ≤ 17) &&
        (asciiDigits value).head? == some '0'
  | .bankCard => validateLuhn (asciiDigits value)
  | .email => decide (Text.byteLength value ≤ 254 ∧ value.count '@' = 1)
  | .caseNumber => value.getLast? == some '\u53f7' && value.any Char.isDigit
  | .unifiedSocialCredit => validateUnifiedSocialCredit value
  | .legacyBusinessLicense =>
      decide ((asciiDigits value).length = 13 ∨ (asciiDigits value).length = 15)
  | .vehiclePlate => validateVehiclePlate value
  | .ipv4 => validateIpv4 value
  | .passport => decide (8 ≤ Text.byteLength value ∧ Text.byteLength value ≤ 10)

/-! ## Rules -/

/-- `Rule`. -/
structure Rule where
  entityType : EntityType
  source : Text
  pattern : Text
  confidencePpm : UInt32
  validator : Validator
  replacementVerified : Bool

/-- `RULES`. -/
def rules : List Rule := [
  { entityType := .identityNumber
    source := "cn_identity_checksum".toList
    pattern := r"(?i)(?:^|[^0-9A-Z])(?P<value>[1-9][0-9]{16}[0-9X])(?:$|[^0-9A-".toList ++
      r"Z])".toList
    confidencePpm := 1000000
    validator := .chinaIdentity
    replacementVerified := true },
  { entityType := .phoneNumber
    source := "cn_mobile".toList
    pattern := r"(?:^|[^0-9])(?P<value>1[3-9][0-9](?:[ -]?[0-9]){8})(?:$|[^0-9]".toList ++
      r")".toList
    confidencePpm := 995000
    validator := .mobile
    replacementVerified := true },
  { entityType := .landlineNumber
    source := "cn_landline".toList
    pattern := r"(?:^|[^0-9])(?P<value>0[0-9]{2,3}[ -]?[0-9]{7,8}(?:[ -](?:\x".toList ++
      r"{8f6c}|ext\.?)?[0-9]{1,6})?)(?:$|[^0-9])".toList
    confidencePpm := 990000
    validator := .landline
    replacementVerified := true },
  { entityType := .bankAccount
    source := "bank_card_luhn".toList
    pattern := r"(?:^|[^0-9])(?P<value>[1-9][0-9](?:[ -]?[0-9]){10,18})(?:$|[^0".toList ++
      r"-9])".toList
    confidencePpm := 995000
    validator := .bankCard
    replacementVerified := true },
  { entityType := .emailAddress
    source := "email_rfc_subset".toList
    pattern := r"(?i)(?:^|[^A-Z0-9._%+-])(?P<value>[A-Z0-9._%+-]{1,64}@[A-Z0-9.".toList ++
      r"-]{1,190}\.[A-Z]{2,24})(?:$|[^A-Z0-9._%+-])".toList
    confidencePpm := 995000
    validator := .email
    replacementVerified := true },
  { entityType := .caseNumber
    source := "cn_court_case_number".toList
    pattern := r"(?P<value>[\x{ff08}(][12][0-9]{3}[\x{ff09})][\x{4e00}-\x{9fff}".toList ++
      r"A-Za-z0-9]{1,24}(?:\x{6c11}|\x{5211}|\x{884c}|\x{6267}|\x".toList ++
      r"{8d54}|\x{77e5}|\x{7834}|\x{6e05}|\x{975e}|\x{53f8}|\x{76d1}|".toList ++
      r"\x{7533}|\x{518d}|\x{6297}|\x{7ec8}|\x{521d})[\x{4e00}-\x".toList ++
      r"{9fff}A-Za-z0-9]{0,12}[0-9]{1,12}\x{53f7})".toList
    confidencePpm := 995000
    validator := .caseNumber
    replacementVerified := true },
  { entityType := .organizationCode
    source := "unified_social_credit_checksum".toList
    pattern := r"(?i)(?:^|[^0-9A-Z])(?P<value>[159Y][1239][0-9ABCDEFGHJKLMNPQRT".toList ++
      r"UWXY]{16})(?:$|[^0-9A-Z])".toList
    confidencePpm := 1000000
    validator := .unifiedSocialCredit
    replacementVerified := true },
  { entityType := .businessLicenseNumber
    source := "legacy_business_license".toList
    pattern := r"(?:\x{8425}\x{4e1a}\x{6267}\x{7167}(?:\x{6ce8}\x{518c}\x{53f7}".toList ++
      r"|\x{7f16}\x{53f7})?|\x{6ce8}\x{518c}\x{53f7})\s*[:\x{ff1a}]?\s".toList ++
      r"*(?P<value>[0-9]{13}|[0-9]{15})".toList
    confidencePpm := 980000
    validator := .legacyBusinessLicense
    replacementVerified := true },
  { entityType := .vehiclePlate
    source := "cn_vehicle_plate".toList
    pattern := r"(?P<value>[\x{4e00}-\x{9fff}][A-HJ-NP-Z][\x{00b7} ]?[A-HJ-NP-Z".toList ++
      r"0-9]{5,6})".toList
    confidencePpm := 985000
    validator := .vehiclePlate
    replacementVerified := true },
  { entityType := .ipAddress
    source := "ipv4_octets".toList
    pattern := r"(?:^|[^0-9.])(?P<value>[0-9]{1,3}(?:\.[0-9]{1,3}){3})(?:$|[^0-".toList ++
      r"9.])".toList
    confidencePpm := 990000
    validator := .ipv4
    replacementVerified := true },
  { entityType := .passportNumber
    source := "cn_passport".toList
    pattern := r"(?i)(?:(?:\x{62a4}\x{7167}(?:\x{53f7}\x{7801}|\x{53f7})?|passp".toList ++
      r"ort)\s*[:\x{ff1a}]?\s*)?(?P<value>[EGDSP][0-9]{7,8}|[A-Z]{2}[0".toList ++
      r"-9]{7})".toList
    confidencePpm := 985000
    validator := .passport
    replacementVerified := true },
  { entityType := .address
    source := "labelled_address".toList
    pattern := r"(?:\x{4f4f}\x{5740}|\x{4f4f}\x{6240}\x{5730}|\x{6237}\x{7c4d}".toList ++
      r"\x{5730}|\x{8054}\x{7cfb}\x{5730}\x{5740}|\x{9001}\x{8fbe}\x".toList ++
      r"{5730}\x{5740}|\x{6ce8}\x{518c}\x{5730}\x{5740}|\x{73b0}\x".toList ++
      r"{4f4f}\x{5740})\s*[:\x{ff1a}]?\s*(?P<value>[\x{4e00}-\x{9fff}A".toList ++
      r"-Za-z0-9()\x{ff08}\x{ff09}\x{00b7}\-]{6,100}(?:\x{7701}|\x".toList ++
      r"{5e02}|\x{533a}|\x{53bf}|\x{65d7}|\x{9547}|\x{4e61}|\x{8857}\x".toList ++
      r"{9053}|\x{8def}|\x{8857}|\x{5df7}|\x{5f04}|\x{6751}|\x{7ec4}|".toList ++
      r"\x{53f7}|\x{5ba4}))".toList
    confidencePpm := 940000
    validator := .none
    replacementVerified := false },
  { entityType := .socialAccount
    source := "labelled_social_account".toList
    pattern := r"(?:\x{5fae}\x{4fe1}\x{53f7}|QQ\x{53f7}?|\x{5fae}\x{535a}\x".toList ++
      r"{8d26}\x{53f7}|\x{6296}\x{97f3}\x{53f7}|\x{793e}\x{4ea4}\x".toList ++
      r"{8d26}\x{53f7})\s*[:\x{ff1a}]?\s*(?P<value>[A-Za-z0-9_.\-]".toList ++
      r"{5,64})".toList
    confidencePpm := 970000
    validator := .none
    replacementVerified := true },
  { entityType := .paymentAccount
    source := "labelled_payment_account".toList
    pattern := r"(?:\x{652f}\x{4ed8}\x{5b9d}(?:\x{8d26}\x{53f7})?|\x{4ed8}\x".toList ++
      r"{6b3e}\x{8d26}\x{53f7}|\x{6536}\x{6b3e}\x{8d26}\x{53f7}|\x".toList ++
      r"{652f}\x{4ed8}\x{8d26}\x{53f7})\s*[:\x{ff1a}]?\s*(?P<value>[A-".toList ++
      r"Za-z0-9@._+\-]{5,96})".toList
    confidencePpm := 970000
    validator := .none
    replacementVerified := true },
  { entityType := .accountName
    source := "labelled_account_name".toList
    pattern := r"(?:\x{8d26}\x{6237}\x{540d}|\x{5f00}\x{6237}\x{540d}|\x{6237}".toList ++
      r"\x{540d}|\x{8d26}\x{53f7}\x{540d}\x{79f0})\s*[:\x{ff1a}]?\s*(?".toList ++
      r"P<value>[\x{4e00}-\x{9fff}A-Za-z0-9\x{00b7}()\x{ff08}\x{ff09}]".toList ++
      r"{2,80})".toList
    confidencePpm := 950000
    validator := .none
    replacementVerified := false },
  { entityType := .contractNumber
    source := "labelled_contract_number".toList
    pattern := r"(?:\x{5408}\x{540c}|\x{534f}\x{8bae})(?:\x{7f16}\x{53f7}|\x".toList ++
      r"{53f7})\s*[:\x{ff1a}]?\s*(?P<value>[A-Za-z0-9\x{4e00}-\x{9fff}".toList ++
      r"][A-Za-z0-9\x{4e00}-\x{9fff}/_.\-]{3,63})".toList
    confidencePpm := 975000
    validator := .none
    replacementVerified := true },
  { entityType := .trackingNumber
    source := "labelled_tracking_number".toList
    pattern := r"(?:\x{5feb}\x{9012}(?:\x{5355}\x{53f7}|\x{7f16}\x{53f7})|\x".toList ++
      r"{8fd0}\x{5355}\x{53f7}|\x{7269}\x{6d41}\x{5355}\x{53f7})\s*[:".toList ++
      r"\x{ff1a}]?\s*(?P<value>[A-Za-z0-9]{8,40})".toList
    confidencePpm := 975000
    validator := .none
    replacementVerified := true },
  { entityType := .propertyCertificateNumber
    source := "labelled_property_certificate".toList
    pattern := r"(?:\x{4e0d}\x{52a8}\x{4ea7}\x{6743}\x{8bc1}\x{53f7}|\x{623f}\x".toList ++
      r"{5c4b}\x{6240}\x{6709}\x{6743}\x{8bc1}\x{53f7}|\x{623f}\x".toList ++
      r"{5730}\x{4ea7}\x{6743}\x{8bc1}\x{53f7}|\x{623f}\x{4ea7}\x".toList ++
      r"{8bc1}\x{53f7})\s*[:\x{ff1a}]?\s*(?P<value>[\x{4e00}-\x{9fff}A".toList ++
      r"-Za-z0-9()\x{ff08}\x{ff09}\-]{5,80})".toList
    confidencePpm := 980000
    validator := .none
    replacementVerified := true }]

/-! ## Matches -/

/-- What a group of a pattern captures: where it begins, and its text. -/
structure Captured where
  start : Nat
  value : Text
  deriving DecidableEq

/-- The patterns of a regular expression engine: a pattern which it accepts has, for every text, the
captures of its group `value` in the order of its matches, where the group takes part. -/
def RegexEngine : Type := Text → Option (Text → List (Option Captured))

/-- `Match`. -/
structure Match where
  start : Nat
  stop : Nat
  entityType : EntityType
  source : Text
  confidencePpm : UInt32
  validationPassed : Bool
  replacementVerified : Bool
  deriving DecidableEq

/-- The order of matches, field by field. -/
def Match.rank (found : Match) : Nat ×ₗ Nat ×ₗ Nat ×ₗ Text ×ₗ Nat ×ₗ Bool ×ₗ Bool :=
  toLex (found.start, toLex (found.stop, toLex (found.entityType.rank, toLex (found.source,
    toLex (found.confidencePpm.toNat, toLex (found.validationPassed, found.replacementVerified))))))

theorem Match.rank_injective : Function.Injective Match.rank := by
  rintro ⟨start, stop, entity, source, confidence, passed, verified⟩
    ⟨start', stop', entity', source', confidence', passed', verified'⟩ same
  simp only [Match.rank, EmbeddingLike.apply_eq_iff_eq, Prod.mk.injEq, UInt32.toNat_inj] at same
  obtain ⟨rfl, rfl, entities, rfl, rfl, rfl, rfl⟩ := same
  obtain rfl := EntityType.rank_injective entities
  rfl

instance : LinearOrder Match := LinearOrder.lift' Match.rank Match.rank_injective

/-- The order of the selection: by start, the longer before, then by type. -/
def Match.turn (found : Match) : Nat ×ₗ Natᵒᵈ ×ₗ Nat :=
  toLex (found.start, toLex (OrderDual.toDual found.stop, found.entityType.rank))

/-- `is_placeholder`. -/
def isPlaceholder (value : Text) : Bool :=
  (value.head? == some '[' && value.getLast? == some ']') ||
    (value.head? == some '\u3010' && value.getLast? == some '\u3011')

/-- The match of what a rule captures. -/
def matchOf (rule : Rule) (captured : Captured) : Match where
  start := captured.start
  stop := captured.start + Text.byteLength captured.value
  entityType := rule.entityType
  source := rule.source
  confidencePpm := rule.confidencePpm
  validationPassed := validateValue rule.validator captured.value
  replacementVerified := rule.replacementVerified

/-- `BTreeSet::insert`. -/
def insertMatch (matched : List Match) (found : Match) : List Match :=
  if found ∈ matched then matched else found :: matched

/-- The body of the inner loop of `collect_matches`. -/
def visitCapture (rule : Rule) (matched : List Match) :
    Option Captured → Except DeterministicDetectorError (List Match)
  | none => .ok matched
  | some captured =>
      if captured.value = [] ∨ isPlaceholder captured.value = true then .ok matched
      else if maxDeterministicMatchesPerBlock ≤ matched.length then .error .matchLimitExceeded
      else if rule.validator = .bankCard ∧ validateValue rule.validator captured.value = false then
        .ok matched
      else .ok (insertMatch matched (matchOf rule captured))

/-- The body of the outer loop of `collect_matches`. -/
def visitRule (regex : RegexEngine) (text : Text) (matched : List Match) (rule : Rule) :
    Except DeterministicDetectorError (List Match) := do
  let captures ← presentOr (regex rule.pattern) .patternUnavailable
  (captures text).foldlM (visitCapture rule) matched

/-- The selection of `collect_matches`, with the match which was selected last. -/
def selectMatches : Option Match → List Match → List Match
  | _, [] => []
  | last, candidate :: rest =>
      if last.all fun previous => decide (previous.stop ≤ candidate.start) then
        candidate :: selectMatches (some candidate) rest
      else selectMatches last rest

/-- `collect_matches`. -/
def collectMatches (regex : RegexEngine) (text : Text) :
    Except DeterministicDetectorError (List Match) := do
  let matched ← rules.foldlM (visitRule regex text) []
  pure (selectMatches none (sortOn Match.turn (sortedSet matched)))

/-! ## Candidates -/

/-- `DetectionContextV1`. -/
structure DetectionContext where
  caseId : CaseId
  materialId : MaterialId
  documentVersion : UInt64
  pageIndex : UInt32
  blockId : Text
  ocrConfidencePpm : Option ConfidencePpm
  layoutConfidencePpm : Option ConfidencePpm

/-- `StoredPrivateValueBindingV1`. -/
structure StoredPrivateValueBinding where
  valueFingerprint : Sha256Hex
  privateValueRef : PrivateValueRef
  proposedReplacement : Text

/-- `u32::try_from`, of an offset. -/
def offsetOr {ε : Type} (error : ε) (offset : Nat) : Except ε UInt32 := do
  refuseIf (2 ^ 32 ≤ offset) error
  pure (UInt32.ofNat offset)

theorem offsetOr_eq_ok {ε : Type} {error : ε} {offset : Nat} {checked : UInt32}
    (fits : offsetOr error offset = .ok checked) : checked.toNat = offset := by
  obtain ⟨small, fits⟩ := refuseIf_bind_eq_ok.mp fits
  cases fits
  exact Nat.mod_eq_of_lt (not_le.mp small)

end LawyerAssistance.Privacy

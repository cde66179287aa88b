import LawyerAssistance.Privacy.CanonicalWidth
import LawyerAssistance.Privacy.Receipts

/-!
# Tokens of receipts

Records of texts and integers have one encoding, from which they are read back, so a token of an
issued receipt is read as the receipt.
-/

namespace LawyerAssistance.Privacy

universe u

/-! ## Records without floating points -/

section Plainly

variable {α β : Type u}

/-- All values are written without floating points, each member once, and not nested deeper. -/
def Codec.Plainly (codec : Codec α) (bound : Nat) : Prop :=
  ∀ value, (codec.write value).Plain ∧ (codec.write value).depth ≤ bound

/-- The members of all values are written so. -/
def Fields.Plainly (fields : Fields α) (bound : Nat) : Prop :=
  ∀ value, PlainMembers (fields.write value) ∧ depthMembers (fields.write value) ≤ bound

variable {codec : Codec α} {fields : Fields α} {others : Fields β} {bound : Nat}

theorem plainMembers_append {members others : List (Text × Value)} :
    PlainMembers (members ++ others) ↔ PlainMembers members ∧ PlainMembers others := by
  induction members with
  | nil => simp [PlainMembers]
  | cons member rest inductionHypothesis =>
      obtain ⟨key, value⟩ := member
      rw [List.cons_append, PlainMembers, PlainMembers, inductionHypothesis, and_assoc]

theorem Codec.plainly_text : Codec.text.Plainly bound := fun _ => ⟨trivial, Nat.zero_le _⟩

theorem Codec.plainly_u32 : Codec.u32.Plainly bound := fun _ => ⟨trivial, Nat.zero_le _⟩

theorem Codec.plainly_u64 : Codec.u64.Plainly bound := fun _ => ⟨trivial, Nat.zero_le _⟩

theorem Codec.plainly_variants {variants : Variants α} :
    (Codec.variants variants).Plainly bound := fun _ => ⟨trivial, Nat.zero_le _⟩

theorem Codec.Plainly.list (plainly : codec.Plainly bound) : codec.list.Plainly (bound + 1) := by
  intro values
  refine ⟨plainAll_of_forall fun value among => ?_, Nat.succ_le_succ ?_⟩
  · obtain ⟨inside, _, rfl⟩ := List.mem_map.mp among
    exact (plainly inside).1
  · refine depthAll_le_iff.mpr fun value among => ?_
    obtain ⟨inside, _, rfl⟩ := List.mem_map.mp among
    exact (plainly inside).2

theorem Codec.Plainly.option (plainly : codec.Plainly bound)
    {solid : ∀ value, toValue (codec.write value) ≠ .null} :
    (codec.option solid).Plainly bound := by
  intro value
  cases value with
  | none => exact ⟨trivial, Nat.zero_le _⟩
  | some value => exact plainly value

theorem Codec.Plainly.one (plainly : codec.Plainly bound) (name : String) :
    (Fields.one name codec).Plainly bound := fun value =>
  ⟨⟨(plainly value).1, trivial⟩, Nat.max_le.mpr ⟨(plainly value).2, Nat.zero_le _⟩⟩

theorem Fields.Plainly.also (first : fields.Plainly bound) (second : others.Plainly bound) :
    (fields.also others).Plainly bound := by
  intro value
  have before := first value.1
  have after := second value.2
  refine ⟨plainMembers_append.mpr ⟨before.1, after.1⟩, depthMembers_le_iff.mpr ?_⟩
  exact List.forall_mem_append.mpr
    ⟨depthMembers_le_iff.mp before.2, depthMembers_le_iff.mp after.2⟩

theorem Fields.Plainly.record (plainly : others.Plainly bound) (distinct : others.names.Nodup)
    {pack : β → α} {unpack : α → β} {inverse : ∀ value, pack (unpack value) = value} :
    (Fields.record others distinct pack unpack inverse).Plainly (bound + 1) := fun value =>
  ⟨⟨(others.names_write (unpack value)).symm ▸ distinct, (plainly (unpack value)).1⟩,
    Nat.succ_le_succ (plainly (unpack value)).2⟩

end Plainly

/-! ## Claims -/

section Claims

variable {claims other : RedactionReceiptClaims}

theorem plainly_destination : DestinationScope.codec.Plainly 1 :=
  Fields.Plainly.record ((Codec.plainly_variants.one _).also (Codec.plainly_text.one _)) _

/-- Claims are written without floating points. -/
theorem plainly_claims : RedactionReceiptClaims.codec.Plainly 2 :=
  Fields.Plainly.record
    ((Codec.plainly_text.one _).also <|
      (Codec.plainly_text.list.one _).also <|
      (Codec.plainly_text.one _).also <|
      (Codec.plainly_text.one _).also <|
      (Codec.plainly_text.one _).also <|
      (Codec.plainly_text.one _).also <|
      (Codec.plainly_u32.one _).also <|
      (Codec.plainly_text.one _).also <|
      (plainly_destination.one _).also <|
      (Codec.plainly_text.one _).also <|
      (Codec.plainly_u32.one _).also <|
      (Codec.plainly_variants.one _).also <|
      (Codec.plainly_u64.one _).also <|
      (Codec.plainly_u64.option.one _).also
      (Codec.plainly_u32.one _)) _

theorem exists_message (claims : RedactionReceiptClaims) :
    ∃ bytes, ReceiptSigner.message claims = some bytes ∧
      fromSlice RedactionReceiptClaims.codec bytes = some claims :=
  exists_toVec (plainly_claims claims).1 ((plainly_claims claims).2.trans (by decide))

theorem message_injective (same : ReceiptSigner.message claims = ReceiptSigner.message other) :
    claims = other := by
  obtain ⟨bytes, encoded, back⟩ := exists_message claims
  obtain ⟨bytes', encoded', back'⟩ := exists_message other
  rw [encoded, encoded'] at same
  cases same
  exact Option.some.inj (back.symm.trans back')

end Claims

/-! ## Letters of a token -/

section Letters

theorem isHex_of_mem_hexText {bytes : Octets} {character : Char}
    (among : character ∈ hexText bytes) : isHex character = true ∧ character ≠ '.' := by
  have digits : ∀ value < 16, isHex (Json.hexCharacter value) = true ∧
      Json.hexCharacter value ≠ '.' := by decide
  obtain ⟨byte, _, inByte⟩ := List.mem_flatMap.mp among
  have small := byte.toNat_lt
  rcases List.mem_cons.mp inByte with rfl | inRest
  · exact digits _ (by omega)
  · obtain rfl := List.mem_singleton.mp inRest
    exact digits _ (Nat.mod_lt _ (by decide))

theorem length_hexText (bytes : Octets) : (hexText bytes).length = 2 * bytes.length := by
  induction bytes with
  | nil => rfl
  | cons byte rest inductionHypothesis =>
      rw [hexText, List.flatMap_cons, List.length_append, ← hexText, inductionHypothesis,
        List.length_cons]
      simp only [List.length_cons, List.length_nil]
      omega

/-- The digits of a digest take 64 bytes. -/
theorem byteLength_hexText (digest : Digest) : Text.byteLength (hexText digest.1) = 64 := by
  have ascii : ∀ character ∈ hexText digest.1, character.toNat < 128 := by
    have digits : ∀ value < 16, (Json.hexCharacter value).toNat < 128 := by decide
    intro character among
    obtain ⟨byte, _, inByte⟩ := List.mem_flatMap.mp among
    have small := byte.toNat_lt
    rcases List.mem_cons.mp inByte with rfl | inRest
    · exact digits _ (by omega)
    · obtain rfl := List.mem_singleton.mp inRest
      exact digits _ (Nat.mod_lt _ (by decide))
  rw [byteLength_of_ascii ascii, length_hexText, digest.2]

theorem point_notMem_encodeLetters (bytes : Octets) : '.' ∉ Base64Url.encodeLetters bytes := by
  have outside : '.' ∉ Base64Url.alphabet := by
    have spelled : Base64Url.alphabet = _ := String.toList_ofList
    rw [spelled]
    decide
  exact fun among => outside (Base64Url.mem_encodeLetters among)

end Letters

/-! ## Tokens -/

section Tokens

open ReceiptSigner (receiptTokenPrefix)

variable {sha256 : Octets → Digest} {signer : ReceiptSigner} {claims : RedactionReceiptClaims}
  {receipt : SignedRedactionReceipt}

/-- An issued receipt has the code of its claims. -/
theorem macHex_of_issue (issued : signer.issue sha256 claims = .ok receipt) :
    ∃ message, ReceiptSigner.message receipt.claims = some message ∧
      receipt.macHex = hexText (hmacSha256 sha256 signer.key message).1 := by
  obtain ⟨_, _, issued⟩ := bind_eq_ok.mp issued
  obtain ⟨identified, _, issued⟩ := bind_eq_ok.mp issued
  obtain ⟨_, _, issued⟩ := bind_eq_ok.mp issued
  obtain ⟨message, encoded, issued⟩ := bind_eq_ok.mp issued
  cases issued
  exact ⟨message, presentOr_eq_ok.mp encoded, rfl⟩

/-- The token of an issued receipt is read as the receipt. -/
theorem decodeToken_encodeToken (issued : signer.issue sha256 claims = .ok receipt) :
    ∃ token, ReceiptSigner.encodeToken receipt = .ok token ∧
      ReceiptSigner.decodeToken token = .ok receipt := by
  obtain ⟨message, encoded, code⟩ := macHex_of_issue issued
  obtain ⟨bytes, encodedAgain, back⟩ := exists_message receipt.claims
  obtain rfl : message = bytes := Option.some.inj (encoded.symm.trans encodedAgain)
  have hexadecimal : ∀ character ∈ receipt.macHex, isHex character = true ∧ character ≠ '.' :=
    fun character among => isHex_of_mem_hexText (code ▸ among)
  have length : Text.byteLength receipt.macHex = 64 := by
    rw [code, byteLength_hexText]
  refine ⟨receiptTokenPrefix ++ '.' :: (Base64Url.encodeLetters message ++ '.' :: receipt.macHex),
    bind_eq_ok.mpr ⟨message, presentOr_eq_ok.mpr encoded, rfl⟩, ?_⟩
  have parts : (receiptTokenPrefix ++ '.' :: (Base64Url.encodeLetters message ++ '.' ::
      receipt.macHex)).splitOn '.' =
        [receiptTokenPrefix, Base64Url.encodeLetters message, receipt.macHex] := by
    rw [List.splitOn_append_cons_self_of_not_mem (by decide),
      List.splitOn_append_cons_self_of_not_mem (point_notMem_encodeLetters message),
      List.splitOn_eq_singleton fun point => (hexadecimal '.' point).2 rfl]
  have decoded : Base64Url.decode (String.ofList (Base64Url.encodeLetters message)) =
      some message := Base64Url.decode_encode message
  rw [ReceiptSigner.decodeToken, parts]
  refine refuseIf_bind_eq_ok.mpr ⟨not_not.mpr rfl, refuseIf_bind_eq_ok.mpr ⟨?_, bind_eq_ok.mpr
    ⟨message, presentOr_eq_ok.mpr decoded, bind_eq_ok.mpr
      ⟨receipt.claims, presentOr_eq_ok.mpr back, rfl⟩⟩⟩⟩
  rintro (others | long | other)
  · exact others rfl
  · exact long length
  · rw [List.all_eq_true.mpr fun character among => (hexadecimal character among).1] at other
    cases other

/-- The claims of a receipt for an external provider, under a hash of zeros. -/
def approvedClaims : RedactionReceiptClaims where
  receiptId := "receipt-1".toList
  sourceSha256 := [List.replicate 64 '1']
  extractionSha256 := List.replicate 64 '2'
  redactedContentSha256 := List.replicate 64 '3'
  approvedPayloadSha256 := List.replicate 64 '0'
  policyId := "policy-1".toList
  policyVersion := 1
  detectorVersion := "lawyer-assistance-content-redaction-v3".toList
  destination := { kind := .externalProvider, identifier := "provider-1".toList }
  purpose := "chat".toList
  unresolvedHighRiskCount := 0
  reviewState := .approved
  issuedAtUnix := 100
  expiresAtUnix := some 200
  keyVersion := 1

/-- A receipt is issued, and its token is read. -/
theorem approved_token_is_read : ∃ receipt token,
    ReceiptSigner.issue (fun _ => ⟨List.replicate 32 0, List.length_replicate⟩)
      ⟨List.replicate 32 0⟩ approvedClaims = .ok receipt ∧
    ReceiptSigner.encodeToken receipt = .ok token ∧
    ReceiptSigner.decodeToken token = .ok receipt := by
  have issues : (ReceiptSigner.issue (fun _ => ⟨List.replicate 32 0, List.length_replicate⟩)
      ⟨List.replicate 32 0⟩ approvedClaims).toOption.any (fun _ => true) = true := by
    decide +kernel
  obtain ⟨receipt, issued, _⟩ := any_toOption issues
  obtain ⟨token, encoded, decoded⟩ := decodeToken_encodeToken issued
  exact ⟨receipt, token, issued, encoded, decoded⟩

end Tokens

end LawyerAssistance.Privacy

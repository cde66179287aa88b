import LawyerAssistance.Privacy.McpTickets
import LawyerAssistance.Privacy.ReceiptTokens

/-!
# Tokens of tickets

A token is read as the claims for which it was made, and the token of valid claims is short enough.
-/

namespace LawyerAssistance.Privacy.McpTickets

open McpAccessTicketStore

/-! ## Tokens -/

section Tokens

variable {sha256 : Octets → Digest} {signer : McpTicketSigningKey}

theorem all_isLowerHex_hexText (bytes : Octets) : (hexText bytes).all isLowerHex = true := by
  have digits : ∀ value < 16, isLowerHex (Json.hexCharacter value) = true := by decide
  rw [List.all_eq_true]
  intro character among
  obtain ⟨byte, _, inByte⟩ := List.mem_flatMap.mp among
  have small := byte.toNat_lt
  rcases List.mem_cons.mp inByte with rfl | inRest
  · exact digits _ (by omega)
  · obtain rfl := List.mem_singleton.mp inRest
    exact digits _ (Nat.mod_lt _ (by decide))

theorem validLowerHex_bytes {bytes : Octets} {length : Nat} (long : bytes.length = length) :
    validLowerHex (hexText bytes) (2 * length) = true := by
  have digits := all_isLowerHex_hexText bytes
  have ascii : Text.byteLength (hexText bytes) = (hexText bytes).length :=
    byteLength_of_ascii fun character among =>
      Nat.lt_trans (plain_of_isLowerHex digits character among).2.2.2 (by decide)
  rw [validLowerHex, digits, ascii, length_hexText, long, beq_self_eq_true, Bool.true_and]

theorem validLowerHex_hexText (digest : Digest) : validLowerHex (hexText digest.1) 64 = true :=
  validLowerHex_bytes digest.2

theorem parse_hexDigest (bytes : Octets) :
    Sha256Hex.parse (hexDigest sha256 bytes) =
      some ⟨hexDigest sha256 bytes, validLowerHex_hexText _⟩ :=
  dif_pos (validLowerHex_hexText (sha256 bytes))

theorem canonicalOr_eq_ok {α : Type} {codec : Codec α} {value : α} {error : McpTicketError}
    {bytes : Octets} :
    canonicalOr codec value error = .ok bytes ↔ canonicalJsonV1 (codec.write value) = .ok bytes :=
  mapError_eq_ok

/-- A signed ticket has the hash and the signature of its claims. -/
theorem sign_eq_ok {claims : McpAccessTicketClaims} {signed : SignedMcpAccessTicket} :
    signer.sign sha256 claims = .ok signed ↔ claims.validate = .ok () ∧
      ∃ canonical, canonicalJsonV1 (McpAccessTicketClaims.codec.write claims) = .ok canonical ∧
        signed = ⟨claims, ⟨hexDigest sha256 canonical, validLowerHex_hexText _⟩, signingAlgorithm,
          signer.keyId, signer.keyVersion, signer.signature sha256 canonical⟩ := by
  rw [McpTicketSigningKey.sign, bind_eq_ok]
  simp only [bind_eq_ok, canonicalOr_eq_ok, parse_hexDigest, presentOr_eq_ok, Option.some.injEq,
    pure, Except.pure, Except.ok.injEq, exists_eq_left']
  constructor
  · rintro ⟨_, valid, canonical, encoded, rfl⟩
    exact ⟨valid, canonical, encoded, rfl⟩
  · rintro ⟨valid, canonical, encoded, rfl⟩
    exact ⟨(), valid, canonical, encoded, rfl⟩

theorem verify_of_sign {claims : McpAccessTicketClaims} {signed : SignedMcpAccessTicket}
    (signs : signer.sign sha256 claims = .ok signed) :
    signed.claims = claims ∧ signer.verify sha256 signed = .ok () := by
  obtain ⟨valid, canonical, encoded, rfl⟩ := sign_eq_ok.mp signs
  refine ⟨rfl, ?_⟩
  have signature : validLowerHex (signer.signature sha256 canonical) 64 = true :=
    validLowerHex_hexText _
  rw [McpTicketSigningKey.verify]
  refine bind_eq_ok.mpr ⟨(), mapError_eq_ok.mpr valid, ?_⟩
  refine refuseIf_bind_eq_ok.mpr ⟨by simp [signature], ?_⟩
  refine bind_eq_ok.mpr ⟨canonical, canonicalOr_eq_ok.mpr encoded, ?_⟩
  exact refuseIf_bind_eq_ok.mpr ⟨not_not.mpr rfl, refuseIf_eq_ok.mpr (not_not.mpr rfl)⟩

/-- What `issue` makes of claims. -/
def Mints (sha256 : Octets → Digest) (signer : McpTicketSigningKey) (ticket : IssuedTicket) :
    Prop :=
  ∃ signed canonical, signer.sign sha256 ticket.claims = .ok signed ∧
    canonicalJsonV1 (SignedMcpAccessTicket.codec.write signed) = .ok canonical ∧
    ticket.token = tokenPrefix ++ Base64Url.encodeLetters canonical ∧
    Text.byteLength ticket.token ≤ maxMcpAccessTicketBytes

theorem length_le_encodeLetters (bytes : Octets) :
    bytes.length ≤ (Base64Url.encodeLetters bytes).length := by
  induction bytes using Base64Url.encodeLetters.induct with
  | case1 => exact Nat.le_refl 0
  | case2 first => simp [Base64Url.encodeLetters]
  | case3 first second => simp [Base64Url.encodeLetters]
  | case4 first second third rest inductionHypothesis =>
      simp only [Base64Url.encodeLetters, List.length_cons]
      omega

/-- A token is read as its claims, by a store with the signing key. -/
theorem openToken_of_mints {store : McpAccessTicketStore} {ticket : IssuedTicket}
    (mints : Mints sha256 store.signer ticket) {nowUnix : UInt64} (later : nowUnix ≠ 0) :
    store.openToken sha256 ticket.token nowUnix = .ok ticket.claims := by
  obtain ⟨signed, canonical, signs, encoded, spelled, short⟩ := mints
  obtain ⟨same, verified⟩ := verify_of_sign signs
  have read : readSigned canonical = some signed := Codec.read_canonical (by decide) encoded
  have nonempty : canonical ≠ [] := by
    rintro rfl
    have nothing : readSigned [] = none := by decide
    rw [nothing] at read
    cases read
  have fits : canonical.length ≤ maxMcpAccessTicketBytes := by
    refine Nat.le_trans (length_le_encodeLetters canonical) (Nat.le_trans ?_ short)
    rw [spelled, Text.byteLength_append]
    exact Nat.le_trans (Text.length_le_byteLength _) (Nat.le_add_left _ _)
  have some : ticket.token ≠ [] := by
    rw [spelled]
    exact List.append_ne_nil_of_left_ne_nil (by decide) _
  have cut : tokenPrefix.isPrefixOf? ticket.token = .some (Base64Url.encodeLetters canonical) :=
    List.isPrefixOf?_eq_some_iff_append_eq.mpr spelled.symm
  have decoded : Base64Url.decode (String.ofList (Base64Url.encodeLetters canonical)) =
      .some canonical := Base64Url.decode_encode canonical
  rw [openToken]
  refine refuseIf_bind_eq_ok.mpr ⟨by simp [some, later, short], ?_⟩
  refine bind_eq_ok.mpr ⟨_, presentOr_eq_ok.mpr cut, ?_⟩
  refine bind_eq_ok.mpr ⟨canonical, presentOr_eq_ok.mpr decoded, ?_⟩
  refine refuseIf_bind_eq_ok.mpr ⟨by simp [nonempty, fits], ?_⟩
  refine bind_eq_ok.mpr ⟨signed, presentOr_eq_ok.mpr read, ?_⟩
  refine bind_eq_ok.mpr ⟨canonical, canonicalOr_eq_ok.mpr encoded, ?_⟩
  refine refuseIf_bind_eq_ok.mpr ⟨not_not.mpr rfl, ?_⟩
  exact bind_eq_ok.mpr ⟨(), verified, congrArg Except.ok same⟩

theorem sign_of_verify {signed : SignedMcpAccessTicket}
    (verified : signer.verify sha256 signed = .ok ()) :
    signer.sign sha256 signed.claims = .ok signed := by
  obtain ⟨_, valid, verified⟩ := bind_eq_ok.mp verified
  obtain ⟨fields, verified⟩ := refuseIf_bind_eq_ok.mp verified
  obtain ⟨canonical, encoded, verified⟩ := bind_eq_ok.mp verified
  obtain ⟨hashed, verified⟩ := refuseIf_bind_eq_ok.mp verified
  have coded := not_not.mp (refuseIf_eq_ok.mp verified)
  simp only [not_or, not_not] at fields
  obtain ⟨algorithm, keyId, keyVersion, _⟩ := fields
  refine sign_eq_ok.mpr ⟨mapError_eq_ok.mp valid, canonical, canonicalOr_eq_ok.mp encoded, ?_⟩
  obtain ⟨claims, hash, _, _, _, _⟩ := signed
  dsimp only at algorithm keyId keyVersion hashed coded
  obtain rfl : hash = ⟨hexDigest sha256 canonical, validLowerHex_hexText _⟩ :=
    Subtype.ext (not_not.mp hashed)
  rw [algorithm, keyId, keyVersion, coded]

/-- A store opens just the tokens which its key makes, so that claims have one token. -/
theorem openToken_eq_ok_iff {store : McpAccessTicketStore} {token : Text} {nowUnix : UInt64}
    {claims : McpAccessTicketClaims} : store.openToken sha256 token nowUnix = .ok claims ↔
      nowUnix ≠ 0 ∧ Mints sha256 store.signer ⟨claims, token⟩ := by
  constructor
  · intro done
    obtain ⟨checked, done⟩ := refuseIf_bind_eq_ok.mp done
    obtain ⟨encoded, cut, done⟩ := bind_eq_ok.mp done
    obtain ⟨bytes, decoded, done⟩ := bind_eq_ok.mp done
    obtain ⟨_, done⟩ := refuseIf_bind_eq_ok.mp done
    obtain ⟨signed, _, done⟩ := bind_eq_ok.mp done
    obtain ⟨canonical, written, done⟩ := bind_eq_ok.mp done
    obtain ⟨same, done⟩ := refuseIf_bind_eq_ok.mp done
    obtain ⟨_, verified, done⟩ := bind_eq_ok.mp done
    cases done
    obtain rfl := not_not.mp same
    simp only [not_or, Nat.not_lt] at checked
    have spelled := List.isPrefixOf?_eq_some_iff_append_eq.mp (presentOr_eq_ok.mp cut)
    have letters := Base64Url.encodeLetters_of_decode (presentOr_eq_ok.mp decoded)
    exact ⟨checked.2.2, signed, canonical, sign_of_verify verified, canonicalOr_eq_ok.mp written,
      by rw [letters, spelled], checked.2.1⟩
  · rintro ⟨later, mints⟩
    exact openToken_of_mints mints later

end Tokens

/-! ## Tokens which fit -/

section Fits

variable {sha256 : Octets → Digest} {signer : McpTicketSigningKey}

theorem plain_of_isAlphanum {character : Char} (letter : character.isAlphanum = true) :
    character ≠ '"' ∧ character ≠ '\\' ∧ 0x20 ≤ character.toNat ∧ character.toNat < 0x7F := by
  have range : (48 ≤ character.toNat ∧ character.toNat ≤ 57) ∨
      (65 ≤ character.toNat ∧ character.toNat ≤ 90) ∨
      (97 ≤ character.toNat ∧ character.toNat ≤ 122) := by
    change (decide (character.val ≥ 'A'.val ∧ character.val ≤ 'Z'.val) ||
      character.val ≥ 'a'.val && character.val ≤ 'z'.val ||
      character.val ≥ '0'.val && character.val ≤ '9'.val) = true at letter
    simp only [Bool.or_eq_true, Bool.and_eq_true, decide_eq_true_eq] at letter
    obtain (⟨above, below⟩ | ⟨above, below⟩) | ⟨above, below⟩ := letter
    · exact .inr (.inl ⟨above, below⟩)
    · exact .inr (.inr ⟨above, below⟩)
    · exact .inl ⟨above, below⟩
  refine ⟨?_, ?_, by omega, by omega⟩
  · rintro rfl
    exact absurd range (by decide)
  · rintro rfl
    exact absurd range (by decide)

theorem plain_of_all {value marks : Text} {letters : Char → Bool} (plain : PlainText marks)
    (alphanumeric : ∀ character, letters character = true → character.isAlphanum = true)
    (all : (value.all fun character => letters character || marks.contains character) = true) :
    PlainText value := by
  intro character among
  rcases Bool.or_eq_true _ _ |>.mp (List.all_eq_true.mp all character among) with letter | mark
  · exact plain_of_isAlphanum (alphanumeric character letter)
  · exact plain character (List.contains_iff_mem.mp mark)

theorem plain_of_safeBinding {value : Text} {min max : Nat}
    (safe : safeBinding value min max = true) : PlainText value ∧ value.length ≤ max := by
  rw [safeBinding, Bool.and_eq_true, decide_eq_true_eq] at safe
  refine ⟨plain_of_all (by decide) (fun _ => id) safe.2, ?_⟩
  exact Nat.le_trans (Text.length_le_byteLength value) safe.1.2

theorem plain_of_safeName {value : Text} {max : Nat} (safe : safeName value max = true) :
    PlainText value ∧ value.length ≤ max := by
  rw [safeName, Bool.and_eq_true, decide_eq_true_eq] at safe
  have alphanumeric (character : Char)
      (letter : (character.isLower || character.isDigit) = true) :
      character.isAlphanum = true := by
    change (character.isUpper || character.isLower || character.isDigit) = true
    rw [Bool.or_assoc, letter, Bool.or_true]
  exact ⟨plain_of_all (by decide) alphanumeric safe.2,
    Nat.le_trans (Text.length_le_byteLength value) safe.1.2⟩

/-- The texts of valid claims are plain, and short. -/
structure PlainClaims (claims : McpAccessTicketClaims) : Prop where
  schemaVersion : PlainText claims.schemaVersion ∧ claims.schemaVersion.length = 20
  ticketId : PlainText claims.ticketId ∧ claims.ticketId.length = 36
  profile : PlainText claims.profile ∧ claims.profile.length = 23
  serverInstanceId : PlainText claims.serverInstanceId ∧ claims.serverInstanceId.length = 36
  sessionId : PlainText claims.sessionId ∧ claims.sessionId.length ≤ 160
  toolName : PlainText claims.toolName ∧ claims.toolName.length ≤ 128
  purpose : PlainText claims.purpose ∧ claims.purpose.length ≤ 160
  nonce : PlainText claims.nonce ∧ claims.nonce.length = 64

theorem plainClaims_of_validate {claims : McpAccessTicketClaims}
    (valid : claims.validate = .ok ()) : PlainClaims claims := by
  obtain ⟨checked, _⟩ := refuseIf_bind_eq_ok.mp valid
  simp only [not_or, not_not, Bool.not_eq_false] at checked
  obtain ⟨version, profile, ticket, server, session, tool, purpose, _, _, _, nonce⟩ := checked
  constructor
  · rw [version]
    decide
  · exact plain_of_validOpaqueId (by decide) ticket
  · rw [profile]
    decide
  · exact plain_of_validOpaqueId (by decide) server
  · exact plain_of_safeBinding session
  · exact plain_of_safeName tool
  · exact plain_of_safeName purpose
  · exact plain_of_validLowerHex nonce

theorem fitting_target (target : McpAccessTarget) :
    (McpAccessTarget.codec.write target).Fitting 512 := by
  have opaqueId {start : Text} {solid} (plain : PlainText start) (value : Option (OpaqueId start)) :
      (((OpaqueId.codec start).option solid).write value).Fitting (start.length + 34) :=
    Codec.fitting_option (fitting_opaqueId plain) value
  refine (Fields.fitting_record _ <|
    (FittingMembers.one (by decide) (opaqueId (by decide) target.caseId)).also <|
    (FittingMembers.one (by decide) (opaqueId (by decide) target.materialId)).also <|
    (FittingMembers.one (by decide) (opaqueId (by decide) target.publicationId)).also <|
    (FittingMembers.one (by decide) (opaqueId (by decide) target.workProductId)).also
    (FittingMembers.one (by decide) (Codec.fitting_option fitting_u64 target.version))).mono ?_
  decide

theorem fitting_transport (transport : McpTransportBinding) :
    ((Codec.variants McpTransportBinding.variants).write transport).Fitting 17 := by
  have named : PlainText (McpTransportBinding.variants.name transport) ∧
      (McpTransportBinding.variants.name transport).length ≤ 15 := by
    cases transport <;> decide
  exact fitting_string named.1 named.2

theorem fitting_claims {claims : McpAccessTicketClaims} (valid : claims.validate = .ok ()) :
    (McpAccessTicketClaims.codec.write claims).Fitting 2048 := by
  have plain := plainClaims_of_validate valid
  have exactly {text : Text} {length : Nat} (plain : PlainText text ∧ text.length = length) :=
    fitting_string plain.1 (Nat.le_of_eq plain.2)
  have atMost {text : Text} {length : Nat} (plain : PlainText text ∧ text.length ≤ length) :=
    fitting_string plain.1 plain.2
  refine (Fields.fitting_record _ <|
    (FittingMembers.one (by decide) (exactly plain.schemaVersion)).also <|
    (FittingMembers.one (by decide) (exactly plain.ticketId)).also <|
    (FittingMembers.one (by decide) (exactly plain.profile)).also <|
    (FittingMembers.one (by decide)
      (fitting_opaqueId (by decide) claims.workspaceInstanceId)).also <|
    (FittingMembers.one (by decide) (exactly plain.serverInstanceId)).also <|
    (FittingMembers.one (by decide) (fitting_transport claims.transport)).also <|
    (FittingMembers.one (by decide) (atMost plain.sessionId)).also <|
    (FittingMembers.one (by decide) (atMost plain.toolName)).also <|
    (FittingMembers.one (by decide) (atMost plain.purpose)).also <|
    (FittingMembers.one (by decide) (fitting_sha256Hex claims.canonicalRequestSha256)).also <|
    (FittingMembers.one (by decide) (fitting_target claims.target)).also <|
    (FittingMembers.one (by decide) (fitting_u64 claims.issuedAtUnix)).also <|
    (FittingMembers.one (by decide) (fitting_u64 claims.expiresAtUnix)).also <|
    (FittingMembers.one (by decide) (exactly plain.nonce)).also
    (FittingMembers.one (by decide) (fitting_u64 claims.revocationEpoch))).mono ?_
  decide

theorem exists_sign {claims : McpAccessTicketClaims} (valid : claims.validate = .ok ()) :
    ∃ signed, signer.sign sha256 claims = .ok signed := by
  obtain ⟨canonical, encoded, _⟩ := (fitting_claims valid).encoded
  exact ⟨_, sign_eq_ok.mpr ⟨valid, canonical, encoded, rfl⟩⟩

theorem fitting_signed (named : safeBinding signer.keyId 8 128 = true)
    {claims : McpAccessTicketClaims} {signed : SignedMcpAccessTicket}
    (signs : signer.sign sha256 claims = .ok signed) :
    (SignedMcpAccessTicket.codec.write signed).Fitting 4096 := by
  obtain ⟨valid, canonical, encoded, rfl⟩ := sign_eq_ok.mp signs
  obtain ⟨plain, short⟩ := plain_of_safeBinding named
  obtain ⟨digits, long⟩ := plain_of_validLowerHex
    (validLowerHex_hexText (hmacSha256 sha256 signer.key (signingDomain ++ canonical)))
  have algorithm : PlainText signingAlgorithm ∧ signingAlgorithm.length ≤ 14 := by decide
  refine (Fields.fitting_record _ <|
    (FittingMembers.one (by decide) (fitting_claims valid)).also <|
    (FittingMembers.one (by decide)
      (fitting_sha256Hex ⟨hexDigest sha256 canonical, validLowerHex_hexText _⟩)).also <|
    (FittingMembers.one (by decide) (fitting_string algorithm.1 algorithm.2)).also <|
    (FittingMembers.one (by decide) (fitting_string plain short)).also <|
    (FittingMembers.one (by decide) (fitting_u64 signer.keyVersion)).also
    (FittingMembers.one (by decide) (fitting_string digits (Nat.le_of_eq long)))).mono ?_
  decide

theorem length_encodeLetters_le (bytes : Octets) :
    (Base64Url.encodeLetters bytes).length ≤ 2 * bytes.length := by
  induction bytes using Base64Url.encodeLetters.induct with
  | case1 => exact Nat.le_refl 0
  | case2 first => simp [Base64Url.encodeLetters]
  | case3 first second => simp [Base64Url.encodeLetters]
  | case4 first second third rest inductionHypothesis =>
      simp only [Base64Url.encodeLetters, List.length_cons]
      omega

/-- Valid claims get a token, with a key of the store. -/
theorem exists_mints (named : safeBinding signer.keyId 8 128 = true)
    {claims : McpAccessTicketClaims} (valid : claims.validate = .ok ()) :
    ∃ ticket : IssuedTicket, ticket.claims = claims ∧ Mints sha256 signer ticket := by
  obtain ⟨signed, signs⟩ : ∃ signed, signer.sign sha256 claims = .ok signed := exists_sign valid
  obtain ⟨canonical, encoded, short⟩ := (fitting_signed named signs).encoded
  refine ⟨⟨claims, tokenPrefix ++ Base64Url.encodeLetters canonical⟩, rfl, signed, canonical, signs,
    encoded, rfl, ?_⟩
  have ascii : Text.byteLength (Base64Url.encodeLetters canonical) =
      (Base64Url.encodeLetters canonical).length :=
    byteLength_of_ascii fun character among =>
      Base64Url.ascii_of_mem (Base64Url.mem_encodeLetters among)
  have head : Text.byteLength tokenPrefix = 7 := by decide
  have behind := length_encodeLetters_le canonical
  rw [Text.byteLength_append, ascii, head, maxMcpAccessTicketBytes]
  omega

theorem Mints.unique {ticket other : IssuedTicket} (mints : Mints sha256 signer ticket)
    (others : Mints sha256 signer other) (same : ticket.claims = other.claims) :
    ticket = other := by
  obtain ⟨claims, token⟩ := ticket
  obtain ⟨_, otherToken⟩ := other
  obtain rfl : claims = _ := same
  obtain ⟨signed, canonical, signs, encoded, spelled, _⟩ := mints
  obtain ⟨_, _, otherSigns, otherEncoded, otherSpelled, _⟩ := others
  obtain rfl := Except.ok.inj (signs.symm.trans otherSigns)
  obtain rfl := Except.ok.inj (encoded.symm.trans otherEncoded)
  dsimp only at spelled otherSpelled
  rw [spelled, otherSpelled]

end Fits

/-! ## Recording -/

section Recording

variable {sha256 : Octets → Digest} {database next : McpTicketDatabase}

/-- The numbers of a row are those of a ticket. -/
structure RowOf (sha256 : Octets → Digest) (ticket : IssuedTicket) (row : McpTicketRow) : Prop where
  token : row.tokenSha256 = hexDigest sha256 (utf8 (String.ofList ticket.token))
  nonce : row.nonce = ticket.claims.nonce
  epoch : row.revocationEpoch = ticket.claims.revocationEpoch.toNat
  issued : row.issuedAtUnix = ticket.claims.issuedAtUnix.toNat
  expires : row.expiresAtUnix = ticket.claims.expiresAtUnix.toNat

theorem sqlI64_eq_ok {value : UInt64} {stored : Int} :
    sqlI64 value = .ok stored ↔ value.toNat < 2 ^ 63 ∧ (value.toNat : Int) = stored := by
  rw [sqlI64]
  split_ifs with small
  · exact ⟨fun same => ⟨small, Except.ok.inj same⟩, fun both => congrArg Except.ok both.2⟩
  · exact ⟨fun same => (by cases same), fun both => absurd both.1 small⟩

theorem u64FromSql_toNat (value other : UInt64) :
    u64FromSql (value.toNat : Int) = some other ↔ value = other := by
  rw [u64FromSql, if_pos (Int.natCast_nonneg _), Int.toNat_natCast, UInt64.ofNat_toNat,
    Option.some_inj]

theorem toNat_of_u64FromSql {value : Int} {read : UInt64} (some : u64FromSql value = some read)
    (small : value < 2 ^ 63) : (read.toNat : Int) = value := by
  rw [u64FromSql] at some
  split_ifs at some with natural
  have fits : value.toNat < 2 ^ 64 := by omega
  rw [← Option.some.inj some, UInt64.toNat_ofNat_of_lt' fits, Int.toNat_of_nonneg natural]

/-- The row of a ticket which is recorded. -/
def issuedRow (sha256 : Octets → Digest) (ticket : IssuedTicket) : McpTicketRow where
  tokenSha256 := hexDigest sha256 (utf8 (String.ofList ticket.token))
  nonce := ticket.claims.nonce
  revocationEpoch := ticket.claims.revocationEpoch.toNat
  issuedAtUnix := ticket.claims.issuedAtUnix.toNat
  expiresAtUnix := ticket.claims.expiresAtUnix.toNat
  state := .issued
  consumedAtUnix := none
  revokedAtUnix := none

/-- The numbers of claims are numbers of a column. -/
def Storable (claims : McpAccessTicketClaims) : Prop :=
  claims.revocationEpoch.toNat < 2 ^ 63 ∧ claims.issuedAtUnix.toNat < 2 ^ 63 ∧
    claims.expiresAtUnix.toNat < 2 ^ 63

/-- A ticket is recorded when its claims have a token, fit, and its row is new. -/
theorem record_eq_ok_iff {store : McpAccessTicketStore} {claims : McpAccessTicketClaims}
    {ticket : IssuedTicket} : store.record sha256 claims database = .ok (next, ticket) ↔
      ticket.claims = claims ∧ Mints sha256 store.signer ticket ∧ Storable claims ∧
        database.insertTicket claims.ticketId (issuedRow sha256 ticket) = some next := by
  constructor
  · intro done
    obtain ⟨signed, signs, done⟩ := bind_eq_ok.mp done
    obtain ⟨canonical, encoded, done⟩ := bind_eq_ok.mp done
    obtain ⟨short, done⟩ := refuseIf_bind_eq_ok.mp done
    obtain ⟨epoch, epochFits, done⟩ := bind_eq_ok.mp done
    obtain ⟨issuedAt, issuedFits, done⟩ := bind_eq_ok.mp done
    obtain ⟨expiresAt, expiresFits, done⟩ := bind_eq_ok.mp done
    obtain ⟨inserted, inserts, done⟩ := bind_eq_ok.mp done
    cases done
    obtain ⟨epochSmall, rfl⟩ := sqlI64_eq_ok.mp epochFits
    obtain ⟨issuedSmall, rfl⟩ := sqlI64_eq_ok.mp issuedFits
    obtain ⟨expiresSmall, rfl⟩ := sqlI64_eq_ok.mp expiresFits
    exact ⟨rfl, ⟨signed, canonical, signs, canonicalOr_eq_ok.mp encoded, rfl,
      Nat.not_lt.mp short⟩, ⟨epochSmall, issuedSmall, expiresSmall⟩, presentOr_eq_ok.mp inserts⟩
  · rintro ⟨rfl, ⟨signed, canonical, signs, encoded, spelled, short⟩, ⟨epoch, issued, expires⟩,
      inserts⟩
    obtain ⟨claims, token⟩ := ticket
    dsimp only at spelled short inserts
    subst spelled
    refine bind_eq_ok.mpr ⟨signed, signs, bind_eq_ok.mpr ⟨canonical, canonicalOr_eq_ok.mpr encoded,
      refuseIf_bind_eq_ok.mpr ⟨Nat.not_lt.mpr short, ?_⟩⟩⟩
    refine bind_eq_ok.mpr ⟨_, sqlI64_eq_ok.mpr ⟨epoch, rfl⟩, bind_eq_ok.mpr ⟨_, sqlI64_eq_ok.mpr
      ⟨issued, rfl⟩, bind_eq_ok.mpr ⟨_, sqlI64_eq_ok.mpr ⟨expires, rfl⟩, ?_⟩⟩⟩
    exact bind_eq_ok.mpr ⟨next, presentOr_eq_ok.mpr inserts, rfl⟩

/-- No row has the identifier, the nonce or the token of a ticket. -/
def Fresh (sha256 : Octets → Digest) (database : McpTicketDatabase) (ticket : IssuedTicket) :
    Prop :=
  ∀ ticketId row, database.tickets.lookup ticketId = some row →
    ticketId ≠ ticket.claims.ticketId ∧ row.nonce ≠ ticket.claims.nonce ∧
      row.tokenSha256 ≠ hexDigest sha256 (utf8 (String.ofList ticket.token))

theorem insertTicket_eq_some {ticket : IssuedTicket} :
    database.insertTicket ticket.claims.ticketId (issuedRow sha256 ticket) = some next ↔
      Fresh sha256 database ticket ∧ next = { database with
        tickets := database.tickets.insert ticket.claims.ticketId (issuedRow sha256 ticket) } := by
  have absent : ¬ ((database.tickets.lookup ticket.claims.ticketId).isSome ∨
      database.tickets.entries.any (fun entry =>
        entry.2.tokenSha256 == (issuedRow sha256 ticket).tokenSha256 ||
          entry.2.nonce == (issuedRow sha256 ticket).nonce) = true) ↔
        Fresh sha256 database ticket := by
    rw [not_or, Option.not_isSome_iff_eq_none, Bool.not_eq_true, List.any_eq_false]
    constructor
    · rintro ⟨unnamed, apart⟩ ticketId row found
      have other := apart ⟨ticketId, row⟩ (AList.mem_lookup_iff.mp found)
      simp only [Bool.or_eq_true, beq_iff_eq, not_or] at other
      refine ⟨?_, other.2, other.1⟩
      rintro rfl
      rw [unnamed] at found
      cases found
    · intro fresh
      refine ⟨?_, fun entry among => ?_⟩
      · by_contra present
        obtain ⟨row, found⟩ := Option.ne_none_iff_exists'.mp present
        exact (fresh _ row found).1 rfl
      · obtain ⟨_, nonce, token⟩ := fresh entry.1 entry.2 (AList.mem_lookup_iff.mpr among)
        simp only [Bool.or_eq_true, beq_iff_eq, not_or]
        exact ⟨token, nonce⟩
  rw [← absent, McpTicketDatabase.insertTicket]
  split_ifs with taken
  · exact ⟨fun same => (by cases same), fun both => absurd taken both.1⟩
  · rw [Option.some_inj]
    exact ⟨fun same => ⟨taken, same.symm⟩, fun both => both.2.symm⟩

/-- A ticket which is recorded gets a row of its own. -/
theorem record_eq_ok {store : McpAccessTicketStore} {claims : McpAccessTicketClaims}
    {ticket : IssuedTicket} (done : store.record sha256 claims database = .ok (next, ticket)) :
    ticket.claims = claims ∧ Mints sha256 store.signer ticket ∧
      database.tickets.lookup claims.ticketId = none ∧
      claims.expiresAtUnix.toNat < 2 ^ 63 ∧
      ∃ row, RowOf sha256 ticket row ∧ row.state = .issued ∧
        next = { database with tickets := database.tickets.insert claims.ticketId row } := by
  obtain ⟨rfl, mints, storable, inserts⟩ := record_eq_ok_iff.mp done
  obtain ⟨fresh, same⟩ := insertTicket_eq_some.mp inserts
  refine ⟨rfl, mints, ?_, storable.2.2, issuedRow sha256 ticket, ⟨rfl, rfl, rfl, rfl, rfl⟩, rfl,
    same⟩
  by_contra present
  obtain ⟨row, found⟩ := Option.ne_none_iff_exists'.mp present
  exact (fresh _ row found).1 rfl

/-- What `issue` checks of a request. -/
structure Requestable (request : McpAccessTicketRequest) : Prop where
  server : validOpaqueId "srv_".toList request.serverInstanceId = true
  session : safeBinding request.sessionId 16 160 = true
  tool : safeName request.toolName 128 = true
  purpose : safeName request.purpose 160 = true
  started : request.issuedAtUnix ≠ 0
  later : request.issuedAtUnix < request.expiresAtUnix
  short : request.expiresAtUnix.toNat ≤ request.issuedAtUnix.toNat + maxMcpAccessTicketTtlSeconds
  target : request.target.validate = .ok ()

/-- The random parts of claims are always valid. -/
theorem validate_claimsOf {request : McpAccessTicketRequest} {random : McpTicketRandom}
    {epoch : UInt64} :
    (claimsOf request random epoch).validate = .ok () ↔ Requestable request := by
  have ticket : validOpaqueId "tkt_".toList (claimsOf request random epoch).ticketId = true := by
    rw [validOpaqueId, show "tkt_".toList.isPrefixOf? (claimsOf request random epoch).ticketId =
      some (hexText random.ticketId.1) from List.isPrefixOf?_eq_some_iff_append_eq.mpr rfl]
    exact validLowerHex_bytes random.ticketId.2
  have nonce : validLowerHex (claimsOf request random epoch).nonce 64 = true :=
    validLowerHex_bytes random.nonce.2
  rw [McpAccessTicketClaims.validate, refuseIf_bind_eq_ok]
  simp only [not_or, not_not, Bool.not_eq_false, UInt64.not_le, Nat.not_lt]
  constructor
  · rintro ⟨⟨_, _, _, server, session, tool, purpose, started, later, short, _⟩, target⟩
    exact ⟨server, session, tool, purpose, started, later, Nat.sub_le_iff_le_add'.mp short, target⟩
  · intro ok
    exact ⟨⟨rfl, rfl, ticket, ok.server, ok.session, ok.tool, ok.purpose, ok.started, ok.later,
      Nat.sub_le_iff_le_add'.mpr ok.short, nonce⟩, ok.target⟩

theorem safeBinding_of_fromBytes {signer : McpTicketSigningKey}
    (keyed : McpTicketSigningKey.fromBytes signer.key signer.keyId signer.keyVersion =
      .ok signer) : safeBinding signer.keyId 8 128 = true := by
  obtain ⟨checked, _⟩ := refuseIf_bind_eq_ok.mp keyed
  simp only [not_or, Bool.not_eq_false] at checked
  exact checked.2.2

/-- A request is issued as the token of its claims, which is new. -/
theorem issue_eq_ok_iff {store : McpAccessTicketStore} {request : McpAccessTicketRequest}
    {random : McpTicketRandom} {token : Text} :
    store.issue sha256 request random database = .ok (next, token) ↔
      (request.workspaceInstanceId = store.workspaceInstanceId ∧
        request.serverInstanceId = store.serverInstanceId) ∧
      ∃ epoch, currentRevocationEpoch database = .ok epoch ∧
        store.record sha256 (claimsOf request random epoch) database =
          .ok (next, ⟨claimsOf request random epoch, token⟩) := by
  constructor
  · intro done
    obtain ⟨claims, prepared, done⟩ := bind_eq_ok.mp done
    obtain ⟨⟨_, ticket⟩, recorded, done⟩ := bind_eq_ok.mp done
    cases done
    obtain ⟨bound, prepared⟩ := refuseIf_bind_eq_ok.mp prepared
    obtain ⟨epoch, current, prepared⟩ := bind_eq_ok.mp prepared
    cases prepared
    simp only [not_or, not_not] at bound
    obtain ⟨given, _⟩ := record_eq_ok_iff.mp recorded
    refine ⟨bound, epoch, current, ?_⟩
    rw [← given] at recorded ⊢
    exact recorded
  · rintro ⟨bound, epoch, current, recorded⟩
    refine bind_eq_ok.mpr ⟨claimsOf request random epoch, ?_, bind_eq_ok.mpr ⟨_, recorded, rfl⟩⟩
    exact refuseIf_bind_eq_ok.mpr ⟨by simp [bound], bind_eq_ok.mpr ⟨epoch, current, rfl⟩⟩

end Recording

/-! ## A ticket -/

section Sample

/-- The hash of the samples. -/
def sampleSha (bytes : Octets) : Digest :=
  ⟨List.replicate 32 (bytes.foldl (· + ·) 0), List.length_replicate⟩

/-- A store of the samples. -/
def sampleStore : McpAccessTicketStore where
  signer := ⟨List.replicate 32 0x5a, "ticket-key-v1".toList, 1⟩
  workspaceInstanceId := ⟨"ws_".toList ++ List.replicate 32 'a', Eq.refl true⟩
  serverInstanceId := "srv_".toList ++ List.replicate 32 'b'

/-- The request of a ticket for a minute. -/
def sampleRequest : McpAccessTicketRequest where
  workspaceInstanceId := sampleStore.workspaceInstanceId
  serverInstanceId := sampleStore.serverInstanceId
  transport := .streamableHttp
  sessionId := "session_".toList ++ List.replicate 32 'c'
  toolName := "case_list".toList
  purpose := "mcp.case_list.v1".toList
  canonicalRequestSha256 := ⟨List.replicate 64 'd', Eq.refl true⟩
  target := ⟨none, none, none, none, none⟩
  issuedAtUnix := 1000
  expiresAtUnix := 1060

/-- The random numbers of the ticket. -/
def sampleRandom : McpTicketRandom where
  ticketId := ⟨List.replicate 16 1, List.length_replicate⟩
  nonce := ⟨List.replicate 32 2, List.length_replicate⟩

/-- The claims of the request. -/
def sampleClaims : McpAccessTicketClaims := claimsOf sampleRequest sampleRandom 0

/-- The tables which the store opens. -/
def sampleDatabase : McpTicketDatabase where
  ticketMeta := some ⟨sampleStore.workspaceInstanceId, sampleStore.serverInstanceId,
    sampleStore.signer.keyId, 1, 0⟩
  tickets := ∅

end Sample

/-! ## Issuing -/

section Issuing

variable {sha256 : Octets → Digest} {database : McpTicketDatabase}

/-- A store of the program issues a ticket exactly when the request has its bindings and passes the
checks, the epoch is there, the numbers fit, and the identifier, the nonce and the token are new. -/
theorem issue_succeeds_iff {store : McpAccessTicketStore} {request : McpAccessTicketRequest}
    {random : McpTicketRandom}
    (keyed : McpTicketSigningKey.fromBytes store.signer.key store.signer.keyId
      store.signer.keyVersion = .ok store.signer) :
    (∃ next token, store.issue sha256 request random database = .ok (next, token)) ↔
      (request.workspaceInstanceId = store.workspaceInstanceId ∧
        request.serverInstanceId = store.serverInstanceId) ∧ Requestable request ∧
      ∃ epoch, currentRevocationEpoch database = .ok epoch ∧
        Storable (claimsOf request random epoch) ∧
        ∀ token, Mints sha256 store.signer ⟨claimsOf request random epoch, token⟩ →
          Fresh sha256 database ⟨claimsOf request random epoch, token⟩ := by
  constructor
  · rintro ⟨next, token, done⟩
    obtain ⟨bound, epoch, current, recorded⟩ := issue_eq_ok_iff.mp done
    obtain ⟨_, mints, storable, inserts⟩ := record_eq_ok_iff.mp recorded
    obtain ⟨signed, _, signs, _⟩ := id mints
    refine ⟨bound, validate_claimsOf.mp (sign_eq_ok.mp signs).1, epoch, current, storable, ?_⟩
    intro other others
    rw [others.unique mints rfl]
    exact (insertTicket_eq_some.mp inserts).1
  · rintro ⟨bound, requestable, epoch, current, storable, fresh⟩
    obtain ⟨⟨_, token⟩, rfl, mints⟩ : ∃ ticket : IssuedTicket,
        ticket.claims = claimsOf request random epoch ∧ Mints sha256 store.signer ticket :=
      exists_mints (safeBinding_of_fromBytes keyed) (validate_claimsOf.mpr requestable)
    exact ⟨_, token, issue_eq_ok_iff.mpr ⟨bound, epoch, current, record_eq_ok_iff.mpr
      ⟨rfl, mints, storable, insertTicket_eq_some.mpr ⟨fresh token mints, rfl⟩⟩⟩⟩

/-- The request of the sample is issued. -/
theorem sample_is_issued : ∃ next token,
    sampleStore.issue sampleSha sampleRequest sampleRandom sampleDatabase = .ok (next, token) := by
  have requestable : Requestable sampleRequest := by constructor <;> decide
  have storable : Storable (claimsOf sampleRequest sampleRandom 0) := by
    unfold Storable
    decide
  refine (issue_succeeds_iff (by decide)).mpr
    ⟨⟨rfl, rfl⟩, requestable, 0, rfl, storable, fun token _ ticketId row found => ?_⟩
  cases found

end Issuing

end LawyerAssistance.Privacy.McpTickets

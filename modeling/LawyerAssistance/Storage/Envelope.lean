import LawyerAssistance.Std.Bytes
import LawyerAssistance.Std.Fallible
import LawyerAssistance.Std.Text

/-!
# Sealed objects

A stored body is split into chunks of 4 MiB. Each chunk goes to the data protection of
the operating system behind a context which names the object, the index of the chunk and
the number of chunks; the envelope is the list of the protected chunks.
-/

namespace LawyerAssistance.Storage

/-- The bytes of one chunk. -/
def CHUNK : Nat := 4 * 1024 * 1024

/-- The largest body. -/
def MAX_OBJECT : Nat := 64 * 1024 * 1024

/-- The largest plaintext which is handed to the platform. -/
def MAX_PROTECTED_PLAINTEXT_BYTES : Nat := 16 * 1024 * 1024

/-- The data protection of the operating system: `CryptProtectData`, which is salted,
and `CryptUnprotectData`. Both take the entropy first. -/
structure Dpapi where
  Salt : Type
  cryptProtectData : Salt → Octets → Octets → Option Octets
  cryptUnprotectData : Octets → Octets → Option Octets

namespace Dpapi

/-- What the platform documents: a protected blob opens under its entropy, whatever opens
was protected with that entropy, and a blob is little longer than its plaintext. -/
structure Authentic (dpapi : Dpapi) : Prop where
  opens : ∀ {salt entropy plain blob}, dpapi.cryptProtectData salt entropy plain = some blob →
    dpapi.cryptUnprotectData entropy blob = some plain
  rejects : ∀ {entropy blob plain}, dpapi.cryptUnprotectData entropy blob = some plain →
    ∃ salt, dpapi.cryptProtectData salt entropy plain = some blob
  overhead : ∀ {salt entropy plain blob}, dpapi.cryptProtectData salt entropy plain = some blob →
    blob.length ≤ plain.length + MAX_PROTECTED_PLAINTEXT_BYTES

end Dpapi

/-! ## The protected blob -/

/-- The failures of `protect_local` and `unprotect_local`. -/
inductive ProtectedBlobError where
  | emptyInput
  | inputTooLarge
  | protectFailed
  | unprotectFailed
  | invalidOutput
deriving DecidableEq, Repr

/-- The entropy of every local blob. -/
def OPTIONAL_ENTROPY : Octets := utf8 "LawyerAssistance/privacy/local-protected-blob/v1"

/-- The platform protects every plaintext of an admitted size. -/
def Dpapi.Serves (dpapi : Dpapi) : Prop :=
  ∀ salt plain, plain ≠ [] → plain.length ≤ MAX_PROTECTED_PLAINTEXT_BYTES →
    ∃ blob, blob ≠ [] ∧ dpapi.cryptProtectData salt OPTIONAL_ENTROPY plain = some blob

/-- `copy_and_free`: an empty output is refused. -/
def copyOutput (failed : ProtectedBlobError) : Option Octets → Except ProtectedBlobError Octets
  | none => .error failed
  | some [] => .error .invalidOutput
  | some (byte :: rest) => .ok (byte :: rest)

/-- Protect a plaintext with the account of the user. -/
def protectLocal (dpapi : Dpapi) (salt : dpapi.Salt) (plaintext : Octets) :
    Except ProtectedBlobError Octets :=
  if plaintext.length = 0 then .error .emptyInput
  else if MAX_PROTECTED_PLAINTEXT_BYTES < plaintext.length then .error .inputTooLarge
  else copyOutput .protectFailed (dpapi.cryptProtectData salt OPTIONAL_ENTROPY plaintext)

/-- Open a blob which the same account protected. -/
def unprotectLocal (dpapi : Dpapi) (ciphertext : Octets) : Except ProtectedBlobError Octets :=
  if ciphertext.length = 0 then .error .emptyInput
  else if MAX_PROTECTED_PLAINTEXT_BYTES * 2 < ciphertext.length then .error .inputTooLarge
  else copyOutput .unprotectFailed (dpapi.cryptUnprotectData OPTIONAL_ENTROPY ciphertext)

/-- A copied output is the output of the platform, and is not empty. -/
@[simp] theorem copyOutput_eq_ok {failed : ProtectedBlobError} {output : Option Octets}
    {copied : Octets} : copyOutput failed output = .ok copied ↔
      output = some copied ∧ copied ≠ [] := by
  rcases output with _ | _ | ⟨byte, rest⟩
  · simp [copyOutput]
  · simp only [copyOutput, reduceCtorEq, Option.some.injEq, false_iff, not_and, not_not]
    exact Eq.symm
  · simp only [copyOutput, Except.ok.injEq, Option.some.injEq, iff_self_and]
    rintro rfl
    exact List.cons_ne_nil _ _

/-- What a successful protection says about its input and output. -/
theorem protectLocal_eq_ok {dpapi : Dpapi} {salt : dpapi.Salt} {plaintext blob : Octets} :
    protectLocal dpapi salt plaintext = .ok blob ↔
      plaintext ≠ [] ∧ plaintext.length ≤ MAX_PROTECTED_PLAINTEXT_BYTES ∧
        dpapi.cryptProtectData salt OPTIONAL_ENTROPY plaintext = some blob ∧ blob ≠ [] := by
  unfold protectLocal
  split_ifs with empty large
  · simp [List.length_eq_zero_iff.mp empty]
  · simp only [false_iff, not_and]
    omega
  · rw [copyOutput_eq_ok]
    rw [List.length_eq_zero_iff] at empty
    exact ⟨fun copied => ⟨empty, by omega, copied⟩, fun parts => parts.2.2⟩

/-- What a successful opening says about its input and output. -/
theorem unprotectLocal_eq_ok {dpapi : Dpapi} {ciphertext plain : Octets} :
    unprotectLocal dpapi ciphertext = .ok plain ↔
      ciphertext ≠ [] ∧ ciphertext.length ≤ MAX_PROTECTED_PLAINTEXT_BYTES * 2 ∧
        dpapi.cryptUnprotectData OPTIONAL_ENTROPY ciphertext = some plain ∧ plain ≠ [] := by
  unfold unprotectLocal
  split_ifs with empty large
  · simp [List.length_eq_zero_iff.mp empty]
  · simp only [false_iff, not_and]
    omega
  · rw [copyOutput_eq_ok]
    rw [List.length_eq_zero_iff] at empty
    exact ⟨fun copied => ⟨empty, by omega, copied⟩, fun parts => parts.2.2⟩

/-- On an authentic platform a protected plaintext is read back. -/
theorem unprotectLocal_protectLocal {dpapi : Dpapi} (authentic : dpapi.Authentic)
    {salt : dpapi.Salt} {plaintext blob : Octets}
    (guarded : protectLocal dpapi salt plaintext = .ok blob) :
    unprotectLocal dpapi blob = .ok plaintext := by
  obtain ⟨nonempty, small, made, written⟩ := protectLocal_eq_ok.mp guarded
  have overhead := authentic.overhead made
  exact unprotectLocal_eq_ok.mpr ⟨written, by omega, authentic.opens made, nonempty⟩

theorem length_protectLocal {dpapi : Dpapi} (authentic : dpapi.Authentic) {salt : dpapi.Salt}
    {plaintext blob : Octets} (guarded : protectLocal dpapi salt plaintext = .ok blob) :
    blob.length < 2 ^ 32 := by
  obtain ⟨_, small, made, _⟩ := protectLocal_eq_ok.mp guarded
  have overhead := authentic.overhead made
  simp only [MAX_PROTECTED_PLAINTEXT_BYTES] at small overhead
  omega

/-! ## The context of a chunk -/

/-- The text which names a chunk. -/
def chunkName (kind id : String) (index count : Nat) : String :=
  kind ++ "/" ++ id ++ "/" ++ toString index ++ "/" ++ toString count

/-- The bytes before the content of a chunk: its name, and NUL. -/
def chunkContext (kind id : String) (index count : Nat) : Octets :=
  utf8 (chunkName kind id index count ++ "\x00")

/-! ## Seal and open -/

/-- The content of the chunk at an index. -/
def chunkAt (bytes : Octets) (index : Nat) : Octets := (bytes.drop (index * CHUNK)).take CHUNK

/-- The number of chunks of a body: an empty one has one chunk as well. -/
def chunkCount (bytes : Octets) : Nat := (max bytes.length 1 + CHUNK - 1) / CHUNK

/-- The protected blob of one chunk. -/
def protectChunk (dpapi : Dpapi) (salts : Nat → dpapi.Salt) (kind id : String) (bytes : Octets)
    (index : Nat) : Except String Octets :=
  match protectLocal dpapi (salts index)
      (chunkContext kind id index (chunkCount bytes) ++ chunkAt bytes index) with
  | .error _ => .error "local_encryption_failed"
  | .ok blob => .ok blob

/-- The magic bytes and the number of chunks. -/
def header (count : Nat) : Octets := utf8 "LAWEB1" ++ littleEndian 4 count

/-- Split a body into chunks and protect each. The salts are those which the platform draws. -/
def sealBody (dpapi : Dpapi) (salts : Nat → dpapi.Salt) (kind id : String) (bytes : Octets) :
    Except String Octets := do
  refuseIf (MAX_OBJECT < bytes.length) "object_too_large"
  let output ← gather
    (fun index => do
      let blob ← protectChunk dpapi salts kind id bytes index
      pure (frame blob))
    (List.range (chunkCount bytes))
  pure (header (chunkCount bytes) ++ output)

/-- Every refusal of `openBody`. -/
def invalidEnvelope {α : Type} : Except String α := .error "encrypted_object_invalid"

/-- Read the `left` last chunks of `number`. -/
def openChunks (dpapi : Dpapi) (kind id : String) (number : Nat) :
    Nat → Octets → Octets → Except String Octets
  | 0, rest, plain => if rest = [] then .ok plain else invalidEnvelope
  | left + 1, rest, plain =>
      match takeFrame rest with
      | none => invalidEnvelope
      | some (slice, rest) =>
          match unprotectLocal dpapi slice with
          | .error _ => invalidEnvelope
          | .ok chunk =>
              let context := chunkContext kind id (number - (left + 1)) number
              if context.isPrefixOf chunk then
                let plain := plain ++ chunk.drop context.length
                if MAX_OBJECT < plain.length then invalidEnvelope
                else openChunks dpapi kind id number left rest plain
              else invalidEnvelope

/-- Open the envelope of an object: every chunk must open and carry the context of its place. -/
def openBody (dpapi : Dpapi) (kind id : String) (bytes : Octets) : Except String Octets :=
  if bytes.length < 10 ∨ bytes.take 6 ≠ utf8 "LAWEB1" then invalidEnvelope
  else
    let number := ofLittleEndian ((bytes.drop 6).take 4)
    if number = 0 ∨ (MAX_OBJECT + CHUNK - 1) / CHUNK < number then invalidEnvelope
    else openChunks dpapi kind id number number (bytes.drop 10) []

/-! ## Chunks of a body -/

/-- The chunks of a body in order are the body. -/
theorem flatMap_chunkAt (bytes : Octets) (count : Nat) :
    (List.range count).flatMap (chunkAt bytes) = bytes.take (count * CHUNK) := by
  induction count with
  | zero => simp
  | succ count inductionHypothesis =>
      have last : bytes.take (count * CHUNK + CHUNK) =
          bytes.take (count * CHUNK) ++ (bytes.drop (count * CHUNK)).take CHUNK := List.take_add
      rw [List.range_succ, List.flatMap_append, inductionHypothesis, Nat.succ_mul, last]
      simp [chunkAt]

theorem length_le_chunkCount (bytes : Octets) : bytes.length ≤ chunkCount bytes * CHUNK := by
  simp only [chunkCount, CHUNK]
  omega

theorem flatMap_chunkAt_chunkCount (bytes : Octets) :
    (List.range (chunkCount bytes)).flatMap (chunkAt bytes) = bytes := by
  rw [flatMap_chunkAt, List.take_of_length_le (length_le_chunkCount bytes)]

theorem chunkCount_pos (bytes : Octets) : 0 < chunkCount bytes := by
  simp only [chunkCount, CHUNK]
  omega

/-- A body of the admitted size has at most the chunks which `openBody` accepts. -/
theorem chunkCount_le {bytes : Octets} (small : bytes.length ≤ MAX_OBJECT) :
    chunkCount bytes ≤ (MAX_OBJECT + CHUNK - 1) / CHUNK := by
  simp only [chunkCount, CHUNK, MAX_OBJECT] at small ⊢
  omega

/-! ## Which names a context tells apart -/

/-- A kind of the service: it has no separator, and is not the marker of summaries. -/
def PlainKind (kind : String) : Prop :=
  '/' ∉ kind.toList ∧ '\x00' ∉ kind.toList ∧ kind ≠ "summary"

/-- `summary_kind`: the kind under which a summary is sealed. -/
def summaryKind (kind : String) : String := "summary/" ++ kind

/-- The addresses which the store seals: objects, and the summaries of objects. -/
def Admitted (kind id : String) : Prop :=
  (PlainKind kind ∨ ∃ base, PlainKind base ∧ kind = summaryKind base) ∧ '\x00' ∉ id.toList

theorem digit_of_mem_toString {number : Nat} {character : Char}
    (member : character ∈ (toString number).toList) : character.isDigit := by
  rw [Nat.toString_eq_repr, Nat.toList_repr] at member
  exact Nat.isDigit_of_mem_toDigits (by decide) (by decide) member

theorem toString_injective {first second : Nat} (same : toString first = toString second) :
    first = second := by
  rw [Nat.toString_eq_repr, Nat.toString_eq_repr] at same
  have digits : Nat.toDigits 10 first = Nat.toDigits 10 second := by
    rw [← Nat.toList_repr, ← Nat.toList_repr, same]
  rw [← Nat.ofDigitChars_ten_toDigits (n := first), digits, Nat.ofDigitChars_ten_toDigits]

theorem toList_chunkName (kind id : String) (index count : Nat) :
    (chunkName kind id index count).toList = kind.toList ++ '/' ::
      (id.toList ++ '/' :: (toString index).toList) ++ '/' :: (toString count).toList := by
  simp [chunkName]

/-- The name of a chunk without NUL. -/
theorem nul_notMem_chunkName {kind id : String} (admitted : Admitted kind id)
    (index count : Nat) : '\x00' ∉ (chunkName kind id index count).toList := by
  have digits : ∀ number : Nat, '\x00' ∉ (toString number).toList := by
    intro number member
    exact absurd (digit_of_mem_toString member) (by decide)
  have kindPlain : '\x00' ∉ kind.toList := by
    obtain ⟨⟨_, plain, _⟩ | ⟨base, ⟨_, plain, _⟩, rfl⟩, _⟩ := admitted
    · exact plain
    · simpa [summaryKind] using plain
  simp only [toList_chunkName, List.mem_append, List.mem_cons, not_or]
  exact ⟨⟨kindPlain, by decide, admitted.2, by decide, digits index⟩, by decide, digits count⟩

/-- An object and its kind are read off the text `kind/id`. -/
theorem admitted_injective {kind id kind' id' : String} (admitted : Admitted kind id)
    (admitted' : Admitted kind' id')
    (same : kind.toList ++ '/' :: id.toList = kind'.toList ++ '/' :: id'.toList) :
    kind = kind' ∧ id = id' := by
  have marker : '/' ∉ "summary".toList := by decide
  have spell : ∀ base : String, (summaryKind base).toList = "summary".toList ++ '/' :: base.toList := by
    intro base
    simp [summaryKind]
  obtain ⟨⟨noSlash, _, notSummary⟩ | ⟨base, ⟨noSlash, _, _⟩, rfl⟩, _⟩ := admitted <;>
    obtain ⟨⟨noSlash', _, notSummary'⟩ | ⟨base', ⟨noSlash', _, _⟩, rfl⟩, _⟩ := admitted'
  · obtain ⟨kinds, ids⟩ := append_cons_inj_of_notMem_left noSlash noSlash' same
    exact ⟨String.toList_inj.mp kinds, String.toList_inj.mp ids⟩
  · rw [spell, List.append_assoc] at same
    obtain ⟨kinds, _⟩ := append_cons_inj_of_notMem_left noSlash marker same
    exact absurd (String.toList_inj.mp kinds) notSummary
  · rw [spell, List.append_assoc] at same
    obtain ⟨kinds, _⟩ := append_cons_inj_of_notMem_left marker noSlash' same
    exact absurd (String.toList_inj.mp kinds).symm notSummary'
  · rw [spell, spell, List.append_assoc, List.append_assoc] at same
    obtain ⟨_, rests⟩ := append_cons_inj_of_notMem_left marker marker same
    obtain ⟨kinds, ids⟩ := append_cons_inj_of_notMem_left noSlash noSlash' rests
    exact ⟨by rw [String.toList_inj.mp kinds], String.toList_inj.mp ids⟩

/-- The name of a chunk determines the object, the index and the number of chunks. -/
theorem chunkName_injective {kind id kind' id' : String} {index count index' count' : Nat}
    (admitted : Admitted kind id) (admitted' : Admitted kind' id')
    (same : chunkName kind id index count = chunkName kind' id' index' count') :
    (kind = kind' ∧ id = id') ∧ index = index' ∧ count = count' := by
  have digits : ∀ number : Nat, '/' ∉ (toString number).toList := by
    intro number member
    exact absurd (digit_of_mem_toString member) (by decide)
  have spelled := congrArg String.toList same
  rw [toList_chunkName, toList_chunkName] at spelled
  obtain ⟨fronts, counts⟩ := append_cons_inj_of_notMem_right (digits count) (digits count') spelled
  rw [← List.cons_append, ← List.append_assoc, ← List.cons_append, ← List.append_assoc] at fronts
  obtain ⟨addresses, indexes⟩ :=
    append_cons_inj_of_notMem_right (digits index) (digits index') fronts
  exact ⟨admitted_injective admitted admitted' addresses,
    toString_injective (String.toList_inj.mp indexes),
    toString_injective (String.toList_inj.mp counts)⟩

/-- A chunk says where it belongs: its context is the only one which it can be read under. -/
theorem chunkContext_append_injective {kind id kind' id' : String}
    {index count index' count' : Nat} {piece piece' : Octets} (admitted : Admitted kind id)
    (admitted' : Admitted kind' id')
    (same : chunkContext kind id index count ++ piece =
      chunkContext kind' id' index' count' ++ piece') :
    ((kind = kind' ∧ id = id') ∧ index = index' ∧ count = count') ∧ piece = piece' := by
  have nul : utf8 "\x00" = [0] := by decide
  simp only [chunkContext, utf8_append, nul, List.append_assoc, List.singleton_append] at same
  obtain ⟨names, pieces⟩ := append_cons_inj_of_notMem_left
    (zero_notMem_utf8 (nul_notMem_chunkName admitted index count))
    (zero_notMem_utf8 (nul_notMem_chunkName admitted' index' count')) same
  exact ⟨chunkName_injective admitted admitted' (utf8_injective names), pieces⟩

end LawyerAssistance.Storage

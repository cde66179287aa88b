import LawyerAssistance.Std.Base64

/-!
# Base64 with the standard alphabet

Three bytes are four letters; one or two bytes at the end are two or three letters with the
padding which completes the four. Decoding refuses other letters, other padding and bits which no
byte uses.
-/

namespace LawyerAssistance.Base64

open Base64Url (decodeValues ofNat_eq)

/-- The letters, by their values. -/
def alphabet : List Char :=
  "ABCDEFGHIJKLMNOPQRSTUVWXYZabcdefghijklmnopqrstuvwxyz0123456789+/".toList

/-- The letter of a value below 64. -/
def letter (value : Nat) : Char := alphabet.getD value 'A'

/-- The value of a letter. -/
def value? (character : Char) : Option Nat := alphabet.idxOf? character

/-- The values of some bytes, each below 64. -/
@[grind =] def values : Octets → List Nat
  | [] => []
  | [first] => [first.toNat / 4, first.toNat % 4 * 16]
  | [first, second] =>
      [first.toNat / 4, first.toNat % 4 * 16 + second.toNat / 16, second.toNat % 16 * 4]
  | first :: second :: third :: rest =>
      first.toNat / 4 :: (first.toNat % 4 * 16 + second.toNat / 16) ::
        (second.toNat % 16 * 4 + third.toNat / 64) :: third.toNat % 64 :: values rest

/-- What completes the last letters of some bytes to four. -/
def padding (count : Nat) : List Char := List.replicate ((3 - count % 3) % 3) '='

/-- The text of some bytes. -/
def encode (bytes : Octets) : List Char := (values bytes).map letter ++ padding bytes.length

/-- A text without its padding. -/
def body (text : List Char) : List Char :=
  match text.reverse with
  | '=' :: '=' :: rest => rest.reverse
  | '=' :: rest => rest.reverse
  | _ => text

/-- The bytes of a text. -/
def decode (text : List Char) : Option Octets :=
  if text.length % 4 = 0 then ((body text).mapM value?).bind decodeValues else none

/-- Every value has its own letter, which is neither padding, nor a quotation mark, nor a control
character. -/
theorem letter_spec {value : Nat} (small : value < 64) :
    value? (letter value) = some value ∧ letter value ≠ '=' ∧ letter value ≠ '"' ∧
      letter value ≠ '\\' ∧ 0x20 ≤ (letter value).toNat ∧ (letter value).toNat < 0x7F := by
  have spelled : alphabet = _ := String.toList_ofList
  have each : ∀ value < 64, value? (letter value) = some value ∧ letter value ≠ '=' ∧
      letter value ≠ '"' ∧ letter value ≠ '\\' ∧ 0x20 ≤ (letter value).toNat ∧
      (letter value).toNat < 0x7F := by
    simp only [value?, letter, spelled]
    decide
  exact each value small

theorem value?_letter {value : Nat} (small : value < 64) : value? (letter value) = some value :=
  (letter_spec small).1

theorem letter_ne_padding {value : Nat} (small : value < 64) : letter value ≠ '=' :=
  (letter_spec small).2.1

theorem letter_plain {value : Nat} (small : value < 64) :
    letter value ≠ '"' ∧ letter value ≠ '\\' ∧ 0x20 ≤ (letter value).toNat ∧
      (letter value).toNat < 0x7F :=
  (letter_spec small).2.2

/-- The values of bytes are small. -/
theorem values_lt (bytes : Octets) : ∀ value ∈ values bytes, value < 64 := by
  induction bytes using values.induct with
  | case1 => exact fun _ among => (nomatch among)
  | case2 first =>
      have small : first.toNat < 256 := first.toNat_lt
      simp only [values, List.forall_mem_cons]
      exact ⟨by omega, by omega, fun _ among => (nomatch among)⟩
  | case3 first second =>
      have small : first.toNat < 256 := first.toNat_lt
      have small' : second.toNat < 256 := second.toNat_lt
      simp only [values, List.forall_mem_cons]
      exact ⟨by omega, by omega, by omega, fun _ among => (nomatch among)⟩
  | case4 first second third rest inductionHypothesis =>
      have small : first.toNat < 256 := first.toNat_lt
      have small' : second.toNat < 256 := second.toNat_lt
      have small'' : third.toNat < 256 := third.toNat_lt
      simp only [values, List.forall_mem_cons]
      exact ⟨by omega, by omega, by omega, by omega, inductionHypothesis⟩

/-- The number of values of some bytes. -/
theorem length_values (bytes : Octets) : (values bytes).length = (4 * bytes.length + 2) / 3 := by
  induction bytes using values.induct with
  | case1 => rfl
  | case2 first => rw [values, List.length_cons, List.length_cons, List.length_nil,
      List.length_singleton]
  | case3 first second => rw [values, List.length_cons, List.length_cons, List.length_cons,
      List.length_nil, List.length_cons, List.length_singleton]
  | case4 first second third rest inductionHypothesis =>
      rw [values, List.length_cons, List.length_cons, List.length_cons, List.length_cons,
        inductionHypothesis, List.length_cons, List.length_cons, List.length_cons]
      omega

theorem length_encode (bytes : Octets) : (encode bytes).length = (bytes.length + 2) / 3 * 4 := by
  rw [encode, List.length_append, List.length_map, length_values, padding, List.length_replicate]
  omega

/-- The values of bytes are decoded. -/
theorem decodeValues_values (bytes : Octets) : decodeValues (values bytes) = some bytes := by
  induction bytes using values.induct with
  | case1 => rfl
  | case2 first =>
      have small : first.toNat < 256 := first.toNat_lt
      rw [values, decodeValues, if_pos (by omega), @ofNat_eq first _ (by omega)]
  | case3 first second =>
      have small : first.toNat < 256 := first.toNat_lt
      have small' : second.toNat < 256 := second.toNat_lt
      rw [values, decodeValues, if_pos (by omega), @ofNat_eq first _ (by omega),
        @ofNat_eq second _ (by omega)]
  | case4 first second third rest inductionHypothesis =>
      have small : first.toNat < 256 := first.toNat_lt
      have small' : second.toNat < 256 := second.toNat_lt
      have small'' : third.toNat < 256 := third.toNat_lt
      rw [values, decodeValues, inductionHypothesis, Option.map_some,
        @ofNat_eq first _ (by omega), @ofNat_eq second _ (by omega),
        @ofNat_eq third _ (by omega)]

/-- Letters are read as their values. -/
theorem mapM_value?_letter {numbers : List Nat} (small : ∀ value ∈ numbers, value < 64) :
    (numbers.map letter).mapM value? = some numbers := by
  induction numbers with
  | nil => rfl
  | cons value rest inductionHypothesis =>
      rw [List.forall_mem_cons] at small
      rw [List.map_cons, List.mapM_cons, value?_letter small.1, inductionHypothesis small.2]
      rfl

/-- Letters end in no padding. -/
theorem body_letters {letters : List Char} (plain : '=' ∉ letters) : body letters = letters := by
  rw [body]
  have reversed : '=' ∉ letters.reverse := fun among => plain (List.mem_reverse.mp among)
  split
  · rename_i same
    exact absurd (same ▸ List.mem_cons_self) reversed
  · rename_i same
    exact absurd (same ▸ List.mem_cons_self) reversed
  · rfl

/-- The padding behind letters is removed. -/
theorem body_append_padding {letters : List Char} (plain : '=' ∉ letters) (count : Nat) :
    body (letters ++ padding count) = letters := by
  have small : (3 - count % 3) % 3 = 0 ∨ (3 - count % 3) % 3 = 1 ∨ (3 - count % 3) % 3 = 2 := by
    omega
  rw [padding]
  obtain none | one | two := small
  · rw [none, List.replicate_zero, List.append_nil]
    exact body_letters plain
  · rw [one, body, List.reverse_append]
    cases reversed : letters.reverse with
    | nil =>
        rw [List.reverse_eq_nil_iff.mp reversed]
        rfl
    | cons last others =>
        have apart : last ≠ '=' := fun same =>
          plain (List.mem_reverse.mp (reversed ▸ same ▸ List.mem_cons_self))
        have back : letters = (last :: others).reverse := by rw [← reversed, List.reverse_reverse]
        simp only [List.replicate_one, List.reverse_singleton, List.singleton_append]
        split
        · rename_i same
          cases same
          exact absurd rfl apart
        · rename_i same
          cases same
          exact back.symm
        · rename_i other
          exact absurd rfl (other _)
  · rw [two, body, List.reverse_append]
    exact List.reverse_reverse letters

/-- What is encoded is decoded. -/
theorem decode_encode (bytes : Octets) : decode (encode bytes) = some bytes := by
  have plain : '=' ∉ (values bytes).map letter := by
    intro among
    obtain ⟨value, inside, same⟩ := List.mem_map.mp among
    exact letter_ne_padding (values_lt bytes value inside) same
  rw [decode, length_encode, if_pos (Nat.mul_mod_left _ _), encode, body_append_padding plain,
    mapM_value?_letter (values_lt bytes)]
  exact decodeValues_values bytes

theorem encode_ne_nil {bytes : Octets} (nonempty : bytes ≠ []) : encode bytes ≠ [] := by
  intro same
  have length := length_encode bytes
  rw [same, List.length_nil] at length
  have positive := List.length_pos_of_ne_nil nonempty
  omega

/-- A character of an encoding is a letter or padding. -/
theorem mem_encode {bytes : Octets} {character : Char} (among : character ∈ encode bytes) :
    character ≠ '"' ∧ character ≠ '\\' ∧ 0x20 ≤ character.toNat ∧ character.toNat < 0x7F := by
  rw [encode, List.mem_append] at among
  obtain among | among := among
  · obtain ⟨value, inside, rfl⟩ := List.mem_map.mp among
    exact letter_plain (values_lt bytes value inside)
  · rw [(List.mem_replicate.mp among).2]
    decide

end LawyerAssistance.Base64

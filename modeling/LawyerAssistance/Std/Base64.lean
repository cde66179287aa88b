import LawyerAssistance.Std.Bytes
import Mathlib.Data.List.Basic

/-!
# Base64 with the URL alphabet

Three bytes are four letters; one or two bytes at the end are two or three letters,
without padding. Decoding refuses other letters, a single letter at the end, and bits
which no byte uses.
-/

namespace LawyerAssistance.Base64Url

/-- The letters, by their values. -/
def alphabet : List Char :=
  "ABCDEFGHIJKLMNOPQRSTUVWXYZabcdefghijklmnopqrstuvwxyz0123456789-_".toList

/-- The letter of a value below 64. -/
def letter (value : Nat) : Char := alphabet.getD value 'A'

/-- The value of a letter. -/
def value? (character : Char) : Option Nat := alphabet.idxOf? character

/-- The letters of some bytes. -/
def encodeLetters : Octets → List Char
  | [] => []
  | [first] => [letter (first.toNat / 4), letter (first.toNat % 4 * 16)]
  | [first, second] =>
      [letter (first.toNat / 4), letter (first.toNat % 4 * 16 + second.toNat / 16),
        letter (second.toNat % 16 * 4)]
  | first :: second :: third :: rest =>
      letter (first.toNat / 4) :: letter (first.toNat % 4 * 16 + second.toNat / 16) ::
        letter (second.toNat % 16 * 4 + third.toNat / 64) :: letter (third.toNat % 64) ::
          encodeLetters rest

/-- The bytes of some values. -/
def decodeValues : List Nat → Option Octets
  | [] => some []
  | [_] => none
  | [first, second] =>
      if second % 16 = 0 then some [UInt8.ofNat (first * 4 + second / 16)] else none
  | [first, second, third] =>
      if third % 4 = 0 then
        some [UInt8.ofNat (first * 4 + second / 16), UInt8.ofNat (second % 16 * 16 + third / 4)]
      else none
  | first :: second :: third :: fourth :: rest =>
      (decodeValues rest).map fun bytes =>
        UInt8.ofNat (first * 4 + second / 16) :: UInt8.ofNat (second % 16 * 16 + third / 4) ::
          UInt8.ofNat (third % 4 * 64 + fourth) :: bytes

/-- The text of some bytes. -/
def encode (bytes : Octets) : String := String.ofList (encodeLetters bytes)

/-- The bytes of a text. -/
def decode (text : String) : Option Octets := (text.toList.mapM value?).bind decodeValues

theorem value?_letter {value : Nat} (small : value < 64) : value? (letter value) = some value := by
  have spelled : alphabet = _ := String.toList_ofList
  have each : ∀ value < 64, value? (letter value) = some value := by
    simp only [value?, letter, spelled]
    decide
  exact each value small

theorem letter_mem_alphabet (value : Nat) : letter value ∈ alphabet := by
  have spelled : alphabet = _ := String.toList_ofList
  rw [letter, List.getD_eq_getElem?_getD]
  cases found : alphabet[value]? with
  | none =>
      rw [spelled]
      decide
  | some letter => exact List.mem_of_getElem? found

/-- The letters of bytes are letters of the alphabet. -/
theorem mem_encodeLetters {bytes : Octets} {character : Char}
    (among : character ∈ encodeLetters bytes) : character ∈ alphabet := by
  induction bytes using encodeLetters.induct with
  | case1 => cases among
  | case2 first =>
      simp only [encodeLetters, List.mem_cons, List.not_mem_nil, or_false] at among
      rcases among with rfl | rfl <;> exact letter_mem_alphabet _
  | case3 first second =>
      simp only [encodeLetters, List.mem_cons, List.not_mem_nil, or_false] at among
      rcases among with rfl | rfl | rfl <;> exact letter_mem_alphabet _
  | case4 first second third rest inductionHypothesis =>
      simp only [encodeLetters, List.mem_cons] at among
      rcases among with rfl | rfl | rfl | rfl | behind
      · exact letter_mem_alphabet _
      · exact letter_mem_alphabet _
      · exact letter_mem_alphabet _
      · exact letter_mem_alphabet _
      · exact inductionHypothesis behind

theorem ascii_of_mem {character : Char} (among : character ∈ alphabet) :
    character.toNat < 128 := by
  have spelled : alphabet = _ := String.toList_ofList
  have each : alphabet.all (fun character => decide (character.toNat < 128)) = true := by
    rw [spelled]
    decide
  exact of_decide_eq_true (List.all_eq_true.mp each character among)

theorem ofNat_eq {byte : UInt8} {number : Nat} (same : number = byte.toNat) :
    UInt8.ofNat number = byte := by
  rw [same, UInt8.ofNat_toNat]

/-- What is encoded is decoded. -/
theorem decode_encode (bytes : Octets) : decode (encode bytes) = some bytes := by
  rw [decode, encode, String.toList_ofList]
  induction bytes using encodeLetters.induct with
  | case1 => rfl
  | case2 first =>
      have small : first.toNat < 256 := first.toNat_lt
      simp only [encodeLetters, List.mapM_cons, List.mapM_nil,
        value?_letter (show first.toNat / 4 < 64 by omega),
        value?_letter (show first.toNat % 4 * 16 < 64 by omega)]
      simp only [Option.pure_def, Option.bind_eq_bind, Option.bind_some, decodeValues]
      rw [if_pos (by omega), @ofNat_eq first _ (by omega)]
  | case3 first second =>
      have small : first.toNat < 256 := first.toNat_lt
      have small' : second.toNat < 256 := second.toNat_lt
      simp only [encodeLetters, List.mapM_cons, List.mapM_nil,
        value?_letter (show first.toNat / 4 < 64 by omega),
        value?_letter (show first.toNat % 4 * 16 + second.toNat / 16 < 64 by omega),
        value?_letter (show second.toNat % 16 * 4 < 64 by omega)]
      simp only [Option.pure_def, Option.bind_eq_bind, Option.bind_some, decodeValues]
      rw [if_pos (by omega), @ofNat_eq first _ (by omega), @ofNat_eq second _ (by omega)]
  | case4 first second third rest inductionHypothesis =>
      have small : first.toNat < 256 := first.toNat_lt
      have small' : second.toNat < 256 := second.toNat_lt
      have small'' : third.toNat < 256 := third.toNat_lt
      obtain ⟨values, valued, decoded⟩ := Option.bind_eq_some_iff.mp inductionHypothesis
      simp only [encodeLetters, List.mapM_cons, valued,
        value?_letter (show first.toNat / 4 < 64 by omega),
        value?_letter (show first.toNat % 4 * 16 + second.toNat / 16 < 64 by omega),
        value?_letter (show second.toNat % 16 * 4 + third.toNat / 64 < 64 by omega),
        value?_letter (show third.toNat % 64 < 64 by omega)]
      simp only [Option.pure_def, Option.bind_eq_bind, Option.bind_some, decodeValues, decoded,
        Option.map_some]
      rw [@ofNat_eq first _ (by omega), @ofNat_eq second _ (by omega),
        @ofNat_eq third _ (by omega)]

theorem letter_of_value? {character : Char} {value : Nat} (valued : value? character = some value) :
    letter value = character ∧ value < 64 := by
  have spelled : alphabet = _ := String.toList_ofList
  have long : alphabet.length = 64 := by
    rw [spelled]
    decide
  rw [value?, List.idxOf?, List.findIdx?_eq_some_iff_getElem] at valued
  obtain ⟨inside, same, _⟩ := valued
  refine ⟨?_, long ▸ inside⟩
  rw [letter, List.getD_eq_getElem?_getD, List.getElem?_eq_getElem inside, Option.getD_some]
  exact beq_iff_eq.mp same

/-- The values of letters are those of the letters. -/
theorem map_letter_of_mapM {characters : List Char} {values : List Nat}
    (valued : characters.mapM value? = some values) :
    characters = values.map letter ∧ ∀ value ∈ values, value < 64 := by
  induction characters generalizing values with
  | nil =>
      cases valued
      exact ⟨rfl, by simp⟩
  | cons character rest inductionHypothesis =>
      rw [List.mapM_cons] at valued
      obtain ⟨value, first, valued⟩ := Option.bind_eq_some_iff.mp valued
      obtain ⟨others, behind, same⟩ := Option.bind_eq_some_iff.mp valued
      cases same
      obtain ⟨spelled, small⟩ := letter_of_value? first
      obtain ⟨rfl, bounded⟩ := inductionHypothesis behind
      exact ⟨by rw [List.map_cons, spelled], List.forall_mem_cons.mpr ⟨small, bounded⟩⟩

theorem toNat_ofNat {number : Nat} (small : number < 256) : (UInt8.ofNat number).toNat = number :=
  UInt8.toNat_ofNat_of_lt' small

/-- The bytes of values are encoded with the letters of the values. -/
theorem encodeLetters_decodeValues {values : List Nat} {bytes : Octets}
    (small : ∀ value ∈ values, value < 64) (decoded : decodeValues values = some bytes) :
    encodeLetters bytes = values.map letter := by
  induction values using decodeValues.induct generalizing bytes with
  | case1 =>
      cases decoded
      rfl
  | case2 => cases decoded
  | case3 first second even =>
      simp only [List.forall_mem_cons] at small
      rw [decodeValues, if_pos even] at decoded
      cases decoded
      rw [encodeLetters, toNat_ofNat (by omega)]
      simp only [List.map_cons, List.map_nil, List.cons.injEq, and_true]
      exact ⟨congrArg letter (by omega), congrArg letter (by omega)⟩
  | case4 first second odd =>
      rw [decodeValues, if_neg odd] at decoded
      cases decoded
  | case5 first second third even =>
      simp only [List.forall_mem_cons] at small
      rw [decodeValues, if_pos even] at decoded
      cases decoded
      rw [encodeLetters, toNat_ofNat (by omega), toNat_ofNat (by omega)]
      simp only [List.map_cons, List.map_nil, List.cons.injEq, and_true]
      exact ⟨congrArg letter (by omega), congrArg letter (by omega), congrArg letter (by omega)⟩
  | case6 first second third odd =>
      rw [decodeValues, if_neg odd] at decoded
      cases decoded
  | case7 first second third fourth rest inductionHypothesis =>
      simp only [List.forall_mem_cons] at small
      rw [decodeValues] at decoded
      obtain ⟨others, behind, same⟩ := Option.map_eq_some_iff.mp decoded
      cases same
      rw [encodeLetters, toNat_ofNat (by omega), toNat_ofNat (by omega), toNat_ofNat (by omega),
        inductionHypothesis small.2.2.2.2 behind]
      simp only [List.map_cons, List.cons.injEq, and_true]
      exact ⟨congrArg letter (by omega), congrArg letter (by omega), congrArg letter (by omega),
        congrArg letter (by omega)⟩

theorem encodeLetters_of_decode {characters : List Char} {bytes : Octets}
    (decoded : decode (String.ofList characters) = some bytes) :
    encodeLetters bytes = characters := by
  rw [decode, String.toList_ofList] at decoded
  obtain ⟨values, valued, decoded⟩ := Option.bind_eq_some_iff.mp decoded
  obtain ⟨spelled, small⟩ := map_letter_of_mapM valued
  rw [encodeLetters_decodeValues small decoded, spelled]
end LawyerAssistance.Base64Url

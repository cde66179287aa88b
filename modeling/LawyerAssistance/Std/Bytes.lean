import Mathlib.Algebra.Group.Int.Defs
import Mathlib.Algebra.GroupWithZero.Nat
import Mathlib.Data.List.Basic

/-!
# Bytes

The UTF-8 bytes of a text, little-endian numbers of a fixed width and frames: byte
strings behind their length. A frame read from the front of a stream is the frame which
was written there.
-/

namespace LawyerAssistance

/-- Raw bytes. -/
abbrev Octets := List UInt8

/-! ## Texts -/

/-- The UTF-8 bytes of a text. -/
def utf8 (text : String) : Octets := text.toByteArray.data.toList

@[simp] theorem utf8_append (first second : String) :
    utf8 (first ++ second) = utf8 first ++ utf8 second := by
  simp [utf8]

theorem utf8_injective {first second : String} (same : utf8 first = utf8 second) :
    first = second := by
  apply String.toByteArray_inj.mp
  apply ByteArray.ext
  exact Array.toList_inj.mp same

theorem fromUTF8?_utf8 (text : String) : String.fromUTF8? ⟨(utf8 text).toArray⟩ = some text := by
  have bytes : (⟨(utf8 text).toArray⟩ : ByteArray) = text.toByteArray := by
    apply ByteArray.ext
    simp [utf8]
  rw [bytes, String.fromUTF8?, dif_pos text.isValidUTF8]
  rfl

theorem utf8_eq_flatMap (text : String) :
    utf8 text = text.toList.flatMap String.utf8EncodeChar := by
  have encoded : text.toByteArray = text.toList.utf8Encode := by simp
  simp [utf8, encoded, List.utf8Encode]

theorem utf8_ofList (characters : List Char) :
    utf8 (String.ofList characters) = characters.flatMap String.utf8EncodeChar := by
  rw [utf8_eq_flatMap, String.toList_ofList]

/-- Only the character NUL has a zero byte. -/
theorem zero_notMem_utf8EncodeChar {character : Char} (plain : character ≠ '\x00') :
    0 ∉ String.utf8EncodeChar character := by
  have positive : character.val.toNat ≠ 0 := by
    intro zero
    exact plain (Char.ext (UInt32.toNat_inj.mp zero))
  have byteNe : ∀ {number : Nat}, number % 256 ≠ 0 → (0 : UInt8) ≠ UInt8.ofNat number := by
    intro number nonzero same
    exact nonzero (by simpa using (congrArg UInt8.toNat same).symm)
  simp only [String.utf8EncodeChar]
  split_ifs <;> simp only [List.mem_cons, List.not_mem_nil, or_false, not_or]
  · exact byteNe (by omega)
  · exact ⟨byteNe (by omega), byteNe (by omega)⟩
  · exact ⟨byteNe (by omega), byteNe (by omega), byteNe (by omega)⟩
  · exact ⟨byteNe (by omega), byteNe (by omega), byteNe (by omega), byteNe (by omega)⟩

theorem zero_notMem_utf8 {text : String} (plain : '\x00' ∉ text.toList) : 0 ∉ utf8 text := by
  rw [utf8_eq_flatMap, List.mem_flatMap]
  rintro ⟨character, member, zero⟩
  exact zero_notMem_utf8EncodeChar (fun nul => plain (nul ▸ member)) zero

/-- An ASCII text has one byte for each character. -/
theorem length_utf8_of_ascii {text : String}
    (ascii : ∀ character ∈ text.toList, character.val ≤ 127) :
    (utf8 text).length = text.toList.length := by
  have single : ∀ character ∈ text.toList, (String.utf8EncodeChar character).length = 1 := by
    intro character member
    rw [String.length_utf8EncodeChar, Char.utf8Size_eq_one_iff]
    exact ascii character member
  rw [utf8_eq_flatMap, List.length_flatMap, List.map_congr_left single]
  simp

/-! ## Numbers -/

/-- The `width` lowest bytes of a number, the lowest first. -/
def littleEndian : Nat → Nat → Octets
  | 0, _ => []
  | width + 1, number => UInt8.ofNat number :: littleEndian width (number / 256)

/-- The number which bytes represent, the lowest first. -/
def ofLittleEndian : Octets → Nat
  | [] => 0
  | byte :: rest => byte.toNat + 256 * ofLittleEndian rest

@[simp] theorem length_littleEndian (width number : Nat) :
    (littleEndian width number).length = width := by
  induction width generalizing number with
  | zero => rfl
  | succ width inductionHypothesis => simp [littleEndian, inductionHypothesis]

/-- A number which fits is read back. -/
theorem ofLittleEndian_littleEndian {width number : Nat} (fits : number < 256 ^ width) :
    ofLittleEndian (littleEndian width number) = number := by
  induction width generalizing number with
  | zero =>
      have zero : number = 0 := by simpa using fits
      simp [zero, littleEndian, ofLittleEndian]
  | succ width inductionHypothesis =>
      have rest : number / 256 < 256 ^ width := by
        rw [Nat.pow_succ] at fits
        omega
      simp only [littleEndian, ofLittleEndian, inductionHypothesis rest, UInt8.toNat_ofNat']
      omega

/-- The bytes of a number are those which represent it. -/
theorem littleEndian_ofLittleEndian (bytes : Octets) :
    littleEndian bytes.length (ofLittleEndian bytes) = bytes := by
  induction bytes with
  | nil => rfl
  | cons byte rest inductionHypothesis =>
      have small : byte.toNat < 256 := byte.toNat_lt
      have head : UInt8.ofNat (byte.toNat + 256 * ofLittleEndian rest) = byte := by
        apply UInt8.toNat_inj.mp
        simp only [UInt8.toNat_ofNat']
        omega
      have tail : (byte.toNat + 256 * ofLittleEndian rest) / 256 = ofLittleEndian rest := by omega
      simp only [List.length_cons, littleEndian, ofLittleEndian, head, tail, inductionHypothesis]

theorem ofLittleEndian_lt (bytes : Octets) : ofLittleEndian bytes < 256 ^ bytes.length := by
  induction bytes with
  | nil => simp [ofLittleEndian]
  | cons byte rest inductionHypothesis =>
      have small : byte.toNat < 256 := byte.toNat_lt
      rw [ofLittleEndian, List.length_cons, Nat.pow_succ]
      omega

/-! ## Frames -/

/-- Bytes behind their length in four bytes. -/
def frame (content : Octets) : Octets := littleEndian 4 content.length ++ content

/-- The bytes of the first frame of a stream, and the stream after it. -/
def takeFrame (stream : Octets) : Option (Octets × Octets) :=
  if stream.length < 4 then none
  else
    let size := ofLittleEndian (stream.take 4)
    let rest := stream.drop 4
    if rest.length < size then none else some (rest.take size, rest.drop size)

/-- A frame at the front of a stream is read back, and the stream goes on behind it. -/
@[simp] theorem takeFrame_frame {content : Octets} (fits : content.length < 2 ^ 32)
    (rest : Octets) : takeFrame (frame content ++ rest) = some (content, rest) := by
  have size : ofLittleEndian (littleEndian 4 content.length) = content.length :=
    ofLittleEndian_littleEndian (by simpa using fits)
  have header : (frame content ++ rest).take 4 = littleEndian 4 content.length := by
    rw [frame, List.append_assoc, List.take_left' (length_littleEndian 4 _)]
  have body : (frame content ++ rest).drop 4 = content ++ rest := by
    rw [frame, List.append_assoc, List.drop_left' (length_littleEndian 4 _)]
  have long : ¬ (frame content ++ rest).length < 4 := by
    simp [frame]
  rw [takeFrame, if_neg long, header, body]
  simp [size]

/-- A frame which is read stands at the front of the stream. -/
theorem takeFrame_eq_some {stream content rest : Octets} :
    takeFrame stream = some (content, rest) ↔
      content.length < 2 ^ 32 ∧ stream = frame content ++ rest := by
  constructor
  · intro taken
    simp only [takeFrame] at taken
    split_ifs at taken with short missing
    obtain ⟨rfl, rfl⟩ := Prod.mk.inj (Option.some.inj taken)
    have width : (stream.take 4).length = 4 := by
      rw [List.length_take]
      omega
    have bound := ofLittleEndian_lt (stream.take 4)
    have written := littleEndian_ofLittleEndian (stream.take 4)
    rw [width] at bound written
    have size : ((stream.drop 4).take (ofLittleEndian (stream.take 4))).length =
        ofLittleEndian (stream.take 4) := by
      rw [List.length_take]
      omega
    refine ⟨by rw [size]; exact bound, ?_⟩
    rw [frame, size, written, List.append_assoc, List.take_append_drop, List.take_append_drop]
  · rintro ⟨fits, rfl⟩
    exact takeFrame_frame fits rest

/-- A sequence of frames determines the frames. -/
theorem flatMap_frame_injective {first second : List Octets}
    (fits : ∀ content ∈ first, content.length < 2 ^ 32)
    (fits' : ∀ content ∈ second, content.length < 2 ^ 32)
    (same : first.flatMap frame = second.flatMap frame) : first = second := by
  have empty : ∀ (content : Octets) (rest : Octets), frame content ++ rest ≠ [] := by
    intro content rest
    simp [frame, littleEndian]
  induction first generalizing second with
  | nil =>
      cases second with
      | nil => rfl
      | cons head tail => exact absurd same.symm (empty head _)
  | cons head tail inductionHypothesis =>
      cases second with
      | nil => exact absurd same (empty head _)
      | cons head' tail' =>
          rw [List.flatMap_cons, List.flatMap_cons] at same
          have taken := congrArg takeFrame same
          rw [takeFrame_frame (fits head List.mem_cons_self),
            takeFrame_frame (fits' head' List.mem_cons_self)] at taken
          obtain ⟨rfl, tails⟩ := Prod.mk.inj (Option.some.inj taken)
          rw [inductionHypothesis (fun content member => fits content (List.mem_cons_of_mem _ member))
            (fun content member => fits' content (List.mem_cons_of_mem _ member)) tails]

end LawyerAssistance

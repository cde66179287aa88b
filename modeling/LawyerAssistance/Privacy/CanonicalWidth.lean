import LawyerAssistance.Privacy.Schema
import LawyerAssistance.Std.Bytes

/-!
# Lengths of canonical encodings

A bound on the bytes of the canonical encoding of a value, which is the sum of what its parts
take. It is exact for texts, so that it bounds an encoding which consists mostly of one text.
-/

namespace LawyerAssistance.Privacy

/-! ## The bound -/

mutual

/-- A bound on the bytes of a value. -/
@[grind =] def Value.width : Value → Nat
  | .null => 4
  | .bool _ => 5
  | .number _ => 20
  | .string value => Text.byteLength (Json.quote value)
  | .array values => 2 + widthAll values
  | .object members => 2 + widthMembers members

/-- A bound on the bytes of the elements of an array, with commas. -/
@[grind =] def widthAll : List Value → Nat
  | [] => 0
  | value :: rest => value.width + 1 + widthAll rest

/-- A bound on the bytes of the members of an object, with colons and commas. -/
@[grind =] def widthMembers : List (Text × Value) → Nat
  | [] => 0
  | (key, value) :: rest =>
      Text.byteLength (Json.quote key) + 1 + value.width + 1 + widthMembers rest

end

theorem width_object (members : List (Text × Value)) :
    (Value.object members).width = 2 + widthMembers members := by rw [Value.width]

theorem widthMembers_nil : widthMembers [] = 0 := by rw [widthMembers]

theorem widthMembers_cons (key : Text) (value : Value) (rest : List (Text × Value)) :
    widthMembers ((key, value) :: rest) =
      Text.byteLength (Json.quote key) + 1 + value.width + 1 + widthMembers rest := by
  rw [widthMembers]

theorem widthMembers_append (first second : List (Text × Value)) :
    widthMembers (first ++ second) = widthMembers first + widthMembers second := by
  induction first with
  | nil => rw [List.nil_append, widthMembers, Nat.zero_add]
  | cons member rest inductionHypothesis =>
      rw [List.cons_append, widthMembers, widthMembers, inductionHypothesis]
      omega

/-- A member which is inserted takes its bytes, or takes the place of another one. -/
theorem widthMembers_insertMember (key : Text) (value : Value) (map : List (Text × Value)) :
    widthMembers (insertMember key value map) ≤
      widthMembers map + (Text.byteLength (Json.quote key) + 1 + value.width + 1) := by
  induction map with
  | nil =>
      simp only [insertMember, widthMembers]
      omega
  | cons first rest inductionHypothesis =>
      rw [insertMember]
      split_ifs with before same
      · rw [widthMembers]
        omega
      · rw [widthMembers, widthMembers]
        omega
      · rw [widthMembers, widthMembers]
        omega

/-- Members which are inserted one after another take at most their bytes. -/
theorem widthMembers_collectMembers (members : List (Text × Value)) :
    widthMembers (collectMembers members) ≤ widthMembers members := by
  rw [collectMembers]
  suffices bound : ∀ map, widthMembers
      (members.foldl (fun map member => insertMember member.1 member.2 map) map) ≤
        widthMembers map + widthMembers members by
    have bounded := bound []
    rw [widthMembers, Nat.zero_add] at bounded
    exact bounded
  induction members with
  | nil => exact fun map => by rw [List.foldl_nil, widthMembers, Nat.add_zero]
  | cons member rest inductionHypothesis =>
      intro map
      have behind := inductionHypothesis (insertMember member.1 member.2 map)
      have here := widthMembers_insertMember member.1 member.2 map
      rw [List.foldl_cons, widthMembers]
      omega

mutual

/-- Objects which become maps take no more bytes. -/
theorem width_toValue : ∀ value : Value, (toValue value).width ≤ value.width
  | .null | .bool _ | .number _ | .string _ => by rw [toValue]
  | .array values => by
      have inside := widthAll_toValues values
      rw [toValue, Value.width, Value.width]
      omega
  | .object members => by
      have inside := widthMembers_toMembers members
      have collected := widthMembers_collectMembers (toMembers members)
      rw [toValue, Value.width, Value.width]
      omega

theorem widthAll_toValues : ∀ values, widthAll (toValues values) ≤ widthAll values
  | [] => by rw [toValues]
  | value :: rest => by
      have here := width_toValue value
      have behind := widthAll_toValues rest
      rw [toValues, widthAll, widthAll]
      omega

theorem widthMembers_toMembers : ∀ members, widthMembers (toMembers members) ≤ widthMembers members
  | [] => by rw [toMembers]
  | (key, value) :: rest => by
      have here := width_toValue value
      have behind := widthMembers_toMembers rest
      rw [toMembers, widthMembers, widthMembers]
      omega

end

/-! ## Encodings -/

/-- An ASCII text takes one byte for each character. -/
theorem byteLength_of_ascii {text : Text} (ascii : ∀ character ∈ text, character.toNat < 128) :
    Text.byteLength text = text.length := by
  induction text with
  | nil => rfl
  | cons character rest inductionHypothesis =>
      rw [List.forall_mem_cons] at ascii
      have small : character.utf8Size = 1 :=
        Char.utf8Size_eq_one_iff.mpr (Nat.le_of_lt_succ ascii.1)
      rw [Text.byteLength_cons, small, inductionHypothesis ascii.2, List.length_cons, Nat.add_comm]

theorem length_utf8_ofList (text : Text) :
    (utf8 (String.ofList text)).length = Text.byteLength text := by
  rw [utf8_ofList, List.length_flatMap, Text.byteLength]
  exact congrArg List.sum (List.map_congr_left fun character _ =>
    String.length_utf8EncodeChar character)

/-- A natural number below a power of ten takes as many bytes. -/
theorem byteLength_toDigits {value count : Nat} (positive : 0 < count)
    (small : value < 10 ^ count) : Text.byteLength (Nat.toDigits 10 value) ≤ count := by
  have digits : ∀ character ∈ Nat.toDigits 10 value, character.toNat < 128 := by
    intro character among
    have digit := Nat.isDigit_of_mem_toDigits (by decide) (by decide) among
    rw [Char.isDigit, Bool.and_eq_true, decide_eq_true_eq, decide_eq_true_eq] at digit
    exact Nat.lt_of_le_of_lt digit.2 (by decide)
  rw [byteLength_of_ascii digits]
  exact (Nat.length_toDigits_le_iff (by decide) positive).mpr small

/-- A number which fits takes at most 20 bytes. -/
theorem byteLength_decimal {value : Int} (fits : Json.Fits64 value) :
    Text.byteLength (Json.decimal value) ≤ 20 := by
  obtain ⟨low, high⟩ := fits
  rw [Json.decimal]
  split_ifs with negative
  · have digits := @byteLength_toDigits value.natAbs 19 (by decide) (by omega)
    have sign : ('-' : Char).utf8Size = 1 := rfl
    rw [Text.byteLength_cons, sign]
    omega
  · exact byteLength_toDigits (by decide) (by omega)

mutual

/-- What is written of a sorted value is no longer than its bound. -/
theorem byteLength_writeCanonical : ∀ {value : Value} {text : Text}, value.Sorted →
    writeCanonical value = .ok text → Text.byteLength text ≤ value.width
  | .null, _, _, written => by
      rw [writeCanonical] at written
      cases written
      rw [Value.width]
      decide
  | .bool value, _, _, written => by
      rw [writeCanonical] at written
      cases written
      rw [Value.width]
      cases value <;> decide
  | .number (.integer value fits), _, _, written => by
      rw [writeCanonical] at written
      cases written
      rw [Value.width]
      exact byteLength_decimal fits
  | .number .float, _, _, written => by
      rw [writeCanonical] at written
      cases written
  | .string value, _, _, written => by
      rw [writeCanonical] at written
      obtain ⟨_, _, written⟩ := bind_eq_ok.mp written
      cases written
      rw [Value.width]
  | .array values, _, sorted, written => by
      rw [Value.Sorted] at sorted
      rw [writeCanonical] at written
      obtain ⟨texts, joined, written⟩ := bind_eq_ok.mp written
      cases written
      have inside := byteLength_joinElements sorted joined
      have bracket : ('[' : Char).utf8Size = 1 ∧ (']' : Char).utf8Size = 1 := ⟨rfl, rfl⟩
      rw [Value.width, Text.byteLength_cons, Text.byteLength_append, Text.byteLength_cons,
        Text.byteLength_nil, bracket.1, bracket.2]
      omega
  | .object members, _, sorted, written => by
      rw [Value.Sorted] at sorted
      rw [writeCanonical, writeMembers_sorted sorted.1] at written
      obtain ⟨texts, joined, written⟩ := bind_eq_ok.mp written
      cases written
      have inside := byteLength_joinMembers sorted.2 joined
      have bracket : ('\x7b' : Char).utf8Size = 1 ∧ ('\x7d' : Char).utf8Size = 1 := ⟨rfl, rfl⟩
      rw [Value.width, Text.byteLength_cons, Text.byteLength_append, Text.byteLength_cons,
        Text.byteLength_nil, bracket.1, bracket.2]
      omega

theorem byteLength_joinElements : ∀ {values : List Value} {texts : Text}, SortedAll values →
    joinElements (writeElements values) = .ok texts → Text.byteLength texts ≤ widthAll values
  | [], _, _, joined => by
      cases joined
      exact Nat.zero_le _
  | [value], _, sorted, joined => by
      rw [SortedAll] at sorted
      have here := byteLength_writeCanonical sorted.1 joined
      rw [widthAll]
      omega
  | value :: second :: rest, _, sorted, joined => by
      rw [SortedAll] at sorted
      obtain ⟨text, written, joined⟩ := bind_eq_ok.mp joined
      obtain ⟨others, following, joined⟩ := bind_eq_ok.mp joined
      cases joined
      have here := byteLength_writeCanonical sorted.1 written
      have behind := byteLength_joinElements sorted.2 following
      have comma : (',' : Char).utf8Size = 1 := rfl
      rw [widthAll, Text.byteLength_append, Text.byteLength_cons, comma]
      omega

theorem byteLength_joinMembers : ∀ {members : List (Text × Value)} {texts : Text},
    SortedMembers members → joinMembers (writeMembers members) = .ok texts →
      Text.byteLength texts ≤ widthMembers members
  | [], _, _, joined => by
      cases joined
      exact Nat.zero_le _
  | [(key, value)], _, sorted, joined => by
      rw [SortedMembers] at sorted
      obtain ⟨_, _, joined⟩ := bind_eq_ok.mp joined
      obtain ⟨text, written, joined⟩ := bind_eq_ok.mp joined
      cases joined
      have here := byteLength_writeCanonical sorted.1 written
      have colon : (':' : Char).utf8Size = 1 := rfl
      rw [widthMembers, Text.byteLength_append, Text.byteLength_cons, colon]
      omega
  | (key, value) :: second :: rest, _, sorted, joined => by
      rw [SortedMembers] at sorted
      obtain ⟨_, _, joined⟩ := bind_eq_ok.mp joined
      obtain ⟨text, written, joined⟩ := bind_eq_ok.mp joined
      obtain ⟨others, following, joined⟩ := bind_eq_ok.mp joined
      cases joined
      have here := byteLength_writeCanonical sorted.1 written
      have behind := byteLength_joinMembers sorted.2 following
      have colon : (':' : Char).utf8Size = 1 := rfl
      have comma : (',' : Char).utf8Size = 1 := rfl
      rw [widthMembers, Text.byteLength_append, Text.byteLength_cons, Text.byteLength_append,
        Text.byteLength_cons, colon, comma]
      omega

end

theorem length_canonicalJsonV1 {value : Value} {bytes : Octets}
    (encoded : canonicalJsonV1 value = .ok bytes) : bytes.length ≤ value.width := by
  obtain ⟨text, written, encoded⟩ := bind_eq_ok.mp encoded
  cases encoded
  rw [length_utf8_ofList]
  exact (byteLength_writeCanonical (sorted_toValue value) written).trans (width_toValue value)

/-! ## Plain texts -/

/-- A text of ASCII characters which are written as they are. -/
def PlainText (text : Text) : Prop :=
  ∀ character ∈ text, character ≠ '"' ∧ character ≠ '\\' ∧ 0x20 ≤ character.toNat ∧
    character.toNat < 0x7F

instance (text : Text) : Decidable (PlainText text) :=
  List.decidableBAll _ text

/-- A plain text takes its characters and two quotation marks. -/
theorem width_plain {text : Text} (plain : PlainText text) :
    (Value.string text).width = text.length + 2 := by
  have written : text.flatMap Json.escapeCharacter = text := by
    induction text with
    | nil => rfl
    | cons character rest inductionHypothesis =>
        rw [PlainText, List.forall_mem_cons] at plain
        obtain ⟨⟨quoted, backslash, visible, _⟩, behind⟩ := plain
        have here : Json.escapeCharacter character = [character] := by
          have apart {control : Char} (low : control.toNat < 0x20) : character ≠ control := by
            rintro rfl
            omega
          rw [Json.escapeCharacter, if_neg quoted, if_neg backslash, if_neg (apart (by decide)),
            if_neg (apart (by decide)), if_neg (apart (by decide)), if_neg (apart (by decide)),
            if_neg (apart (by decide)), if_neg (by omega)]
        rw [List.flatMap_cons, here, inductionHypothesis behind]
        rfl
  have ascii : ∀ character ∈ text, character.toNat < 128 := fun character among =>
    Nat.lt_trans (plain character among).2.2.2 (by decide)
  have mark : ('"' : Char).utf8Size = 1 := rfl
  rw [Value.width, Json.quote, written, Text.byteLength_cons, Text.byteLength_append,
    byteLength_of_ascii ascii, Text.byteLength_cons, Text.byteLength_nil, mark]
  omega

theorem printable_plain {text : Text} (plain : PlainText text) :
    text.any Text.isControl = false := by
  rw [List.any_eq_false]
  intro character among
  obtain ⟨_, _, visible, small⟩ := plain character among
  rw [Text.isControl, Bool.not_eq_true, Bool.or_eq_false_iff, Bool.and_eq_false_iff,
    decide_eq_false_iff_not, decide_eq_false_iff_not, decide_eq_false_iff_not]
  omega

theorem plain_of_isLowerHex {text : Text} (digits : text.all isLowerHex = true) :
    PlainText text := by
  intro character among
  have digit := List.all_eq_true.mp digits character among
  have range : 0x30 ≤ character.toNat ∧ character.toNat ≤ 0x66 ∧ character.toNat ≠ 0x5C := by
    rw [isLowerHex, Bool.or_eq_true, Char.isDigit, Bool.and_eq_true, Bool.and_eq_true,
      decide_eq_true_eq, decide_eq_true_eq, decide_eq_true_eq, decide_eq_true_eq] at digit
    obtain ⟨above, below⟩ | ⟨above, below⟩ := digit
    · have low : 48 ≤ character.toNat := above
      have high : character.toNat ≤ 57 := below
      omega
    · have low : 97 ≤ character.toNat := Char.le_def.mp above
      have high : character.toNat ≤ 102 := Char.le_def.mp below
      omega
  refine ⟨?_, ?_, by omega, by omega⟩
  · rintro rfl
    exact absurd range.1 (by decide)
  · rintro rfl
    exact range.2.2 rfl

/-- A valid text of digits is plain, and has the length which is asked for. -/
theorem plain_of_validLowerHex {text : Text} {length : Nat}
    (valid : validLowerHex text length = true) : PlainText text ∧ text.length = length := by
  rw [validLowerHex, Bool.and_eq_true, beq_iff_eq] at valid
  have plain := plain_of_isLowerHex valid.2
  refine ⟨plain, ?_⟩
  rw [← valid.1, byteLength_of_ascii fun character among =>
    Nat.lt_trans (plain character among).2.2.2 (by decide)]

/-- A valid identifier is plain when what it begins with is. -/
theorem plain_of_validOpaqueId {start value : Text} (plain : PlainText start)
    (valid : validOpaqueId start value = true) :
    PlainText value ∧ value.length = start.length + 32 := by
  rw [validOpaqueId] at valid
  split at valid
  next suffix found =>
    obtain rfl := List.isPrefixOf?_eq_some_iff_append_eq.mp found
    obtain ⟨behind, long⟩ := plain_of_validLowerHex valid
    refine ⟨List.forall_mem_append.mpr ⟨plain, behind⟩, ?_⟩
    rw [List.length_append, long]
  next => cases valid

theorem width_u64 (value : UInt64) : (Codec.u64.write value).width = 20 := by
  change Value.width (.number _) = 20
  rw [Value.width]

/-! ## Records which fit -/

section Fitting

universe u

variable {α β : Type u}

/-- A value which is written without control characters, and no longer than a bound. -/
def Value.Fitting (value : Value) (bound : Nat) : Prop := value.Printable ∧ value.width ≤ bound

/-- Members which are written so. -/
def FittingMembers (members : List (Text × Value)) (bound : Nat) : Prop :=
  PrintableMembers members ∧ widthMembers members ≤ bound

theorem Value.Fitting.mono {value : Value} {bound larger : Nat} (fits : value.Fitting bound)
    (below : bound ≤ larger) : value.Fitting larger :=
  ⟨fits.1, Nat.le_trans fits.2 below⟩

theorem Value.Fitting.encoded {value : Value} {bound : Nat} (fits : value.Fitting bound) :
    ∃ bytes, canonicalJsonV1 value = .ok bytes ∧ bytes.length ≤ bound := by
  obtain ⟨bytes, encoded⟩ := exists_canonicalJsonV1 fits.1
  exact ⟨bytes, encoded, Nat.le_trans (length_canonicalJsonV1 encoded) fits.2⟩

theorem fitting_string {text : Text} {bound : Nat} (plain : PlainText text)
    (short : text.length ≤ bound) : (Value.string text).Fitting (bound + 2) :=
  ⟨printable_plain plain, by rw [width_plain plain]; exact Nat.add_le_add_right short 2⟩

theorem fitting_u64 (value : UInt64) : (Codec.u64.write value).Fitting 20 :=
  ⟨trivial, Nat.le_of_eq (width_u64 value)⟩

theorem fitting_opaqueId {start : Text} (plain : PlainText start) (value : OpaqueId start) :
    ((OpaqueId.codec start).write value).Fitting (start.length + 34) := by
  obtain ⟨visible, long⟩ := plain_of_validOpaqueId plain value.2
  exact fitting_string visible (Nat.le_of_eq long)

theorem fitting_sha256Hex (value : Sha256Hex) : (Sha256Hex.codec.write value).Fitting 66 := by
  obtain ⟨visible, long⟩ := plain_of_validLowerHex value.2
  exact fitting_string visible (Nat.le_of_eq long)

theorem Codec.fitting_option {codec : Codec α} {bound : Nat}
    {solid : ∀ value, toValue (codec.write value) ≠ .null}
    (fits : ∀ value, (codec.write value).Fitting (bound + 4)) (value : Option α) :
    ((codec.option solid).write value).Fitting (bound + 4) := by
  cases value with
  | none => exact ⟨trivial, Nat.le_add_left 4 bound⟩
  | some value => exact fits value

/-- A member takes its value, its name and four marks. -/
theorem FittingMembers.one {codec : Codec α} {value : α} {name : String} {bound : Nat}
    (plain : PlainText name.toList) (fits : (codec.write value).Fitting bound) :
    FittingMembers ((Fields.one name codec).write value) (bound + (name.toList.length + 4)) := by
  refine ⟨⟨printable_plain plain, fits.1, trivial⟩, ?_⟩
  have named := width_plain plain
  have width := fits.2
  rw [Value.width] at named
  change widthMembers [(name.toList, codec.write value)] ≤ _
  rw [widthMembers_cons, named, widthMembers_nil]
  omega

theorem FittingMembers.also {fields : Fields α} {others : Fields β} {value : α × β}
    {bound rest : Nat} (first : FittingMembers (fields.write value.1) bound)
    (second : FittingMembers (others.write value.2) rest) :
    FittingMembers ((fields.also others).write value) (bound + rest) :=
  ⟨printableMembers_append.mpr ⟨first.1, second.1⟩, Nat.le_trans
    (Nat.le_of_eq (widthMembers_append _ _)) (Nat.add_le_add first.2 second.2)⟩

theorem Fields.fitting_record {fields : Fields β} (distinct : fields.names.Nodup) {pack : β → α}
    {unpack : α → β} {inverse : ∀ value, pack (unpack value) = value} {value : α} {bound : Nat}
    (fits : FittingMembers (fields.write (unpack value)) bound) :
    ((Fields.record fields distinct pack unpack inverse).write value).Fitting (2 + bound) :=
  ⟨fits.1, Nat.le_trans (Nat.le_of_eq (width_object _)) (Nat.add_le_add_left fits.2 2)⟩

end Fitting

end LawyerAssistance.Privacy

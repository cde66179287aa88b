import LawyerAssistance.Privacy.CanonicalCode

/-!
# Records in canonical JSON

A codec is a type with a derived serializer and deserializer: what is written is read back, and
the nesting of what is written is bounded. Records are built from their fields, so that a record
of the crate lists its fields once and has both directions with their law. Unknown members are
refused, and an absent member stands only for an absent option. Enumerations with data and records
which are given as arrays are not read.
-/

namespace LawyerAssistance.Privacy

universe u

/-! ## Printable values -/

mutual

/-- No text has a control character, and no number is a float. -/
def Value.Printable : Value → Prop
  | .number .float => False
  | .string value => value.any Text.isControl = false
  | .array values => PrintableAll values
  | .object members => PrintableMembers members
  | _ => True

/-- All elements are printable. -/
def PrintableAll : List Value → Prop
  | [] => True
  | value :: rest => value.Printable ∧ PrintableAll rest

/-- All keys and the values of all members are printable. -/
def PrintableMembers : List (Text × Value) → Prop
  | [] => True
  | (key, value) :: rest =>
      key.any Text.isControl = false ∧ value.Printable ∧ PrintableMembers rest

end

section Printable

variable {value : Value} {values : List Value} {members : List (Text × Value)}

/-- The elements of a list are printable exactly when each of them is. -/
theorem printableAll_iff : PrintableAll values ↔ ∀ value ∈ values, value.Printable := by
  induction values with
  | nil => simp [PrintableAll]
  | cons value rest inductionHypothesis =>
      rw [PrintableAll, inductionHypothesis, List.forall_mem_cons]

/-- The members of a list are printable exactly when each of them is. -/
theorem printableMembers_iff : PrintableMembers members ↔
    ∀ member ∈ members, member.1.any Text.isControl = false ∧ member.2.Printable := by
  induction members with
  | nil => simp [PrintableMembers]
  | cons member rest inductionHypothesis =>
      rw [PrintableMembers, inductionHypothesis, List.forall_mem_cons, and_assoc]

/-- Members of a list of members, some of them one behind another. -/
theorem printableMembers_append {others : List (Text × Value)} :
    PrintableMembers (members ++ others) ↔ PrintableMembers members ∧ PrintableMembers others := by
  rw [printableMembers_iff, printableMembers_iff, printableMembers_iff, List.forall_mem_append]

mutual

/-- Serializing keeps a value printable. -/
theorem printable_toValue : ∀ {value : Value}, value.Printable → (toValue value).Printable
  | .null, printable | .bool _, printable | .number _, printable | .string _, printable => by
      rw [toValue]
      exact printable
  | .array values, printable => by
      rw [Value.Printable] at printable
      rw [toValue, Value.Printable]
      exact printable_toValues printable
  | .object members, printable => by
      rw [Value.Printable] at printable
      rw [toValue, Value.Printable, printableMembers_iff]
      intro member among
      exact printableMembers_iff.mp (printable_toMembers printable) member
        (mem_of_mem_collectMembers among)

theorem printable_toValues : ∀ {values : List Value}, PrintableAll values →
    PrintableAll (toValues values)
  | [], _ => by rw [toValues]; trivial
  | value :: rest, printable => by
      rw [PrintableAll] at printable
      rw [toValues, PrintableAll]
      exact ⟨printable_toValue printable.1, printable_toValues printable.2⟩

theorem printable_toMembers : ∀ {members : List (Text × Value)}, PrintableMembers members →
    PrintableMembers (toMembers members)
  | [], _ => by rw [toMembers]; trivial
  | (key, value) :: rest, printable => by
      rw [PrintableMembers] at printable
      rw [toMembers, PrintableMembers]
      exact ⟨printable.1, printable_toValue printable.2.1, printable_toMembers printable.2.2⟩

end

mutual

/-- A printable value whose maps are in order is written. -/
theorem exists_writeCanonical : ∀ {value : Value}, value.Sorted → value.Printable →
    ∃ text, writeCanonical value = .ok text
  | .null, _, _ | .bool _, _, _ => ⟨_, by rw [writeCanonical]; rfl⟩
  | .number (.integer _ _), _, _ => ⟨_, by rw [writeCanonical]; rfl⟩
  | .number .float, _, printable => by
      rw [Value.Printable] at printable
      exact printable.elim
  | .string value, _, printable => by
      rw [Value.Printable] at printable
      have admitted : rejectControlChars value = .ok () := rejectControlChars_eq_ok.mpr printable
      exact ⟨Json.quote value, by rw [writeCanonical, admitted]; rfl⟩
  | .array values, sorted, printable => by
      rw [Value.Sorted] at sorted
      rw [Value.Printable] at printable
      obtain ⟨texts, joined⟩ := exists_joinElements (exists_writeAll sorted printable)
      exact ⟨'[' :: (texts ++ [']']), by rw [writeCanonical, joined]; rfl⟩
  | .object members, sorted, printable => by
      rw [Value.Sorted] at sorted
      rw [Value.Printable] at printable
      obtain ⟨texts, joined⟩ := exists_joinMembers (exists_writeMembers sorted.2 printable)
      refine ⟨'{' :: (texts ++ ['}']), ?_⟩
      rw [writeCanonical, writeMembers_sorted sorted.1, joined]
      rfl

theorem exists_writeAll : ∀ {values : List Value}, SortedAll values → PrintableAll values →
    ∀ value ∈ values, ∃ text, writeCanonical value = .ok text
  | [], _, _ => nofun
  | value :: rest, sorted, printable => by
      rw [SortedAll] at sorted
      rw [PrintableAll] at printable
      exact List.forall_mem_cons.mpr ⟨exists_writeCanonical sorted.1 printable.1,
        exists_writeAll sorted.2 printable.2⟩

theorem exists_writeMembers : ∀ {members : List (Text × Value)}, SortedMembers members →
    PrintableMembers members → ∀ member ∈ members, member.1.any Text.isControl = false ∧
      ∃ text, writeCanonical member.2 = .ok text
  | [], _, _ => nofun
  | (key, value) :: rest, sorted, printable => by
      rw [SortedMembers] at sorted
      rw [PrintableMembers] at printable
      exact List.forall_mem_cons.mpr
        ⟨⟨printable.1, exists_writeCanonical sorted.1 printable.2.1⟩,
          exists_writeMembers sorted.2 printable.2.2⟩

end

theorem exists_canonicalJsonV1 (printable : value.Printable) :
    ∃ bytes, canonicalJsonV1 value = .ok bytes := by
  obtain ⟨text, written⟩ :=
    exists_writeCanonical (sorted_toValue value) (printable_toValue printable)
  exact ⟨_, by rw [canonicalJsonV1, written]; rfl⟩

end Printable

/-! ## Members -/

section Members

variable {members : List (Text × Value)} {key : Text} {value : Value}

/-- Serializing the members of an object is serializing their values. -/
theorem toMembers_eq_map (members : List (Text × Value)) :
    toMembers members = members.map fun member => (member.1, toValue member.2) := by
  induction members with
  | nil => rfl
  | cons member rest inductionHypothesis =>
      rw [toMembers, inductionHypothesis, List.map_cons]

/-- Serializing the elements of an array is serializing each of them. -/
theorem toValues_eq_map (values : List Value) : toValues values = values.map toValue := by
  induction values with
  | nil => rfl
  | cons value rest inductionHypothesis =>
      rw [toValues, inductionHypothesis, List.map_cons]

/-- Members are nested no deeper than a bound exactly when each of them is not. -/
theorem depthMembers_le_iff {bound : Nat} :
    depthMembers members ≤ bound ↔ ∀ member ∈ members, member.2.depth ≤ bound := by
  induction members with
  | nil => simp [depthMembers]
  | cons member rest inductionHypothesis =>
      rw [depthMembers, Nat.max_le, inductionHypothesis, List.forall_mem_cons]

/-- Elements are nested no deeper than a bound exactly when each of them is not. -/
theorem depthAll_le_iff {values : List Value} {bound : Nat} :
    depthAll values ≤ bound ↔ ∀ value ∈ values, value.depth ≤ bound := by
  induction values with
  | nil => simp [depthAll]
  | cons value rest inductionHypothesis =>
      rw [depthAll, Nat.max_le, inductionHypothesis, List.forall_mem_cons]

/-- A member is found under its key when the keys are different. -/
theorem lookup_eq_some (distinct : (members.map Prod.fst).Nodup) (among : (key, value) ∈ members) :
    members.lookup key = some value := by
  induction members with
  | nil => cases among
  | cons first rest inductionHypothesis =>
      rw [List.map_cons, List.nodup_cons] at distinct
      obtain rfl | among := List.mem_cons.mp among
      · rw [List.lookup_cons, beq_self_eq_true]
      · have apart : (key == first.1) = false :=
          beq_eq_false_iff_ne.mpr fun same => distinct.1 (same ▸ List.mem_map_of_mem among)
        rw [List.lookup_cons, apart]
        exact inductionHypothesis distinct.2 among

theorem mem_of_lookup_eq_some (found : members.lookup key = some value) :
    (key, value) ∈ members := by
  obtain ⟨before, after, rfl, _⟩ := List.lookup_eq_some_iff.mp found
  exact List.mem_append_right before List.mem_cons_self

end Members

/-! ## Codecs -/

/-- The variants of an enumeration, in their order, with different names. -/
structure Variants (α : Type u) where
  name : α → Text
  all : List α
  complete : ∀ value, value ∈ all
  distinct : (all.map name).Nodup

theorem Variants.name_injective {α : Type u} (variants : Variants α) {value other : α}
    (named : variants.name value = variants.name other) : value = other :=
  List.inj_on_of_nodup_map variants.distinct (variants.complete value) (variants.complete other)
    named

/-- A variant is found by its name. -/
theorem Variants.find_name {α : Type u} (variants : Variants α) (value : α) :
    variants.all.find? (fun other => variants.name other == variants.name value) = some value := by
  cases found : variants.all.find? fun other => variants.name other == variants.name value with
  | none =>
      have apart := List.find?_eq_none.mp found value (variants.complete value)
      rw [beq_self_eq_true] at apart
      exact absurd rfl apart
  | some other =>
      have named : variants.name other = variants.name value := by
        have passed := List.find?_some found
        exact beq_iff_eq.mp passed
      rw [variants.name_injective named]

/-- A type with its serializer and deserializer. A record takes the value `missing` for a member
which is absent. -/
structure Codec (α : Type u) where
  write : α → Value
  read : Value → Option α
  missing : Option α
  nesting : Nat
  read_write : ∀ value, read (toValue (write value)) = some value
  depth_le : ∀ value, (toValue (write value)).depth ≤ nesting

namespace Codec

variable {α β : Type u}

/-- `String`. -/
def text : Codec Text where
  write value := .string value
  read
    | .string value => some value
    | _ => none
  missing := none
  nesting := 0
  read_write _ := rfl
  depth_le _ := Nat.le_refl 0

/-- `bool`. -/
def bool : Codec Bool where
  write value := .bool value
  read
    | .bool value => some value
    | _ => none
  missing := none
  nesting := 0
  read_write _ := rfl
  depth_le _ := Nat.le_refl 0

theorem fits64_ofUInt32 (value : UInt32) : Json.Fits64 (value.toNat : Int) :=
  ⟨by omega, by have := value.toNat_lt; omega⟩

theorem fits64_ofUInt64 (value : UInt64) : Json.Fits64 (value.toNat : Int) :=
  ⟨by omega, by have := value.toNat_lt; omega⟩

/-- `u32`. -/
def u32 : Codec UInt32 where
  write value := .number (.integer value.toNat (fits64_ofUInt32 value))
  read
    | .number (.integer value _) =>
        if 0 ≤ value ∧ value < 2 ^ 32 then some (UInt32.ofNat value.toNat) else none
    | _ => none
  missing := none
  nesting := 0
  read_write value := by
    have inside : 0 ≤ (value.toNat : Int) ∧ (value.toNat : Int) < 2 ^ 32 :=
      ⟨by omega, by have := value.toNat_lt; omega⟩
    rw [toValue]
    dsimp only
    rw [if_pos inside, Int.toNat_natCast, UInt32.ofNat_toNat]
  depth_le _ := Nat.le_refl 0

/-- `u64`. -/
def u64 : Codec UInt64 where
  write value := .number (.integer value.toNat (fits64_ofUInt64 value))
  read
    | .number (.integer value _) =>
        if 0 ≤ value ∧ value < 2 ^ 64 then some (UInt64.ofNat value.toNat) else none
    | _ => none
  missing := none
  nesting := 0
  read_write value := by
    have inside : 0 ≤ (value.toNat : Int) ∧ (value.toNat : Int) < 2 ^ 64 :=
      ⟨by omega, by have := value.toNat_lt; omega⟩
    rw [toValue]
    dsimp only
    rw [if_pos inside, Int.toNat_natCast, UInt64.ofNat_toNat]
  depth_le _ := Nat.le_refl 0

theorem fits64_ofInt64 (value : Int64) : Json.Fits64 value.toInt :=
  ⟨value.le_toInt, Int.lt_trans value.toInt_lt (by decide)⟩

/-- `i64`. -/
def i64 : Codec Int64 where
  write value := .number (.integer value.toInt (fits64_ofInt64 value))
  read
    | .number (.integer value _) =>
        if -2 ^ 63 ≤ value ∧ value < 2 ^ 63 then some (Int64.ofInt value) else none
    | _ => none
  missing := none
  nesting := 0
  read_write value := by
    rw [toValue]
    dsimp only
    rw [if_pos ⟨value.le_toInt, value.toInt_lt⟩, Int64.ofInt_toInt]
  depth_le _ := Nat.le_refl 0

/-- An enumeration of unit variants, each written as its name. -/
def variants (variants : Variants α) : Codec α where
  write value := .string (variants.name value)
  read
    | .string given => variants.all.find? fun other => variants.name other == given
    | _ => none
  missing := none
  nesting := 0
  read_write := variants.find_name
  depth_le _ := Nat.le_refl 0

/-- A type whose values are checked when they are read. -/
def refined (codec : Codec α) (legal : α → Prop) [DecidablePred legal] :
    Codec {value : α // legal value} where
  write value := codec.write value.1
  read written := (codec.read written).bind fun value =>
    if checked : legal value then some ⟨value, checked⟩ else none
  missing := none
  nesting := codec.nesting
  read_write value := by
    rw [codec.read_write, Option.bind_some, dif_pos value.2]
  depth_le value := codec.depth_le value.1

/-- `Vec`. -/
def list (codec : Codec α) : Codec (List α) where
  write values := .array (values.map codec.write)
  read
    | .array values => values.mapM codec.read
    | _ => none
  missing := none
  nesting := codec.nesting + 1
  read_write values := by
    rw [toValue, toValues_eq_map]
    dsimp only
    induction values with
    | nil => rfl
    | cons value rest inductionHypothesis =>
        rw [List.map_cons, List.map_cons, List.mapM_cons, codec.read_write, inductionHypothesis]
        rfl
  depth_le values := by
    rw [toValue, toValues_eq_map, Value.depth]
    refine Nat.succ_le_succ (depthAll_le_iff.mpr fun value among => ?_)
    rw [List.map_map] at among
    obtain ⟨inside, _, rfl⟩ := List.mem_map.mp among
    exact codec.depth_le inside

theorem u64_solid : ∀ value, toValue (u64.write value) ≠ .null := fun _ => nofun

/-- `Option`, of a type which is not written as `null`. -/
def option (codec : Codec α)
    (solid : ∀ value, toValue (codec.write value) ≠ .null := by exact fun _ => nofun) :
    Codec (Option α) where
  write
    | none => .null
    | some value => codec.write value
  read
    | .null => some none
    | written => (codec.read written).map some
  missing := some none
  nesting := codec.nesting
  read_write
    | none => rfl
    | some value => by
        have back := codec.read_write value
        have apart := solid value
        dsimp only
        cases written : toValue (codec.write value) with
        | null => exact absurd written apart
        | bool | number | string | array | object =>
            rw [written] at back
            dsimp only
            rw [back]
            rfl
  depth_le
    | none => Nat.zero_le _
    | some value => codec.depth_le value

/-- The members of a map with keys of an enumeration. -/
def mapMembers (variants : Variants α) (codec : Codec β) (map : α → Option β) :
    List (Text × Value) :=
  variants.all.filterMap fun key =>
    (map key).map fun value => (variants.name key, codec.write value)

section Maps

variable {variants : Variants α} {codec : Codec β} {map : α → Option β}

/-- A member is a key with what the map has there. -/
theorem mem_mapMembers {member : Text × Value} : member ∈ mapMembers variants codec map ↔
    ∃ key value, map key = some value ∧ member = (variants.name key, codec.write value) := by
  rw [mapMembers, List.mem_filterMap]
  constructor
  · rintro ⟨key, _, here⟩
    obtain ⟨value, found, rfl⟩ := Option.map_eq_some_iff.mp here
    exact ⟨key, value, found, rfl⟩
  · rintro ⟨key, value, found, rfl⟩
    exact ⟨key, variants.complete key, Option.map_eq_some_iff.mpr ⟨value, found, rfl⟩⟩

/-- The names of the keys are different. -/
theorem nodup_mapMembers : ((mapMembers variants codec map).map Prod.fst).Nodup := by
  refine List.Nodup.sublist ?_ variants.distinct
  rw [mapMembers]
  induction variants.all with
  | nil => exact List.Sublist.slnil
  | cons key rest inductionHypothesis =>
      cases here : map key with
      | none =>
          rw [List.filterMap_cons_none (by rw [here]; rfl), List.map_cons]
          exact inductionHypothesis.cons _
      | some value =>
          rw [List.filterMap_cons_some (by rw [here]; rfl), List.map_cons, List.map_cons]
          exact inductionHypothesis.cons_cons _

end Maps

/-- `BTreeMap`, with keys of an enumeration. -/
def enumMap (variants : Variants α) (codec : Codec β) : Codec (α → Option β) where
  write map := .object (mapMembers variants codec map)
  read
    | .object members =>
        if members.all (fun member => variants.all.any (fun key => variants.name key == member.1) &&
            (codec.read member.2).isSome) then
          some fun key => (members.lookup (variants.name key)).bind codec.read
        else none
    | _ => none
  missing := none
  nesting := codec.nesting + 1
  read_write map := by
    have collected {member : Text × Value}
        (among : member ∈ collectMembers (toMembers (mapMembers variants codec map))) :
        ∃ key value, map key = some value ∧
          member = (variants.name key, toValue (codec.write value)) := by
      have inside := mem_of_mem_collectMembers among
      rw [toMembers_eq_map, List.mem_map] at inside
      obtain ⟨written, here, rfl⟩ := inside
      obtain ⟨key, value, found, rfl⟩ := mem_mapMembers.mp here
      exact ⟨key, value, found, rfl⟩
    have readable : (collectMembers (toMembers (mapMembers variants codec map))).all
        (fun member => variants.all.any (fun key => variants.name key == member.1) &&
          (codec.read member.2).isSome) = true := by
      rw [List.all_eq_true]
      intro member among
      obtain ⟨key, value, _, rfl⟩ := collected among
      rw [Bool.and_eq_true, List.any_eq_true, codec.read_write]
      exact ⟨⟨key, variants.complete key, beq_self_eq_true _⟩, rfl⟩
    have keys : ((toMembers (mapMembers variants codec map)).map Prod.fst).Nodup := by
      rw [keys_toMembers]
      exact nodup_mapMembers
    have same := perm_collectMembers keys
    rw [toValue]
    dsimp only
    rw [if_pos readable]
    congr 1
    funext key
    cases here : map key with
    | none =>
        cases found : (collectMembers (toMembers (mapMembers variants codec map))).lookup
            (variants.name key) with
        | none => rfl
        | some value =>
            obtain ⟨other, inside, there, named⟩ := collected (mem_of_lookup_eq_some found)
            have named := variants.name_injective (Prod.mk.inj named).1
            rw [← named, here] at there
            cases there
    | some value =>
        have among : (variants.name key, toValue (codec.write value)) ∈
            toMembers (mapMembers variants codec map) := by
          rw [toMembers_eq_map, List.mem_map]
          exact ⟨_, mem_mapMembers.mpr ⟨key, value, here, rfl⟩, rfl⟩
        rw [lookup_eq_some ((same.map Prod.fst).nodup_iff.mpr keys) (same.mem_iff.mpr among),
          Option.bind_some, codec.read_write]
  depth_le map := by
    rw [toValue, Value.depth]
    refine Nat.succ_le_succ (depthMembers_le_iff.mpr fun member among => ?_)
    have inside := mem_of_mem_collectMembers among
    rw [toMembers_eq_map, List.mem_map] at inside
    obtain ⟨written, here, rfl⟩ := inside
    obtain ⟨key, value, _, rfl⟩ := mem_mapMembers.mp here
    exact codec.depth_le value

/-- `BTreeMap<String, String>`, as its entries in order. -/
abbrev TextMap := {entries : List (Text × Text) // (entries.map Prod.fst).Pairwise (· < ·)}

theorem pairwise_nil_entries : (([] : List (Text × Text)).map Prod.fst).Pairwise (· < ·) :=
  List.Pairwise.nil

/-- An entry of a map of texts. -/
def readEntry : Text × Value → Option (Text × Text)
  | (key, .string value) => some (key, value)
  | _ => none

/-- Maps of texts. The members of an object are in order when they are read. -/
def textMap : Codec TextMap where
  write map := .object (map.1.map fun entry => (entry.1, .string entry.2))
  read
    | .object members => (members.mapM readEntry).bind fun entries =>
        if sorted : (entries.map Prod.fst).Pairwise (· < ·) then some ⟨entries, sorted⟩ else none
    | _ => none
  missing := none
  nesting := 1
  read_write map := by
    obtain ⟨entries, sorted⟩ := map
    have members : toMembers (entries.map fun entry => (entry.1, Value.string entry.2)) =
        entries.map fun entry => (entry.1, Value.string entry.2) := by
      rw [toMembers_eq_map, List.map_map]
      rfl
    have keys : ((entries.map fun entry => (entry.1, Value.string entry.2)).map
        Prod.fst).Pairwise (· < ·) := by
      rwa [List.map_map]
    have entriesRead : (entries.map fun entry => (entry.1, Value.string entry.2)).mapM readEntry =
        some entries := by
      clear sorted members keys
      induction entries with
      | nil => rfl
      | cons entry rest inductionHypothesis =>
          rw [List.map_cons, List.mapM_cons, inductionHypothesis]
          rfl
    rw [toValue, members, collectMembers_of_sorted keys]
    dsimp only
    rw [entriesRead, Option.bind_some, dif_pos sorted]
  depth_le map := by
    rw [toValue, Value.depth]
    refine Nat.succ_le_succ (depthMembers_le_iff.mpr fun member among => ?_)
    have inside := mem_of_mem_collectMembers among
    rw [toMembers_eq_map, List.map_map] at inside
    obtain ⟨entry, _, rfl⟩ := List.mem_map.mp inside
    exact Nat.le_refl 0

variable {codec : Codec α} {value other : α} {bytes : Octets}

/-- An encoding is read back. -/
theorem read_canonical (bounded : codec.nesting ≤ maxDepth)
    (encoded : canonicalJsonV1 (codec.write value) = .ok bytes) :
    (strictJsonV1FromSlice bytes).bind codec.read = some value := by
  have sorted := sorted_toValue (codec.write value)
  rw [← canonicalJsonV1_toValue] at encoded
  rw [strictJsonV1FromSlice,
    strictValue_canonical sorted encoded ((codec.depth_le value).trans bounded)]
  exact codec.read_write value

end Codec

/-! ## Records -/

/-- The fields of a record, in the order of their declaration. -/
structure Fields (α : Type u) where
  write : α → List (Text × Value)
  read : List (Text × Value) → Option α
  names : List Text
  nesting : Nat
  names_write : ∀ value, (write value).map Prod.fst = names
  read_write : ∀ value members,
    (∀ member ∈ toMembers (write value), members.lookup member.1 = some member.2) →
      read members = some value
  depth_le : ∀ value, depthMembers (toMembers (write value)) ≤ nesting

namespace Fields

variable {α β : Type u}

/-- One field. -/
def one (name : String) (codec : Codec α) : Fields α where
  write value := [(name.toList, codec.write value)]
  read members :=
    match members.lookup name.toList with
    | some found => codec.read found
    | none => codec.missing
  names := [name.toList]
  nesting := codec.nesting
  names_write _ := rfl
  read_write value members holds := by
    have found := holds (name.toList, toValue (codec.write value))
      (by rw [toMembers]; exact List.mem_cons_self)
    rw [found]
    exact codec.read_write value
  depth_le value := by
    rw [toMembers, toMembers, depthMembers, depthMembers, Nat.max_zero]
    exact codec.depth_le value

/-- The fields of two parts of a record. -/
def also (first : Fields α) (second : Fields β) : Fields (α × β) where
  write value := first.write value.1 ++ second.write value.2
  read members := do
    let before ← first.read members
    let after ← second.read members
    some (before, after)
  names := first.names ++ second.names
  nesting := max first.nesting second.nesting
  names_write value := by
    rw [List.map_append, first.names_write, second.names_write]
  read_write value members holds := by
    rw [toMembers_eq_map, List.map_append, ← toMembers_eq_map, ← toMembers_eq_map,
      List.forall_mem_append] at holds
    rw [first.read_write value.1 members holds.1, second.read_write value.2 members holds.2]
    rfl
  depth_le value := by
    rw [toMembers_eq_map, List.map_append, ← toMembers_eq_map, ← toMembers_eq_map,
      depthMembers_le_iff, List.forall_mem_append, ← depthMembers_le_iff, ← depthMembers_le_iff]
    exact ⟨(first.depth_le value.1).trans (Nat.le_max_left _ _),
      (second.depth_le value.2).trans (Nat.le_max_right _ _)⟩

/-- What an object which is made of the fields holds under their names. -/
theorem lookup_collectMembers (fields : Fields α) (distinct : fields.names.Nodup) (value : α) :
    ∀ member ∈ toMembers (fields.write value),
      (collectMembers (toMembers (fields.write value))).lookup member.1 = some member.2 := by
  intro member among
  have keys : ((toMembers (fields.write value)).map Prod.fst).Nodup := by
    rw [keys_toMembers, fields.names_write]
    exact distinct
  have same := perm_collectMembers keys
  exact lookup_eq_some ((same.map Prod.fst).nodup_iff.mpr keys) (same.mem_iff.mpr among)

/-- A record with these fields, none of which has the name of another; members with other names
are refused. -/
def record (fields : Fields β) (distinct : fields.names.Nodup) (pack : β → α) (unpack : α → β)
    (inverse : ∀ value, pack (unpack value) = value) : Codec α where
  write value := .object (fields.write (unpack value))
  read
    | .object members =>
        if members.all (fun member => fields.names.contains member.1) then
          (fields.read members).map pack
        else none
    | _ => none
  missing := none
  nesting := fields.nesting + 1
  read_write value := by
    have known : (collectMembers (toMembers (fields.write (unpack value)))).all
        (fun member => fields.names.contains member.1) = true := by
      rw [List.all_eq_true]
      intro member among
      have name := List.mem_map_of_mem (f := Prod.fst) (mem_of_mem_collectMembers among)
      rw [keys_toMembers, fields.names_write] at name
      exact List.contains_iff_mem.mpr name
    rw [toValue]
    dsimp only
    rw [if_pos known,
      fields.read_write (unpack value) _ (fields.lookup_collectMembers distinct _),
      Option.map_some, inverse]
  depth_le value := by
    rw [toValue, Value.depth]
    refine Nat.succ_le_succ (depthMembers_le_iff.mpr fun member among => ?_)
    exact depthMembers_le_iff.mp (fields.depth_le _) member (mem_of_mem_collectMembers among)

end Fields

end LawyerAssistance.Privacy

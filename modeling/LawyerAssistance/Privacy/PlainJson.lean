import LawyerAssistance.Privacy.Codecs

/-!
# Plain encodings

`serde_json::to_vec` and `serde_json::from_slice` of records: the members of an object stand in the
order of their declaration, and are read in any order, each of them once. What is written of a
record is read back, so that different records have different encodings.
-/

namespace LawyerAssistance.Privacy

/-! ## Writing -/

/-- Texts with commas between them. -/
def joinTexts : List (Option Text) → Option Text
  | [] => some []
  | [last] => last
  | first :: rest => do
      let text ← first
      let others ← joinTexts rest
      some (text ++ ',' :: others)

mutual

/-- `serde_json::to_string`, of a value without floating points. -/
def writePlain : Value → Option Text
  | .null => some "null".toList
  | .bool value => some (if value then "true".toList else "false".toList)
  | .number (.integer value _) => some (Json.decimal value)
  | .number .float => none
  | .string value => some (Json.quote value)
  | .array values => (joinTexts (writePlainAll values)).map fun texts => '[' :: (texts ++ [']'])
  | .object members =>
      (joinTexts (writePlainMembers members)).map fun texts => '{' :: (texts ++ ['}'])

/-- The elements of an array. -/
def writePlainAll : List Value → List (Option Text)
  | [] => []
  | value :: rest => writePlain value :: writePlainAll rest

/-- The members of an object. -/
def writePlainMembers : List (Text × Value) → List (Option Text)
  | [] => []
  | (key, value) :: rest =>
      (writePlain value).map (fun text => Json.quote key ++ ':' :: text) :: writePlainMembers rest

end

/-- `serde_json::to_vec`. -/
def toVec (value : Value) : Option Octets :=
  (writePlain value).map fun text => utf8 (String.ofList text)

/-! ## Reading -/

mutual

/-- The value which is deserialized of a tree. -/
def deserialize : Json.Tree → Option Value
  | .null => some .null
  | .bool value => some (.bool value)
  | .integer value =>
      if fits : Json.Fits64 value then some (.number (.integer value fits))
      else some (.number .float)
  | .float => some (.number .float)
  | .string value => some (.string value)
  | .array elements => (deserializeAll elements).map .array
  | .object members =>
      if (members.map Prod.fst).Nodup then
        (deserializeMembers members).map fun members => .object (collectMembers members)
      else none

/-- The elements of an array. -/
def deserializeAll : List Json.Tree → Option (List Value)
  | [] => some []
  | element :: rest => do
      let value ← deserialize element
      let values ← deserializeAll rest
      some (value :: values)

/-- The members of an object. -/
def deserializeMembers : List (Text × Json.Tree) → Option (List (Text × Value))
  | [] => some []
  | (key, member) :: rest => do
      let value ← deserialize member
      let members ← deserializeMembers rest
      some ((key, value) :: members)

end

/-- `serde_json::from_slice`. -/
def fromSlice {α : Type} (codec : Codec α) (bytes : Octets) : Option α := do
  let text ← String.fromUTF8? ⟨bytes.toArray⟩
  let tree ← Json.read maxDepth text.toList
  let value ← deserialize tree
  codec.read value

/-! ## Records are read back -/

mutual

/-- A value without floating points in whose objects no name is repeated. -/
def Value.Plain : Value → Prop
  | .null | .bool _ | .number (.integer _ _) | .string _ => True
  | .number .float => False
  | .array values => PlainAll values
  | .object members => (members.map Prod.fst).Nodup ∧ PlainMembers members

/-- The elements of an array are plain. -/
def PlainAll : List Value → Prop
  | [] => True
  | value :: rest => value.Plain ∧ PlainAll rest

/-- The members of an object are plain. -/
def PlainMembers : List (Text × Value) → Prop
  | [] => True
  | (_, value) :: rest => value.Plain ∧ PlainMembers rest

end

theorem plainAll_of_forall {values : List Value} (plain : ∀ value ∈ values, value.Plain) :
    PlainAll values := by
  induction values with
  | nil => exact trivial
  | cons value rest inductionHypothesis =>
      exact ⟨plain value List.mem_cons_self,
        inductionHypothesis fun other among => plain other (List.mem_cons_of_mem _ among)⟩

mutual

/-- A plain value is written, and read as its tree. -/
theorem exists_writePlain : ∀ {value : Value} {depth : Nat}, value.Plain → value.depth ≤ depth →
    ∃ text, writePlain value = some text ∧ Json.Reads depth text value.tree
  | .null, _, _, _ => ⟨_, rfl, Json.reads_null⟩
  | .bool true, _, _, _ => ⟨_, rfl, Json.reads_true⟩
  | .bool false, _, _, _ => ⟨_, rfl, Json.reads_false⟩
  | .number (.integer _ fits), _, _, _ => ⟨_, rfl, Json.reads_decimal fits⟩
  | .number .float, _, plain, _ => plain.elim
  | .string value, _, _, _ => ⟨_, rfl, Json.reads_quote value⟩
  | .array values, depth, plain, bounded => by
      rw [Value.Plain] at plain
      rw [Value.depth] at bounded
      obtain ⟨depth, rfl⟩ := Nat.exists_eq_add_of_le' (Nat.one_le_of_lt bounded)
      obtain ⟨texts, joined, ⟨empty, none⟩ | ⟨elements, first, nonempty⟩⟩ :=
        exists_writePlainAll plain (Nat.le_of_succ_le_succ bounded)
      · refine ⟨_, by rw [writePlain, joined]; rfl, ?_⟩
        rw [empty, none]
        exact Json.reads_nil
      · exact ⟨_, by rw [writePlain, joined]; rfl, Json.reads_array elements first nonempty⟩
  | .object members, depth, plain, bounded => by
      rw [Value.Plain] at plain
      rw [Value.depth] at bounded
      obtain ⟨depth, rfl⟩ := Nat.exists_eq_add_of_le' (Nat.one_le_of_lt bounded)
      obtain ⟨texts, joined, ⟨empty, none⟩ | ⟨inside, quoted⟩⟩ :=
        exists_writePlainMembers plain.2 (Nat.le_of_succ_le_succ bounded)
      · refine ⟨_, by rw [writePlain, joined]; rfl, ?_⟩
        rw [empty, none]
        exact Json.reads_empty
      · exact ⟨_, by rw [writePlain, joined]; rfl, Json.reads_object inside quoted⟩

theorem exists_writePlainAll : ∀ {values : List Value} {depth : Nat}, PlainAll values →
    depthAll values ≤ depth → ∃ texts, joinTexts (writePlainAll values) = some texts ∧
      ((values = [] ∧ texts = []) ∨
        (Json.ReadsElements depth texts (treeAll values) ∧
          (∀ others, Json.skipSpace (texts ++ others) = texts ++ others ∧
            texts.head? ≠ some ']') ∧ texts ≠ []))
  | [], _, _, _ => ⟨[], rfl, .inl ⟨rfl, rfl⟩⟩
  | [value], _, plain, bounded => by
      rw [depthAll] at bounded
      obtain ⟨text, written, reads⟩ :=
        exists_writePlain plain.1 (le_trans (Nat.le_max_left _ _) bounded)
      exact ⟨text, written, .inr ⟨.last reads, reads.first, reads.nonempty⟩⟩
  | value :: second :: rest, _, plain, bounded => by
      rw [depthAll] at bounded
      obtain ⟨text, written, reads⟩ :=
        exists_writePlain plain.1 (le_trans (Nat.le_max_left _ _) bounded)
      obtain ⟨others, joined, ⟨empty, _⟩ | ⟨elements, _⟩⟩ :=
        exists_writePlainAll plain.2 (le_trans (Nat.le_max_right _ _) bounded)
      · cases empty
      · refine ⟨text ++ ',' :: others, ?_, .inr ⟨.cons reads elements, fun behind => ⟨?_, ?_⟩,
          by simp⟩⟩
        · rw [writePlainAll, writePlainAll, joinTexts, written]
          rw [writePlainAll] at joined
          rw [joined]
          · rfl
          · simp
        · rw [List.append_assoc]
          exact (reads.first _).1
        · rw [List.head?_append_of_ne_nil _ reads.nonempty]
          exact (reads.first []).2

theorem exists_writePlainMembers : ∀ {members : List (Text × Value)} {depth : Nat},
    PlainMembers members → depthMembers members ≤ depth →
      ∃ texts, joinTexts (writePlainMembers members) = some texts ∧
        ((members = [] ∧ texts = []) ∨
          (Json.ReadsMembers depth texts (treeMembers members) ∧
            ∃ name others, texts = Json.quote name ++ others))
  | [], _, _, _ => ⟨[], rfl, .inl ⟨rfl, rfl⟩⟩
  | [(key, value)], _, plain, bounded => by
      rw [depthMembers] at bounded
      obtain ⟨text, written, reads⟩ :=
        exists_writePlain plain.1 (le_trans (Nat.le_max_left _ _) bounded)
      refine ⟨Json.quote key ++ ':' :: text, ?_, .inr ⟨.last reads, key, _, rfl⟩⟩
      rw [writePlainMembers, writePlainMembers, joinTexts, written]
      rfl
  | (key, value) :: second :: rest, _, plain, bounded => by
      rw [depthMembers] at bounded
      obtain ⟨text, written, reads⟩ :=
        exists_writePlain plain.1 (le_trans (Nat.le_max_left _ _) bounded)
      obtain ⟨others, joined, ⟨empty, _⟩ | ⟨inside, _⟩⟩ :=
        exists_writePlainMembers plain.2 (le_trans (Nat.le_max_right _ _) bounded)
      · cases empty
      · refine ⟨Json.quote key ++ ':' :: (text ++ ',' :: others), ?_,
          .inr ⟨.cons reads inside, key, _, rfl⟩⟩
        obtain ⟨name, member⟩ := second
        rw [writePlainMembers, writePlainMembers, joinTexts, written]
        rw [writePlainMembers] at joined
        rw [joined]
        · simp
        · simp

end

theorem keys_treeMembers (members : List (Text × Value)) :
    (treeMembers members).map Prod.fst = members.map Prod.fst := by
  induction members with
  | nil => rfl
  | cons member rest inductionHypothesis =>
      obtain ⟨key, value⟩ := member
      rw [treeMembers, List.map_cons, List.map_cons, inductionHypothesis]

mutual

/-- The tree of a plain value is deserialized. -/
theorem deserialize_tree : ∀ {value : Value}, value.Plain →
    deserialize value.tree = some (toValue value)
  | .null, _ | .bool _, _ | .string _, _ => rfl
  | .number (.integer value fits), _ => by
      rw [Value.tree, deserialize, dif_pos fits, toValue]
  | .number .float, plain => plain.elim
  | .array values, plain => by
      rw [Value.Plain] at plain
      rw [Value.tree, deserialize, deserializeAll_treeAll plain, toValue]
      rfl
  | .object members, plain => by
      rw [Value.Plain] at plain
      rw [Value.tree, deserialize, keys_treeMembers, if_pos plain.1,
        deserializeMembers_treeMembers plain.2, toValue]
      rfl

theorem deserializeAll_treeAll : ∀ {values : List Value}, PlainAll values →
    deserializeAll (treeAll values) = some (toValues values)
  | [], _ => rfl
  | value :: rest, plain => by
      rw [treeAll, deserializeAll, deserialize_tree plain.1, deserializeAll_treeAll plain.2,
        toValues]
      rfl

theorem deserializeMembers_treeMembers : ∀ {members : List (Text × Value)}, PlainMembers members →
    deserializeMembers (treeMembers members) = some (toMembers members)
  | [], _ => rfl
  | (key, value) :: rest, plain => by
      rw [treeMembers, deserializeMembers, deserialize_tree plain.1,
        deserializeMembers_treeMembers plain.2, toMembers]
      rfl

end

section Codec

variable {α : Type} {codec : Codec α} {value other : α}

theorem exists_toVec (plain : (codec.write value).Plain)
    (bounded : (codec.write value).depth ≤ maxDepth) :
    ∃ bytes, toVec (codec.write value) = some bytes ∧ fromSlice codec bytes = some value := by
  obtain ⟨text, written, reads⟩ := exists_writePlain plain bounded
  refine ⟨utf8 (String.ofList text), by rw [toVec, written]; rfl, ?_⟩
  have read := reads.whole
  simp only [fromSlice, fromUTF8?_utf8, Option.bind_eq_bind, Option.bind_some,
    String.toList_ofList, read, deserialize_tree plain]
  exact codec.read_write value

end Codec

end LawyerAssistance.Privacy

import LawyerAssistance.Privacy.CanonicalJson
import Mathlib.Data.List.Induction

/-!
# Canonical JSON is a code

A value of the crate has maps with strictly increasing keys at every depth. What the writer
writes of such a value is read back as the value, so that the encoding is injective, and bytes
which the strict reader accepts are written back unchanged exactly when they are an encoding.
-/

namespace LawyerAssistance.Privacy

/-! ## Maps -/

mutual

/-- The keys of every object are strictly increasing. -/
def Value.Sorted : Value → Prop
  | .array values => SortedAll values
  | .object members => (members.map Prod.fst).Pairwise (· < ·) ∧ SortedMembers members
  | _ => True

/-- All elements are sorted. -/
def SortedAll : List Value → Prop
  | [] => True
  | value :: rest => value.Sorted ∧ SortedAll rest

/-- The values of all members are sorted. -/
def SortedMembers : List (Text × Value) → Prop
  | [] => True
  | (_, value) :: rest => value.Sorted ∧ SortedMembers rest

end

section Maps

variable {key : Text} {value : Value} {map members : List (Text × Value)}

/-- The members of a list are sorted exactly when each of them is. -/
theorem sortedMembers_iff : SortedMembers members ↔ ∀ member ∈ members, member.2.Sorted := by
  induction members with
  | nil => simp [SortedMembers]
  | cons member rest inductionHypothesis =>
      rw [SortedMembers, inductionHypothesis, List.forall_mem_cons]

/-- The elements of a list are sorted exactly when each of them is. -/
theorem sortedAll_iff {values : List Value} : SortedAll values ↔ ∀ value ∈ values, value.Sorted := by
  induction values with
  | nil => simp [SortedAll]
  | cons value rest inductionHypothesis =>
      rw [SortedAll, inductionHypothesis, List.forall_mem_cons]

/-- A member which is inserted is in the map; the others were there. -/
theorem mem_of_mem_insertMember {member : Text × Value} (among : member ∈ insertMember key value map) :
    member = (key, value) ∨ member ∈ map := by
  induction map with
  | nil => exact .inl (List.mem_singleton.mp among)
  | cons first rest inductionHypothesis =>
      rw [insertMember] at among
      split_ifs at among
      · exact List.mem_cons.mp among
      · exact (List.mem_cons.mp among).imp_right (List.mem_cons_of_mem _)
      · obtain rfl | among := List.mem_cons.mp among
        · exact .inr List.mem_cons_self
        · exact (inductionHypothesis among).imp_right (List.mem_cons_of_mem _)

/-- Inserting keeps the keys in order. -/
theorem pairwise_insertMember (sorted : (map.map Prod.fst).Pairwise (· < ·)) :
    ((insertMember key value map).map Prod.fst).Pairwise (· < ·) := by
  induction map with
  | nil => exact List.pairwise_singleton _ _
  | cons first rest inductionHypothesis =>
      rw [List.map_cons, List.pairwise_cons] at sorted
      rw [insertMember]
      split_ifs with before same
      · rw [List.map_cons, List.map_cons, List.pairwise_cons, List.pairwise_cons]
        refine ⟨fun other among => ?_, sorted⟩
        obtain rfl | among := List.mem_cons.mp among
        · exact before
        · exact lt_trans before (sorted.1 other among)
      · rw [List.map_cons, List.pairwise_cons, same]
        exact sorted
      · rw [List.map_cons, List.pairwise_cons]
        refine ⟨fun other among => ?_, inductionHypothesis sorted.2⟩
        obtain ⟨member, inserted, rfl⟩ := List.mem_map.mp among
        obtain rfl | among := mem_of_mem_insertMember inserted
        · exact lt_of_le_of_ne (not_lt.mp before) (Ne.symm same)
        · exact sorted.1 _ (List.mem_map_of_mem among)

/-- A new key is added to the members. -/
theorem perm_insertMember (new : key ∉ map.map Prod.fst) :
    (insertMember key value map).Perm ((key, value) :: map) := by
  induction map with
  | nil => exact List.Perm.refl _
  | cons first rest inductionHypothesis =>
      rw [List.map_cons, List.mem_cons, not_or] at new
      rw [insertMember, if_neg new.1]
      split_ifs
      · exact List.Perm.refl _
      · exact ((inductionHypothesis new.2).cons first).trans (List.Perm.swap _ _ _)

/-- A key behind all others is added at the end. -/
theorem insertMember_last (last : ∀ other ∈ map.map Prod.fst, other < key) :
    insertMember key value map = map ++ [(key, value)] := by
  induction map with
  | nil => rfl
  | cons first rest inductionHypothesis =>
      rw [List.map_cons, List.forall_mem_cons] at last
      rw [insertMember, if_neg (not_lt.mpr (le_of_lt last.1)), if_neg (ne_of_gt last.1),
        inductionHypothesis last.2, List.cons_append]

/-- A collected map has its keys in order. -/
theorem pairwise_collectMembers (members : List (Text × Value)) :
    ((collectMembers members).map Prod.fst).Pairwise (· < ·) := by
  rw [collectMembers]
  induction members using List.reverseRecOn with
  | nil => exact List.Pairwise.nil
  | append_singleton others last inductionHypothesis =>
      rw [List.foldl_append]
      exact pairwise_insertMember inductionHypothesis

/-- A collected map has members which were inserted. -/
theorem mem_of_mem_collectMembers {member : Text × Value}
    (among : member ∈ collectMembers members) : member ∈ members := by
  rw [collectMembers] at among
  induction members using List.reverseRecOn with
  | nil => cases among
  | append_singleton others last inductionHypothesis =>
      rw [List.foldl_append] at among
      obtain rfl | among := mem_of_mem_insertMember among
      · exact List.mem_append_right _ (List.mem_singleton.mpr rfl)
      · exact List.mem_append_left _ (inductionHypothesis among)

/-- Members with different keys are all collected. -/
theorem perm_collectMembers (distinct : (members.map Prod.fst).Nodup) :
    (collectMembers members).Perm members := by
  rw [collectMembers]
  induction members using List.reverseRecOn with
  | nil => exact List.Perm.refl _
  | append_singleton others last inductionHypothesis =>
      rw [List.map_append, List.map_singleton, List.nodup_append] at distinct
      obtain ⟨before, _, apart⟩ := distinct
      have collected := inductionHypothesis before
      rw [List.foldl_append]
      refine (perm_insertMember ?_).trans ((collected.cons last).trans
        (List.perm_append_singleton last others).symm)
      intro among
      exact apart _ ((collected.map Prod.fst).mem_iff.mp among) _ (List.mem_singleton.mpr rfl) rfl

/-- Members in order are collected as they are. -/
theorem collectMembers_of_sorted (sorted : (members.map Prod.fst).Pairwise (· < ·)) :
    collectMembers members = members := by
  rw [collectMembers]
  induction members using List.reverseRecOn with
  | nil => rfl
  | append_singleton others last inductionHypothesis =>
      rw [List.map_append, List.pairwise_append] at sorted
      rw [List.foldl_append, inductionHypothesis sorted.1]
      exact insertMember_last fun other among =>
        sorted.2.2 other among last.1 (List.mem_singleton.mpr rfl)

/-- Members with different keys are collected to one map in any order. -/
theorem collectMembers_perm {others : List (Text × Value)} (same : members.Perm others)
    (distinct : (members.map Prod.fst).Nodup) : collectMembers members = collectMembers others := by
  have distinct' : (others.map Prod.fst).Nodup := (same.map Prod.fst).nodup_iff.mp distinct
  have sorted (map : List (Text × Value)) := List.pairwise_map.mp (pairwise_collectMembers map)
  refine List.Perm.eq_of_pairwise
    (fun first second _ _ before behind => absurd before (lt_asymm behind))
    (sorted members) (sorted others) ?_
  exact (perm_collectMembers distinct).trans (same.trans (perm_collectMembers distinct').symm)

end Maps

/-! ## What is serialized -/

theorem keys_toMembers (members : List (Text × Value)) :
    (toMembers members).map Prod.fst = members.map Prod.fst := by
  induction members with
  | nil => rfl
  | cons member rest inductionHypothesis =>
      rw [toMembers, List.map_cons, inductionHypothesis, List.map_cons]

mutual

/-- A serialized value is sorted. -/
theorem sorted_toValue : ∀ value, (toValue value).Sorted
  | .null | .bool _ | .number _ | .string _ => by rw [toValue]; trivial
  | .array values => by
      rw [toValue, Value.Sorted]
      exact sorted_toValues values
  | .object members => by
      rw [toValue, Value.Sorted]
      refine ⟨pairwise_collectMembers _, sortedMembers_iff.mpr fun member among => ?_⟩
      exact sortedMembers_iff.mp (sorted_toMembers members) member
        (mem_of_mem_collectMembers among)

theorem sorted_toValues : ∀ values, SortedAll (toValues values)
  | [] => trivial
  | value :: rest => by
      rw [toValues, SortedAll]
      exact ⟨sorted_toValue value, sorted_toValues rest⟩

theorem sorted_toMembers : ∀ members, SortedMembers (toMembers members)
  | [] => trivial
  | (_, value) :: rest => by
      rw [toMembers, SortedMembers]
      exact ⟨sorted_toValue value, sorted_toMembers rest⟩

end

mutual

/-- A sorted value is serialized as it is. -/
theorem toValue_of_sorted : ∀ {value : Value}, value.Sorted → toValue value = value
  | .null, _ | .bool _, _ | .number _, _ | .string _, _ => by rw [toValue]
  | .array values, sorted => by
      rw [Value.Sorted] at sorted
      rw [toValue, toValues_of_sorted sorted]
  | .object members, sorted => by
      rw [Value.Sorted] at sorted
      rw [toValue, toMembers_of_sorted sorted.2, collectMembers_of_sorted sorted.1]

theorem toValues_of_sorted : ∀ {values : List Value}, SortedAll values → toValues values = values
  | [], _ => rfl
  | value :: rest, sorted => by
      rw [SortedAll] at sorted
      rw [toValues, toValue_of_sorted sorted.1, toValues_of_sorted sorted.2]

theorem toMembers_of_sorted : ∀ {members : List (Text × Value)}, SortedMembers members →
    toMembers members = members
  | [], _ => rfl
  | (key, value) :: rest, sorted => by
      rw [SortedMembers] at sorted
      rw [toMembers, toValue_of_sorted sorted.1, toMembers_of_sorted sorted.2]

end

/-! ## Texts and trees -/

mutual

/-- How deep arrays and objects are nested. -/
def Value.depth : Value → Nat
  | .array values => depthAll values + 1
  | .object members => depthMembers members + 1
  | _ => 0

/-- The depth of the elements of an array. -/
def depthAll : List Value → Nat
  | [] => 0
  | value :: rest => max value.depth (depthAll rest)

/-- The depth of the values of an object. -/
def depthMembers : List (Text × Value) → Nat
  | [] => 0
  | (_, value) :: rest => max value.depth (depthMembers rest)

end

mutual

/-- The tree of a value. -/
def Value.tree : Value → Json.Tree
  | .null => .null
  | .bool value => .bool value
  | .number (.integer value _) => .integer value
  | .number .float => .float
  | .string value => .string value
  | .array values => .array (treeAll values)
  | .object members => .object (treeMembers members)

/-- The trees of the elements of an array. -/
def treeAll : List Value → List Json.Tree
  | [] => []
  | value :: rest => value.tree :: treeAll rest

/-- The trees of the members of an object. -/
def treeMembers : List (Text × Value) → List (Text × Json.Tree)
  | [] => []
  | (key, value) :: rest => (key, value.tree) :: treeMembers rest

end

/-- Members in order are written in this order. -/
theorem writeMembers_sorted {members : List (Text × Value)}
    (sorted : (members.map Prod.fst).Pairwise (· < ·)) :
    (writeMembers members).insertionSort (fun first second => first.1 ≤ second.1) =
      writeMembers members := by
  have keys : (writeMembers members).map Prod.fst = members.map Prod.fst := by
    clear sorted
    induction members with
    | nil => rfl
    | cons member rest inductionHypothesis =>
        rw [writeMembers, List.map_cons, inductionHypothesis, List.map_cons]
  rw [← keys, List.pairwise_map] at sorted
  exact (sorted.imp fun before => le_of_lt before).insertionSort_eq

theorem rejectControlChars_eq_ok {text : Text} {passed : Unit} :
    rejectControlChars text = .ok passed ↔ text.any Text.isControl = false := by
  rw [rejectControlChars, refuseIf_eq_ok, Bool.not_eq_true]

mutual

/-- What is written of a sorted value is read as its tree. -/
theorem reads_writeCanonical : ∀ {value : Value} {text : Text} {depth : Nat}, value.Sorted →
    writeCanonical value = .ok text → value.depth ≤ depth → Json.Reads depth text value.tree
  | .null, _, _, _, written, _ => by
      rw [writeCanonical] at written
      cases written
      exact Json.reads_null
  | .bool value, _, _, _, written, _ => by
      rw [writeCanonical] at written
      cases written
      cases value with
      | true => exact Json.reads_true
      | false => exact Json.reads_false
  | .number (.integer value fits), _, _, _, written, _ => by
      rw [writeCanonical] at written
      cases written
      exact Json.reads_decimal fits
  | .number .float, _, _, _, written, _ => by
      rw [writeCanonical] at written
      cases written
  | .string value, _, _, _, written, _ => by
      rw [writeCanonical] at written
      obtain ⟨_, _, written⟩ := bind_eq_ok.mp written
      cases written
      exact Json.reads_quote value
  | .array values, _, depth, sorted, written, bounded => by
      rw [Value.Sorted] at sorted
      rw [Value.depth] at bounded
      rw [writeCanonical] at written
      obtain ⟨texts, joined, written⟩ := bind_eq_ok.mp written
      cases written
      obtain ⟨depth, rfl⟩ := Nat.exists_eq_add_of_le' (Nat.one_le_of_lt bounded)
      obtain ⟨empty, none⟩ | ⟨elements, first, nonempty⟩ :=
        reads_joinElements sorted joined (Nat.le_of_succ_le_succ bounded)
      · rw [empty, none]
        exact Json.reads_nil
      · exact Json.reads_array elements first nonempty
  | .object members, _, depth, sorted, written, bounded => by
      rw [Value.Sorted] at sorted
      rw [Value.depth] at bounded
      rw [writeCanonical, writeMembers_sorted sorted.1] at written
      obtain ⟨texts, joined, written⟩ := bind_eq_ok.mp written
      cases written
      obtain ⟨depth, rfl⟩ := Nat.exists_eq_add_of_le' (Nat.one_le_of_lt bounded)
      obtain ⟨empty, none⟩ | ⟨inside, quoted⟩ :=
        reads_joinMembers sorted.2 joined (Nat.le_of_succ_le_succ bounded)
      · rw [empty, none]
        exact Json.reads_empty
      · exact Json.reads_object inside quoted

theorem reads_joinElements : ∀ {values : List Value} {texts : Text} {depth : Nat},
    SortedAll values → joinElements (writeElements values) = .ok texts →
      depthAll values ≤ depth →
        (values = [] ∧ texts = []) ∨
          (Json.ReadsElements depth texts (treeAll values) ∧
            (∀ others, Json.skipSpace (texts ++ others) = texts ++ others ∧
              texts.head? ≠ some ']') ∧ texts ≠ [])
  | [], _, _, _, joined, _ => by
      cases joined
      exact .inl ⟨rfl, rfl⟩
  | [value], _, _, sorted, joined, bounded => by
      rw [SortedAll] at sorted
      rw [depthAll] at bounded
      have reads := reads_writeCanonical sorted.1 joined (le_trans (Nat.le_max_left _ _) bounded)
      exact .inr ⟨.last reads, reads.first, reads.nonempty⟩
  | value :: second :: rest, _, _, sorted, joined, bounded => by
      rw [SortedAll] at sorted
      rw [depthAll] at bounded
      obtain ⟨text, written, joined⟩ := bind_eq_ok.mp joined
      obtain ⟨others, following, joined⟩ := bind_eq_ok.mp joined
      cases joined
      have reads := reads_writeCanonical sorted.1 written (le_trans (Nat.le_max_left _ _) bounded)
      obtain ⟨empty, _⟩ | ⟨elements, _⟩ := reads_joinElements sorted.2 following
        (le_trans (Nat.le_max_right _ _) bounded)
      · cases empty
      · refine .inr ⟨.cons reads elements, fun behind => ⟨?_, ?_⟩, by simp⟩
        · rw [List.append_assoc]
          exact (reads.first _).1
        · rw [List.head?_append_of_ne_nil _ reads.nonempty]
          exact (reads.first []).2

theorem reads_joinMembers : ∀ {members : List (Text × Value)} {texts : Text} {depth : Nat},
    SortedMembers members → joinMembers (writeMembers members) = .ok texts →
      depthMembers members ≤ depth →
        (members = [] ∧ texts = []) ∨
          (Json.ReadsMembers depth texts (treeMembers members) ∧
            ∃ name others, texts = Json.quote name ++ others)
  | [], _, _, _, joined, _ => by
      cases joined
      exact .inl ⟨rfl, rfl⟩
  | [(key, value)], _, _, sorted, joined, bounded => by
      rw [SortedMembers] at sorted
      rw [depthMembers] at bounded
      obtain ⟨_, _, joined⟩ := bind_eq_ok.mp joined
      obtain ⟨text, written, joined⟩ := bind_eq_ok.mp joined
      cases joined
      have reads := reads_writeCanonical sorted.1 written (le_trans (Nat.le_max_left _ _) bounded)
      exact .inr ⟨.last reads, key, _, rfl⟩
  | (key, value) :: second :: rest, _, _, sorted, joined, bounded => by
      rw [SortedMembers] at sorted
      rw [depthMembers] at bounded
      obtain ⟨_, _, joined⟩ := bind_eq_ok.mp joined
      obtain ⟨text, written, joined⟩ := bind_eq_ok.mp joined
      obtain ⟨others, following, joined⟩ := bind_eq_ok.mp joined
      cases joined
      have reads := reads_writeCanonical sorted.1 written (le_trans (Nat.le_max_left _ _) bounded)
      obtain ⟨empty, _⟩ | ⟨inside, _⟩ := reads_joinMembers sorted.2 following
        (le_trans (Nat.le_max_right _ _) bounded)
      · cases empty
      · exact .inr ⟨.cons reads inside, key, _, rfl⟩

end

/-! ## Reading what is written -/

mutual

/-- The tree of what is written is accepted as the value. -/
theorem visit_tree : ∀ {value : Value} {text : Text}, value.Sorted →
    writeCanonical value = .ok text → visit value.tree = some value
  | .null, _, _, _ | .bool _, _, _, _ => by rw [Value.tree, visit]
  | .number (.integer value fits), _, _, _ => by rw [Value.tree, visit, dif_pos fits]
  | .number .float, _, _, written => by
      rw [writeCanonical] at written
      cases written
  | .string value, _, _, written => by
      rw [writeCanonical] at written
      obtain ⟨_, printable, _⟩ := bind_eq_ok.mp written
      rw [rejectControlChars_eq_ok] at printable
      rw [Value.tree, visit, if_neg (by rw [printable]; exact Bool.false_ne_true)]
  | .array values, _, sorted, written => by
      rw [Value.Sorted] at sorted
      rw [writeCanonical] at written
      obtain ⟨_, joined, _⟩ := bind_eq_ok.mp written
      rw [Value.tree, visit, visitSeq_treeAll sorted joined, Option.map_some]
  | .object members, _, sorted, written => by
      rw [Value.Sorted] at sorted
      rw [writeCanonical, writeMembers_sorted sorted.1] at written
      obtain ⟨_, joined, _⟩ := bind_eq_ok.mp written
      rw [Value.tree, visit, visitMap_treeMembers [] sorted.1 sorted.2 joined (fun _ _ => nofun),
        Option.map_some, collectMembers_of_sorted sorted.1]

theorem visitSeq_treeAll : ∀ {values : List Value} {texts : Text}, SortedAll values →
    joinElements (writeElements values) = .ok texts → visitSeq (treeAll values) = some values
  | [], _, _, _ => rfl
  | [value], _, sorted, joined => by
      rw [SortedAll] at sorted
      rw [treeAll, treeAll, visitSeq, visitSeq, visit_tree sorted.1 joined]
      rfl
  | value :: second :: rest, _, sorted, joined => by
      rw [SortedAll] at sorted
      obtain ⟨_, written, joined⟩ := bind_eq_ok.mp joined
      obtain ⟨_, following, _⟩ := bind_eq_ok.mp joined
      rw [treeAll, visitSeq, visit_tree sorted.1 written, visitSeq_treeAll sorted.2 following]
      rfl

theorem visitMap_treeMembers : ∀ {members : List (Text × Value)} {texts : Text} (keys : List Text),
    (members.map Prod.fst).Pairwise (· < ·) → SortedMembers members →
      joinMembers (writeMembers members) = .ok texts →
        (∀ member ∈ members, member.1 ∉ keys) →
          visitMap (treeMembers members) keys = some members
  | [], _, _, _, _, _, _ => rfl
  | [(key, value)], _, keys, _, sorted, joined, new => by
      rw [SortedMembers] at sorted
      obtain ⟨_, printable, joined⟩ := bind_eq_ok.mp joined
      obtain ⟨_, written, _⟩ := bind_eq_ok.mp joined
      rw [rejectControlChars_eq_ok] at printable
      have absent : key ∉ keys := new (key, value) List.mem_cons_self
      rw [treeMembers, treeMembers, visitMap, visitMap,
        if_neg (by rw [printable]; exact Bool.false_ne_true), if_neg (by simpa using absent),
        visit_tree sorted.1 written]
      rfl
  | (key, value) :: second :: rest, _, keys, ordered, sorted, joined, new => by
      rw [SortedMembers] at sorted
      rw [List.map_cons, List.pairwise_cons] at ordered
      obtain ⟨_, printable, joined⟩ := bind_eq_ok.mp joined
      obtain ⟨_, written, joined⟩ := bind_eq_ok.mp joined
      obtain ⟨_, following, _⟩ := bind_eq_ok.mp joined
      rw [rejectControlChars_eq_ok] at printable
      have absent : key ∉ keys := new (key, value) List.mem_cons_self
      have others : ∀ member ∈ second :: rest, member.1 ∉ key :: keys := by
        intro member among
        rw [List.mem_cons, not_or]
        exact ⟨ne_of_gt (ordered.1 _ (List.mem_map_of_mem among)),
          new member (List.mem_cons_of_mem _ among)⟩
      rw [treeMembers, visitMap, if_neg (by rw [printable]; exact Bool.false_ne_true),
        if_neg (by simpa using absent), visit_tree sorted.1 written,
        visitMap_treeMembers (key :: keys) ordered.2 sorted.2 following others]
      rfl

end

/-- Elements which are all written are joined. -/
theorem exists_joinElements {values : List Value}
    (written : ∀ value ∈ values, ∃ text, writeCanonical value = .ok text) :
    ∃ texts, joinElements (writeElements values) = .ok texts := by
  induction values with
  | nil => exact ⟨[], rfl⟩
  | cons value rest inductionHypothesis =>
      obtain ⟨text, here⟩ := written value List.mem_cons_self
      obtain ⟨texts, others⟩ := inductionHypothesis fun other among =>
        written other (List.mem_cons_of_mem _ among)
      cases rest with
      | nil => exact ⟨text, here⟩
      | cons second rest =>
          refine ⟨text ++ ',' :: texts, ?_⟩
          rw [writeElements, here]
          exact bind_eq_ok.mpr ⟨text, rfl, bind_eq_ok.mpr ⟨texts, others, rfl⟩⟩

/-- Members with printable keys which are all written are joined. -/
theorem exists_joinMembers {members : List (Text × Value)}
    (written : ∀ member ∈ members, member.1.any Text.isControl = false ∧
      ∃ text, writeCanonical member.2 = .ok text) :
    ∃ texts, joinMembers (writeMembers members) = .ok texts := by
  induction members with
  | nil => exact ⟨[], rfl⟩
  | cons member rest inductionHypothesis =>
      obtain ⟨printable, text, here⟩ := written member List.mem_cons_self
      obtain ⟨texts, others⟩ := inductionHypothesis fun other among =>
        written other (List.mem_cons_of_mem _ among)
      have admitted : rejectControlChars member.1 = .ok () := rejectControlChars_eq_ok.mpr printable
      cases rest with
      | nil =>
          refine ⟨Json.quote member.1 ++ ':' :: text, ?_⟩
          rw [writeMembers, here]
          exact bind_eq_ok.mpr ⟨(), admitted, rfl⟩
      | cons second rest =>
          refine ⟨Json.quote member.1 ++ ':' :: (text ++ ',' :: texts), ?_⟩
          rw [writeMembers, here]
          exact bind_eq_ok.mpr ⟨(), admitted, bind_eq_ok.mpr ⟨text, rfl,
            bind_eq_ok.mpr ⟨texts, others, rfl⟩⟩⟩

/-- A value which the writer accepts, with its maps in order. -/
def Writable (value : Value) : Prop := value.Sorted ∧ ∃ text, writeCanonical value = .ok text

mutual

/-- What the strict reader accepts can be written. -/
theorem writable_of_visit : ∀ {tree : Json.Tree} {value : Value}, visit tree = some value →
    Writable value
  | .null, _, accepted | .bool _, _, accepted => by
      rw [visit] at accepted
      cases accepted
      exact ⟨trivial, _, by rw [writeCanonical]; rfl⟩
  | .integer value, _, accepted => by
      rw [visit] at accepted
      split_ifs at accepted
      cases accepted
      exact ⟨trivial, _, by rw [writeCanonical]; rfl⟩
  | .float, _, accepted => by
      rw [visit] at accepted
      cases accepted
  | .string value, _, accepted => by
      rw [visit] at accepted
      split_ifs at accepted with controls
      cases accepted
      have printable : rejectControlChars value = .ok () :=
        rejectControlChars_eq_ok.mpr (Bool.not_eq_true _ ▸ controls)
      exact ⟨trivial, Json.quote value, by rw [writeCanonical, printable]; rfl⟩
  | .array elements, _, accepted => by
      rw [visit] at accepted
      obtain ⟨values, visited, rfl⟩ := Option.map_eq_some_iff.mp accepted
      have each := writable_of_visitSeq visited
      obtain ⟨texts, joined⟩ := exists_joinElements fun value among => (each value among).2
      refine ⟨?_, '[' :: (texts ++ [']']), ?_⟩
      · rw [Value.Sorted]
        exact sortedAll_iff.mpr fun value among => (each value among).1
      · rw [writeCanonical]
        exact bind_eq_ok.mpr ⟨texts, joined, rfl⟩
  | .object members, _, accepted => by
      rw [visit] at accepted
      obtain ⟨values, visited, rfl⟩ := Option.map_eq_some_iff.mp accepted
      have each := writable_of_visitMap [] visited
      have ordered := pairwise_collectMembers values
      obtain ⟨texts, joined⟩ := exists_joinMembers fun member among =>
        have accepted := each member (mem_of_mem_collectMembers among)
        ⟨accepted.1, accepted.2.2⟩
      refine ⟨?_, '{' :: (texts ++ ['}']), ?_⟩
      · rw [Value.Sorted]
        exact ⟨ordered, sortedMembers_iff.mpr fun member among =>
          (each member (mem_of_mem_collectMembers among)).2.1⟩
      · rw [writeCanonical, writeMembers_sorted ordered]
        exact bind_eq_ok.mpr ⟨texts, joined, rfl⟩

theorem writable_of_visitSeq : ∀ {elements : List Json.Tree} {values : List Value},
    visitSeq elements = some values → ∀ value ∈ values, Writable value
  | [], _, accepted => by
      cases accepted
      exact nofun
  | element :: rest, _, accepted => by
      rw [visitSeq] at accepted
      obtain ⟨value, here, accepted⟩ := Option.bind_eq_some_iff.mp accepted
      obtain ⟨values, others, accepted⟩ := Option.bind_eq_some_iff.mp accepted
      cases accepted
      exact List.forall_mem_cons.mpr ⟨writable_of_visit here, writable_of_visitSeq others⟩

theorem writable_of_visitMap : ∀ {members : List (Text × Json.Tree)} {values : List (Text × Value)}
    (keys : List Text), visitMap members keys = some values →
      ∀ member ∈ values, member.1.any Text.isControl = false ∧ Writable member.2
  | [], _, _, accepted => by
      cases accepted
      exact nofun
  | (key, member) :: rest, _, keys, accepted => by
      rw [visitMap] at accepted
      split_ifs at accepted with controls repeated
      obtain ⟨value, here, accepted⟩ := Option.bind_eq_some_iff.mp accepted
      obtain ⟨values, others, accepted⟩ := Option.bind_eq_some_iff.mp accepted
      cases accepted
      exact List.forall_mem_cons.mpr ⟨⟨Bool.not_eq_true _ ▸ controls, writable_of_visit here⟩,
        writable_of_visitMap (key :: keys) others⟩

end

/-! ## The code -/

section Code

variable {value other : Value} {bytes : Octets} {depth : Nat}

theorem canonicalJsonV1_eq_ok (sorted : value.Sorted) :
    canonicalJsonV1 value = .ok bytes ↔
      ∃ text, writeCanonical value = .ok text ∧ utf8 (String.ofList text) = bytes := by
  rw [canonicalJsonV1, toValue_of_sorted sorted, bind_eq_ok]
  simp only [pure, Except.pure, Except.ok.injEq]

theorem strictValue_canonical (sorted : value.Sorted) (encoded : canonicalJsonV1 value = .ok bytes)
    (bounded : value.depth ≤ depth) : strictValue depth bytes = some value := by
  obtain ⟨text, written, rfl⟩ := (canonicalJsonV1_eq_ok sorted).mp encoded
  have read := (reads_writeCanonical sorted written bounded).whole
  rw [strictValue, fromUTF8?_utf8]
  simp only [Option.bind_eq_bind, Option.bind_some, String.toList_ofList, read]
  exact visit_tree sorted written

/-- What is accepted is accepted with a larger bound. -/
theorem strictValue_mono {deeper : Nat} (bounded : depth ≤ deeper)
    (accepted : strictValue depth bytes = some value) : strictValue deeper bytes = some value := by
  rw [strictValue] at accepted ⊢
  obtain ⟨text, decoded, accepted⟩ := Option.bind_eq_some_iff.mp accepted
  obtain ⟨tree, read, accepted⟩ := Option.bind_eq_some_iff.mp accepted
  rw [decoded]
  simp only [Option.bind_eq_bind, Option.bind_some, Json.read_mono bounded read]
  exact accepted

theorem exists_canonical (accepted : strictValue depth bytes = some value) :
    value.Sorted ∧ ∃ encoded, canonicalJsonV1 value = .ok encoded := by
  rw [strictValue] at accepted
  obtain ⟨_, _, accepted⟩ := Option.bind_eq_some_iff.mp accepted
  obtain ⟨_, _, accepted⟩ := Option.bind_eq_some_iff.mp accepted
  obtain ⟨sorted, text, written⟩ := writable_of_visit accepted
  exact ⟨sorted, _, (canonicalJsonV1_eq_ok sorted).mpr ⟨text, written, rfl⟩⟩

theorem canonicalJsonV1_injective (sorted : value.Sorted) (sorted' : other.Sorted)
    (encoded : canonicalJsonV1 value = .ok bytes) (encoded' : canonicalJsonV1 other = .ok bytes) :
    value = other := by
  have first := strictValue_canonical sorted encoded (Nat.le_max_left value.depth other.depth)
  have second := strictValue_canonical sorted' encoded' (Nat.le_max_right value.depth other.depth)
  exact Option.some.inj (first.symm.trans second)

theorem canonicalJsonV1_toValue (value : Value) :
    canonicalJsonV1 (toValue value) = canonicalJsonV1 value := by
  rw [canonicalJsonV1, canonicalJsonV1, toValue_of_sorted (sorted_toValue value)]

end Code

/-! ## Orders of members -/

mutual

/-- The same value with the members of its objects supplied in another order. -/
inductive Reordered : Value → Value → Prop where
  | refl (value : Value) : Reordered value value
  | array {values others : List Value} (elements : ReorderedAll values others) :
      Reordered (.array values) (.array others)
  | object {members changed others : List (Text × Value)}
      (inside : ReorderedMembers members changed) (distinct : (changed.map Prod.fst).Nodup)
      (same : changed.Perm others) : Reordered (.object members) (.object others)

/-- Elements one by one. -/
inductive ReorderedAll : List Value → List Value → Prop where
  | nil : ReorderedAll [] []
  | cons {value other : Value} {rest others : List Value} (first : Reordered value other)
      (following : ReorderedAll rest others) : ReorderedAll (value :: rest) (other :: others)

/-- Members one by one, under the same keys. -/
inductive ReorderedMembers : List (Text × Value) → List (Text × Value) → Prop where
  | nil : ReorderedMembers [] []
  | cons (key : Text) {value other : Value} {rest others : List (Text × Value)}
      (first : Reordered value other) (following : ReorderedMembers rest others) :
      ReorderedMembers ((key, value) :: rest) ((key, other) :: others)

end

/-- Serializing the values of members keeps a rearrangement of them. -/
theorem toMembers_perm {members others : List (Text × Value)} (same : members.Perm others) :
    (toMembers members).Perm (toMembers others) := by
  have mapped (list : List (Text × Value)) :
      toMembers list = list.map fun member => (member.1, toValue member.2) := by
    induction list with
    | nil => rfl
    | cons member rest inductionHypothesis =>
        rw [toMembers, inductionHypothesis, List.map_cons]
  rw [mapped, mapped]
  exact same.map _

mutual

/-- The order in which members are supplied does not matter. -/
theorem toValue_reordered : ∀ {value other : Value}, Reordered value other →
    toValue value = toValue other
  | _, _, .refl _ => rfl
  | _, _, .array elements => by rw [toValue, toValue, toValues_reordered elements]
  | _, _, .object inside distinct same => by
      rw [toValue, toValue, toMembers_reordered inside]
      rw [← keys_toMembers] at distinct
      rw [collectMembers_perm (toMembers_perm same) distinct]

theorem toValues_reordered : ∀ {values others : List Value}, ReorderedAll values others →
    toValues values = toValues others
  | _, _, .nil => rfl
  | _, _, .cons first following => by
      rw [toValues, toValues, toValue_reordered first, toValues_reordered following]

theorem toMembers_reordered : ∀ {members others : List (Text × Value)},
    ReorderedMembers members others → toMembers members = toMembers others
  | _, _, .nil => rfl
  | _, _, .cons key first following => by
      rw [toMembers, toMembers, toValue_reordered first, toMembers_reordered following]

end

/-! ## Results -/

/-- Canonical JSON is a code for values which are not nested deeper than the strict reader admits:
an encoding is read back as the value, whatever the order in which its members were supplied,
different values have different encodings, and bytes which are accepted are written back
unchanged exactly when they are an encoding. -/
theorem canonical_json_is_a_code :
    (∀ value bytes, (toValue value).depth ≤ maxDepth → canonicalJsonV1 value = .ok bytes →
      strictJsonV1FromSlice bytes = some (toValue value)) ∧
    (∀ value : Value, value.Sorted → toValue value = value) ∧
    (∀ value other, Reordered value other → canonicalJsonV1 value = canonicalJsonV1 other) ∧
    (∀ (value other : Value) bytes, value.Sorted → other.Sorted →
      canonicalJsonV1 value = .ok bytes → canonicalJsonV1 other = .ok bytes → value = other) ∧
    ∀ bytes value, strictJsonV1FromSlice bytes = some value →
      (∃ encoded, canonicalJsonV1 value = .ok encoded) ∧
      (canonicalJsonV1 value = .ok bytes ↔
        ∃ other : Value, canonicalJsonV1 other = .ok bytes) := by
  refine ⟨fun value bytes bounded encoded => ?_, fun value sorted => toValue_of_sorted sorted,
    fun value other same => ?_, fun value other bytes sorted sorted' encoded encoded' =>
      canonicalJsonV1_injective sorted sorted' encoded encoded', fun bytes value accepted => ?_⟩
  · rw [← canonicalJsonV1_toValue] at encoded
    exact strictValue_canonical (sorted_toValue value) encoded bounded
  · rw [canonicalJsonV1, canonicalJsonV1, toValue_reordered same]
  · obtain ⟨_, encoded⟩ := exists_canonical accepted
    refine ⟨encoded, fun same => ⟨value, same⟩, ?_⟩
    rintro ⟨other, same⟩
    -- The value of an encoding is read with any bound which is large enough for both.
    have accepted' := strictValue_mono (Nat.le_max_left maxDepth (toValue other).depth) accepted
    rw [← canonicalJsonV1_toValue] at same
    have read := strictValue_canonical (sorted_toValue other) same
      (Nat.le_max_right maxDepth (toValue other).depth)
    rw [accepted', Option.some.injEq] at read
    rw [read]
    exact same

/-- A value with members which are not in order. -/
def sample : Value :=
  .object [("b".toList, .array [.null, .bool true, .number (.integer (-5) (by decide))]),
    ("a".toList, .string "\\ \"甲\"".toList)]

/-- The sample is read back with its members in order. -/
theorem sample_is_read_back :
    ∃ bytes, canonicalJsonV1 sample = .ok bytes ∧
      strictJsonV1FromSlice bytes = some (toValue sample) := by
  have encoded : (canonicalJsonV1 sample).toOption.any (fun _ => true) = true := by decide
  obtain ⟨bytes, encoded, _⟩ := any_toOption encoded
  exact ⟨bytes, encoded, canonical_json_is_a_code.1 sample bytes (by decide) encoded⟩

/-- An array in an array, and so on. -/
def nested : Nat → Value
  | 0 => .array []
  | depth + 1 => .array [nested depth]

/-- The encoding of a nested array is a nest of brackets. -/
theorem writeCanonical_nested (depth : Nat) : ∃ closing,
    writeCanonical (toValue (nested depth)) =
      .ok (List.replicate (depth + 1) '[' ++ closing) := by
  induction depth with
  | zero => exact ⟨[']'], rfl⟩
  | succ depth inductionHypothesis =>
      obtain ⟨closing, written⟩ := inductionHypothesis
      refine ⟨closing ++ [']'], ?_⟩
      rw [nested, toValue, toValues, toValues, writeCanonical, writeElements, writeElements, written,
        List.replicate_succ, List.cons_append, ← List.append_assoc]
      rfl

/-- More opening brackets than the bound on the depth are not read. -/
theorem readValue_brackets (fuel depth : Nat) (rest : Text) :
    Json.readValue fuel depth (List.replicate (depth + 1) '[' ++ rest) = none := by
  induction depth generalizing fuel with
  | zero =>
      cases fuel with
      | zero => rfl
      | succ fuel => rfl
  | succ depth inductionHypothesis =>
      cases fuel with
      | zero => rfl
      | succ fuel =>
          have elements : Json.readElements fuel depth
              (List.replicate (depth + 1) '[' ++ rest) = none := by
            cases fuel with
            | zero => rfl
            | succ fuel =>
                rw [Json.readElements, inductionHypothesis]
                rfl
          have inside : (Json.skipSpace (List.replicate (depth + 1) '[' ++ rest)).head? ≠
              some ']' := by
            rw [List.replicate_succ, List.cons_append, Json.skipSpace_cons _ rfl]
            exact fun same => absurd (Option.some.inj same) (by decide)
          rw [List.replicate_succ, List.cons_append, Json.readValue, Json.skipSpace_cons _ rfl]
          dsimp only
          rw [if_neg (by decide), if_pos rfl, if_neg inside, elements]
          rfl

/-- An encoding which is nested too deep is refused. -/
theorem deep_encoding_is_refused :
    ∃ bytes, canonicalJsonV1 (nested 127) = .ok bytes ∧ strictJsonV1FromSlice bytes = none := by
  obtain ⟨closing, written⟩ := writeCanonical_nested 127
  refine ⟨_, bind_eq_ok.mpr ⟨_, written, rfl⟩, ?_⟩
  rw [strictJsonV1FromSlice, strictValue, fromUTF8?_utf8, maxDepth]
  dsimp only [Option.bind_eq_bind, Option.bind_some]
  rw [String.toList_ofList, Json.read, readValue_brackets]
  rfl

end LawyerAssistance.Privacy

import LawyerAssistance.Std.Fallible
import LawyerAssistance.Std.Table
import LawyerAssistance.Workspace.Types

/-!
# The workspace store

One table for each object kind, and `Store.putMany`, which applies a batch of
rows as one transaction. Bodies which do not open or decode, the index and the
summaries are another layer: here every stored row is readable.
-/

namespace LawyerAssistance.Workspace

open PrivacyText

/-- The stored objects, by kind and identifier. A consent is stored under its task,
and a stage record under its material. -/
structure Store where
  groups : Table Group
  tasks : Table Task
  clients : Table McpClient
  materials : Table Material
  sources : Table Bytes
  results : Table ReadyResult
  consents : Table CloudConsent
  providers : Table ProviderConfig
  aiStages : Table AiStageRecord

/-- One row of a transaction. -/
inductive Row where
  | group (id : Id) (body : Group)
  | task (id : Id) (body : Task)
  | client (id : Id) (body : McpClient)
  | material (id : Id) (body : Material)
  | source (id : Id) (body : Bytes)
  | result (id : Id) (body : ReadyResult)
  | consent (taskId : Id) (body : CloudConsent)
  | eraseConsent (taskId : Id)
  | provider (id : Id) (body : ProviderConfig)
  | aiStage (materialId : Id) (body : AiStageRecord)
deriving DecidableEq

namespace Store

/-- The store of a new workspace. -/
def empty : Store := ⟨∅, ∅, ∅, ∅, ∅, ∅, ∅, ∅, ∅⟩

/-- `write_row`, or the deletion of a consent. -/
def writeRow (store : Store) : Row → Store
  | .group id body => { store with groups := store.groups.put id body }
  | .task id body => { store with tasks := store.tasks.put id body }
  | .client id body => { store with clients := store.clients.put id body }
  | .material id body => { store with materials := store.materials.put id body }
  | .source id body => { store with sources := store.sources.put id body }
  | .result id body => { store with results := store.results.put id body }
  | .consent taskId body => { store with consents := store.consents.put taskId body }
  | .eraseConsent taskId => { store with consents := store.consents.remove taskId }
  | .provider id body => { store with providers := store.providers.put id body }
  | .aiStage materialId body => { store with aiStages := store.aiStages.put materialId body }

/-- Apply a batch of rows in one transaction. -/
def putMany (store : Store) (rows : List Row) : Store := rows.foldl writeRow store

/-- Read a row, or report that it does not exist. -/
def require {α : Type} (row : Option α) : Except Error α := presentOr row (.new "not_found")

/-- `material` of the source. -/
def material (store : Store) (id : Id) : Except Error Material := require (store.materials.get id)

@[simp] theorem material_eq_ok {store : Store} {id : Id} {found : Material} :
    store.material id = .ok found ↔ store.materials.get id = some found := by
  simp [material, require]

@[simp] theorem require_eq_ok {α : Type} {row : Option α} {found : α} :
    require row = .ok found ↔ row = some found := by
  simp [require]

@[simp] theorem putMany_nil (store : Store) : store.putMany [] = store := rfl

@[simp] theorem putMany_cons (store : Store) (row : Row) (rows : List Row) :
    store.putMany (row :: rows) = (store.writeRow row).putMany rows := rfl

/-- A transaction over two lists of rows is one after the other. -/
theorem putMany_append (store : Store) (first second : List Row) :
    store.putMany (first ++ second) = (store.putMany first).putMany second := by
  simp [putMany, List.foldl_append]

end Store

/-! ## What a transaction leaves in a table

A table which is read through `lookup` and written by the rows which `key`
recognises holds, after a transaction, a row of the transaction or the row
which it held before. -/

/-- How one kind of rows writes one table: `key` recognises the rows of the kind,
and a row of the kind sets or removes the entry of its identifier. -/
structure Kind (α : Type) where
  table : Store → Table α
  key : Row → Option (Id × Option α)
  writes : ∀ {store row id body}, key row = some (id, body) → ∀ other,
    (table (store.writeRow row)).get other =
      if other = id then body else (table store).get other
  ignores : ∀ {store row}, key row = none → ∀ other,
    (table (store.writeRow row)).get other = (table store).get other

namespace Kind

variable {α : Type} (kind : Kind α)

/-- A transaction without a row for an identifier leaves its entry as it was. -/
theorem get_putMany_of_absent {store : Store} {rows : List Row} {id : Id}
    (absent : ∀ row ∈ rows, ∀ body, kind.key row ≠ some (id, body)) :
    (kind.table (store.putMany rows)).get id = (kind.table store).get id := by
  induction rows generalizing store with
  | nil => rfl
  | cons row rest inductionHypothesis =>
      rw [Store.putMany_cons, inductionHypothesis fun other member =>
        absent other (List.mem_cons_of_mem _ member)]
      cases keyCase : kind.key row with
      | none => exact kind.ignores keyCase id
      | some entry =>
          obtain ⟨written, body⟩ := entry
          have different : id ≠ written := by
            rintro rfl
            exact absent row List.mem_cons_self body keyCase
          rw [kind.writes keyCase id, if_neg different]

/-- A transaction with a row for an identifier leaves one of its rows there. -/
theorem get_putMany_of_present {store : Store} {rows : List Row} {id : Id} {row : Row}
    {body : Option α} (member : row ∈ rows) (written : kind.key row = some (id, body)) :
    ∃ last ∈ rows, ∃ final, kind.key last = some (id, final) ∧
      (kind.table (store.putMany rows)).get id = final := by
  induction rows generalizing store row body with
  | nil => cases member
  | cons head rest inductionHypothesis =>
      by_cases later : ∃ other ∈ rest, ∃ final, kind.key other = some (id, final)
      · obtain ⟨other, inRest, final, otherKey⟩ := later
        obtain ⟨last, lastInRest, lastFinal, lastKey, found⟩ :=
          @inductionHypothesis (store.writeRow head) _ _ inRest otherKey
        exact ⟨last, List.mem_cons_of_mem _ lastInRest, lastFinal, lastKey, found⟩
      · have headWrites : kind.key head = some (id, body) := by
          rcases List.mem_cons.mp member with rfl | inRest
          · exact written
          · exact absurd ⟨row, inRest, body, written⟩ later
        refine ⟨head, List.mem_cons_self, body, headWrites, ?_⟩
        rw [Store.putMany_cons, kind.get_putMany_of_absent fun other inRest final otherKey =>
          later ⟨other, inRest, final, otherKey⟩, kind.writes headWrites id, if_pos rfl]

/-- Whatever a transaction leaves under an identifier is one of its rows or the old entry. -/
theorem get_putMany_cases (store : Store) (rows : List Row) (id : Id) :
    (∃ last ∈ rows, ∃ final, kind.key last = some (id, final) ∧
      (kind.table (store.putMany rows)).get id = final) ∨
    ((∀ row ∈ rows, ∀ body, kind.key row ≠ some (id, body)) ∧
      (kind.table (store.putMany rows)).get id = (kind.table store).get id) := by
  by_cases present : ∃ row ∈ rows, ∃ body, kind.key row = some (id, body)
  · obtain ⟨row, member, body, written⟩ := present
    exact .inl (kind.get_putMany_of_present member written)
  · have absent : ∀ row ∈ rows, ∀ body, kind.key row ≠ some (id, body) :=
      fun row member body written => present ⟨row, member, body, written⟩
    exact .inr ⟨absent, kind.get_putMany_of_absent absent⟩

end Kind

/-- The rows of the material table. -/
def materialKind : Kind Material where
  table := Store.materials
  key | .material id body => some (id, some body) | _ => none
  writes := by
    intro store row id body written other
    cases row <;> simp_all [Store.writeRow, Table.get_put]
  ignores := by
    intro store row ignored other
    cases row <;> simp_all [Store.writeRow]

/-- The rows of the result table. -/
def resultKind : Kind ReadyResult where
  table := Store.results
  key | .result id body => some (id, some body) | _ => none
  writes := by
    intro store row id body written other
    cases row <;> simp_all [Store.writeRow, Table.get_put]
  ignores := by
    intro store row ignored other
    cases row <;> simp_all [Store.writeRow]

/-- The rows of the group table. -/
def groupKind : Kind Group where
  table := Store.groups
  key | .group id body => some (id, some body) | _ => none
  writes := by
    intro store row id body written other
    cases row <;> simp_all [Store.writeRow, Table.get_put]
  ignores := by
    intro store row ignored other
    cases row <;> simp_all [Store.writeRow]

/-- The rows of the consent table, deletions included. -/
def consentKind : Kind CloudConsent where
  table := Store.consents
  key
    | .consent taskId body => some (taskId, some body)
    | .eraseConsent taskId => some (taskId, none)
    | _ => none
  writes := by
    intro store row id body written other
    cases row <;> simp_all [Store.writeRow, Table.get_put, Table.get_remove]
  ignores := by
    intro store row ignored other
    cases row <;> simp_all [Store.writeRow]

/-- The rows of the stage table. -/
def aiStageKind : Kind AiStageRecord where
  table := Store.aiStages
  key | .aiStage materialId body => some (materialId, some body) | _ => none
  writes := by
    intro store row id body written other
    cases row <;> simp_all [Store.writeRow, Table.get_put]
  ignores := by
    intro store row ignored other
    cases row <;> simp_all [Store.writeRow]

/-! The same facts for the single tables, in terms of their rows. -/

section Tables

variable {store : Store} {rows : List Row} {id : Id}

theorem materials_putMany_of_absent (absent : ∀ m, .material id m ∉ rows) :
    (store.putMany rows).materials.get id = store.materials.get id :=
  materialKind.get_putMany_of_absent fun row member body key => by
    cases row <;> simp_all [materialKind]

theorem results_putMany_of_absent (absent : ∀ r, .result id r ∉ rows) :
    (store.putMany rows).results.get id = store.results.get id :=
  resultKind.get_putMany_of_absent fun row member body key => by
    cases row <;> simp_all [resultKind]

theorem groups_putMany_of_absent (absent : ∀ g, .group id g ∉ rows) :
    (store.putMany rows).groups.get id = store.groups.get id :=
  groupKind.get_putMany_of_absent fun row member body key => by
    cases row <;> simp_all [groupKind]

theorem aiStages_putMany_of_absent (absent : ∀ record, .aiStage id record ∉ rows) :
    (store.putMany rows).aiStages.get id = store.aiStages.get id :=
  aiStageKind.get_putMany_of_absent fun row member body key => by
    cases row <;> simp_all [aiStageKind]

/-- A material which is found after a transaction is one of its rows or an untouched one. -/
theorem materials_putMany_cases {m : Material}
    (found : (store.putMany rows).materials.get id = some m) :
    .material id m ∈ rows ∨
      (store.materials.get id = some m ∧ ∀ other, .material id other ∉ rows) := by
  rcases materialKind.get_putMany_cases store rows id with
    ⟨last, member, final, key, left⟩ | ⟨absent, kept⟩
  · obtain rfl : final = some m := left.symm.trans found
    cases last <;> simp_all [materialKind]
  · exact .inr ⟨kept.symm.trans found, fun other member => absent _ member (some other) rfl⟩

/-- A result which is found after a transaction is one of its rows or an untouched one. -/
theorem results_putMany_cases {r : ReadyResult}
    (found : (store.putMany rows).results.get id = some r) :
    .result id r ∈ rows ∨
      (store.results.get id = some r ∧ ∀ other, .result id other ∉ rows) := by
  rcases resultKind.get_putMany_cases store rows id with
    ⟨last, member, final, key, left⟩ | ⟨absent, kept⟩
  · obtain rfl : final = some r := left.symm.trans found
    cases last <;> simp_all [resultKind]
  · exact .inr ⟨kept.symm.trans found, fun other member => absent _ member (some other) rfl⟩

/-- A group which is found after a transaction is one of its rows or an untouched one. -/
theorem groups_putMany_cases {g : Group}
    (found : (store.putMany rows).groups.get id = some g) :
    .group id g ∈ rows ∨ (store.groups.get id = some g ∧ ∀ other, .group id other ∉ rows) := by
  rcases groupKind.get_putMany_cases store rows id with
    ⟨last, member, final, key, left⟩ | ⟨absent, kept⟩
  · obtain rfl : final = some g := left.symm.trans found
    cases last <;> simp_all [groupKind]
  · exact .inr ⟨kept.symm.trans found, fun other member => absent _ member (some other) rfl⟩

/-- A stage record which is found after a transaction is one of its rows or an untouched
one. -/
theorem aiStages_putMany_cases {record : AiStageRecord}
    (found : (store.putMany rows).aiStages.get id = some record) :
    .aiStage id record ∈ rows ∨
      (store.aiStages.get id = some record ∧ ∀ other, .aiStage id other ∉ rows) := by
  rcases aiStageKind.get_putMany_cases store rows id with
    ⟨last, member, final, key, left⟩ | ⟨absent, kept⟩
  · obtain rfl : final = some record := left.symm.trans found
    cases last <;> simp_all [aiStageKind]
  · exact .inr ⟨kept.symm.trans found, fun other member => absent _ member (some other) rfl⟩

/-- A stage record is never removed. -/
theorem aiStages_putMany_isSome (stored : (store.aiStages.get id).isSome) :
    ((store.putMany rows).aiStages.get id).isSome := by
  rcases aiStageKind.get_putMany_cases store rows id with
    ⟨last, member, final, key, left⟩ | ⟨-, kept⟩
  · change (store.putMany rows).aiStages.get id = final at left
    obtain ⟨body, rfl⟩ : ∃ body, final = some body := by
      cases last <;> simp_all [aiStageKind]
      exact ⟨_, key.2.symm⟩
    simp [left]
  · change (store.putMany rows).aiStages.get id = store.aiStages.get id at kept
    rwa [kept]

/-- A result is never removed. -/
theorem results_putMany_isSome (stored : (store.results.get id).isSome) :
    ((store.putMany rows).results.get id).isSome := by
  rcases resultKind.get_putMany_cases store rows id with
    ⟨last, member, final, key, left⟩ | ⟨-, kept⟩
  · change (store.putMany rows).results.get id = final at left
    obtain ⟨body, rfl⟩ : ∃ body, final = some body := by
      cases last <;> simp_all [resultKind]
      exact ⟨_, key.2.symm⟩
    simp [left]
  · change (store.putMany rows).results.get id = store.results.get id at kept
    rwa [kept]

/-- A consent which is found after a transaction is one of its rows or an untouched one. -/
theorem consents_putMany_cases {consent : CloudConsent}
    (found : (store.putMany rows).consents.get id = some consent) :
    .consent id consent ∈ rows ∨ store.consents.get id = some consent := by
  rcases consentKind.get_putMany_cases store rows id with
    ⟨last, member, final, key, left⟩ | ⟨-, kept⟩
  · obtain rfl : final = some consent := left.symm.trans found
    cases last <;> simp_all [consentKind]
  · exact .inr (kept.symm.trans found)

end Tables

end LawyerAssistance.Workspace

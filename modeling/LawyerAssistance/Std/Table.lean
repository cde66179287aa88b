import Mathlib.Data.List.AList

/-!
# Tables with text keys

A table holds at most one row for each key. It is Mathlib's `AList`, read by
`get` and listed in the order of its keys, as a `SELECT ... ORDER BY id` returns
the rows.
-/

namespace LawyerAssistance

universe u

/-- Rows under text keys, at most one for each key. -/
abbrev Table (α : Type u) := AList (fun _ : String => α)

namespace Table

variable {α : Type u}

/-- The row stored under a key. -/
def get (table : Table α) (key : String) : Option α := table.lookup key

/-- Write a row, over the row which the key had. -/
def put (table : Table α) (key : String) (row : α) : Table α := table.insert key row

/-- Remove the row of a key. -/
def remove (table : Table α) (key : String) : Table α := table.erase key

/-- The rows with their keys, in the order of the keys. -/
def rows (table : Table α) : List (String × α) :=
  (table.entries.map fun entry => (entry.1, entry.2)).mergeSort fun left right => left.1 ≤ right.1

@[simp] theorem get_empty (key : String) : get (∅ : Table α) key = none := rfl

@[simp] theorem get_put_self (table : Table α) (key : String) (row : α) :
    (put table key row).get key = some row :=
  AList.lookup_insert table

@[simp] theorem get_put_other (table : Table α) {key other : String} (row : α)
    (different : other ≠ key) : (put table key row).get other = get table other :=
  AList.lookup_insert_ne different

theorem get_put (table : Table α) (key other : String) (row : α) :
    (put table key row).get other = if other = key then some row else get table other := by
  by_cases same : other = key
  · subst same
    simp
  · simp [same]

@[simp] theorem get_remove_self (table : Table α) (key : String) :
    (remove table key).get key = none :=
  AList.lookup_erase key table

@[simp] theorem get_remove_other (table : Table α) {key other : String}
    (different : other ≠ key) : (remove table key).get other = get table other :=
  AList.lookup_erase_ne different

theorem get_remove (table : Table α) (key other : String) :
    (remove table key).get other = if other = key then none else get table other := by
  by_cases same : other = key
  · subst same
    simp
  · simp [same]

/-- A row is an entry under a key exactly when a lookup finds it there. -/
theorem mem_entries {table : Table α} {key : String} {row : α} :
    (⟨key, row⟩ : Sigma fun _ : String => α) ∈ table.entries ↔ get table key = some row :=
  AList.mem_lookup_iff.symm

/-- A row is listed under a key exactly when a lookup finds it there. -/
theorem mem_rows {table : Table α} {key : String} {row : α} :
    (key, row) ∈ rows table ↔ get table key = some row := by
  have listed : (key, row) ∈ rows table ↔ (⟨key, row⟩ : Sigma fun _ : String => α) ∈ table.entries := by
    simp only [rows, List.mem_mergeSort, List.mem_map, Prod.mk.injEq]
    constructor
    · rintro ⟨⟨otherKey, otherRow⟩, member, rfl, rfl⟩
      exact member
    · intro member
      exact ⟨⟨key, row⟩, member, rfl, rfl⟩
  rw [listed]
  exact mem_entries

theorem nodup_keys_rows (table : Table α) : ((rows table).map Prod.fst).Nodup := by
  have sorted : (rows table).Perm (table.entries.map fun entry => (entry.1, entry.2)) :=
    List.mergeSort_perm _ _
  refine (sorted.map Prod.fst).nodup_iff.mpr ?_
  rw [List.map_map]
  exact table.nodupKeys

end Table

end LawyerAssistance

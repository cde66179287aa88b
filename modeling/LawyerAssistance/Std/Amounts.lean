import Mathlib.Algebra.BigOperators.Group.Finset.Piecewise
import Mathlib.Algebra.BigOperators.Group.List.Basic
import Mathlib.Algebra.Group.Int.Defs
import Mathlib.Algebra.GroupWithZero.Nat
import Mathlib.Algebra.Order.BigOperators.Group.Finset
import Mathlib.Data.List.AList

/-!
# Amounts of keyed entries

The total of an amount over the entries of a table, and what an insertion and a removal do to it.
-/

namespace LawyerAssistance

universe u v

namespace Amounts

variable {κ : Type u} {β : Type v} (amount : β → Nat)

/-- The sum of the amounts of the entries. -/
def total (table : AList fun _ : κ => β) : Nat :=
  (table.entries.map fun entry => amount entry.2).sum

/-- The amount which is under a key, if one is. -/
def under [DecidableEq κ] (table : AList fun _ : κ => β) (key : κ) : Nat :=
  ((table.lookup key).map amount).getD 0

@[simp] theorem total_empty : total amount (∅ : AList fun _ : κ => β) = 0 := rfl

variable {amount} [DecidableEq κ] {table : AList fun _ : κ => β} {key other : κ} {value : β}

theorem under_of_lookup (found : table.lookup key = some value) :
    under amount table key = amount value := by
  rw [under, found]
  rfl

theorem under_of_absent (absent : table.lookup key = none) : under amount table key = 0 := by
  rw [under, absent]
  rfl

/-- The entries behind a removal, and what was removed. -/
theorem sum_kerase (entries : List (Sigma fun _ : κ => β)) (key : κ) :
    ((entries.kerase key).map fun entry => amount entry.2).sum +
      ((entries.dlookup key).map amount).getD 0 =
      (entries.map fun entry => amount entry.2).sum := by
  induction entries with
  | nil => rfl
  | cons first rest inductionHypothesis =>
      obtain ⟨firstKey, firstValue⟩ := first
      by_cases same : key = firstKey
      · subst same
        have erased : ((⟨key, firstValue⟩ : Sigma fun _ : κ => β) :: rest).kerase key = rest :=
          List.kerase_cons_eq rfl
        rw [erased, List.dlookup_cons_eq, List.map_cons, List.sum_cons, add_comm]
        rfl
      · rw [List.kerase_cons_ne same, List.dlookup_cons_ne _ _ same, List.map_cons, List.map_cons,
          List.sum_cons, List.sum_cons, add_assoc, inductionHypothesis]

/-- A removal takes the amount of its key from the total, and nothing else. -/
theorem total_erase : total amount (table.erase key) + under amount table key = total amount table :=
  sum_kerase table.entries key

/-- An insertion puts the amount of its value in the place of that of its key. -/
theorem total_insert :
    total amount (table.insert key value) + under amount table key =
      total amount table + amount value := by
  have inserted : total amount (table.insert key value) =
      amount value + total amount (table.erase key) := by
    rw [total, AList.entries_insert, List.map_cons, List.sum_cons]
    rfl
  have erased : total amount (table.erase key) + under amount table key = total amount table :=
    total_erase
  omega

theorem total_insert_of_absent (absent : table.lookup key = none) :
    total amount (table.insert key value) = total amount table + amount value := by
  have inserted : total amount (table.insert key value) + under amount table key =
      total amount table + amount value := total_insert
  rw [under_of_absent absent] at inserted
  exact inserted

theorem under_insert_self : under amount (table.insert key value) key = amount value :=
  under_of_lookup (AList.lookup_insert table)

theorem under_insert_other (different : other ≠ key) :
    under amount (table.insert key value) other = under amount table other := by
  rw [under, under, AList.lookup_insert_ne different]

/-! ## Entries in a list -/

section Listed

universe w

variable {ε : Type w} (keyOf : ε → κ) (amountOf : ε → Nat)

end Listed

end Amounts

end LawyerAssistance

import Mathlib.Data.List.Sort
import Mathlib.Order.Basic

/-!
# Keyset pagination

Rows in strictly decreasing order of a key are read in pages: a page starts below the key
of the last row of the page before it. `Traverses` follows the cursors of a reader until
there is none, and `exists_traversal` says that the pages of a keyset reader are the rows,
each of them once and in order.
-/

namespace LawyerAssistance.Keyset

universe u v w

section Traversal

variable {ε : Type u} {γ : Type v} {β : Type w}

/-- The pages which a reader returns when its cursors are followed to the end. -/
inductive Traverses (read : Option γ → Except ε (List β × Option γ)) :
    Option γ → List (List β) → Prop where
  | last {cursor : Option γ} {items : List β} (ends : read cursor = .ok (items, none)) :
      Traverses read cursor [items]
  | more {cursor : Option γ} {items : List β} {next : γ} {rest : List (List β)}
      (continues : read cursor = .ok (items, some next))
      (follows : Traverses read (some next) rest) : Traverses read cursor (items :: rest)

/-- Every cursor on the way is answered. -/
theorem Traverses.answers {read : Option γ → Except ε (List β × Option γ)} {cursor : Option γ}
    {pages : List (List β)} (traverses : Traverses read cursor pages) :
    ∃ items next, read cursor = .ok (items, next) ∧
      ∀ last ∈ next, ∃ rest, Traverses read (some last) rest := by
  cases traverses with
  | last ends => exact ⟨_, none, ends, fun _ member => nomatch member⟩
  | more continues follows =>
      refine ⟨_, _, continues, fun last member => ?_⟩
      cases member
      exact ⟨_, follows⟩

end Traversal

section Page

variable {α : Type u} {κ : Type v} [LinearOrder κ] (key : α → κ)

/-- A row below the boundary where a page starts. -/
def beyond (boundary : Option κ) (row : α) : Bool :=
  match boundary with
  | none => true
  | some last => key row < last

@[simp] theorem filter_beyond_none (rows : List α) : rows.filter (beyond key none) = rows :=
  List.filter_eq_self.mpr fun _ _ => rfl

/-- The rows which a page reads: one more than it shows. -/
def selected (rows : List α) (limit : Nat) (boundary : Option κ) : List α :=
  (rows.filter (beyond key boundary)).take (limit + 1)

/-- The boundary after a page, when there are more rows. -/
def nextBoundary (rows : List α) (limit : Nat) (boundary : Option κ) : Option κ :=
  if limit < (selected key rows limit boundary).length then
    ((selected key rows limit boundary).take limit).getLast?.map key
  else none

variable {key}

/-- Rows in strictly decreasing order of their keys. -/
def Decreasing (key : α → κ) (rows : List α) : Prop :=
  rows.Pairwise fun first second => key second < key first

/-- Below the last of the first rows are the other rows. -/
theorem filter_below_last {first rest : List α} {last : α}
    (decreasing : Decreasing key (first ++ rest)) (ends : first.getLast? = some last) :
    (first ++ rest).filter (beyond key (some (key last))) = rest := by
  obtain ⟨init, rfl⟩ := List.getLast?_eq_some_iff.mp ends
  obtain ⟨front, _, between⟩ := List.pairwise_append.mp decreasing
  obtain ⟨_, _, above⟩ := List.pairwise_append.mp front
  have none : (init ++ [last]).filter (beyond key (some (key last))) = [] := by
    rw [List.filter_eq_nil_iff]
    intro row member
    obtain inInit | isLast := List.mem_append.mp member
    · have lower := above row inInit last (List.mem_singleton_self last)
      simpa [beyond] using le_of_lt lower
    · rw [List.mem_singleton.mp isLast]
      simp [beyond]
  have all : rest.filter (beyond key (some (key last))) = rest := by
    rw [List.filter_eq_self]
    intro row member
    have lower := between last (List.mem_append_right _ (List.mem_singleton_self last)) row member
    simpa [beyond] using lower
  rw [List.filter_append, none, all, List.nil_append]

/-- Below a boundary which is itself below another one. -/
theorem filter_beyond_beyond {rows : List α} {boundary : Option κ} {last : α}
    (below : beyond key boundary last = true) :
    (rows.filter (beyond key boundary)).filter (beyond key (some (key last))) =
      rows.filter (beyond key (some (key last))) := by
  rw [List.filter_filter]
  refine List.filter_congr fun row _ => ?_
  cases boundary with
  | none => simp [beyond]
  | some limit =>
      simp only [beyond, decide_eq_true_eq] at below ⊢
      by_cases lower : key row < key last
      · simp [lower, lt_trans lower below]
      · simp [lower]

/-- A nonempty page leaves the rows which it did not show. -/
theorem filter_nextBoundary {rows : List α} {limit : Nat} {boundary : Option κ} {next : κ}
    (decreasing : Decreasing key rows) (continues : nextBoundary key rows limit boundary = some next) :
    rows.filter (beyond key (some next)) = (rows.filter (beyond key boundary)).drop limit := by
  unfold nextBoundary at continues
  split_ifs at continues with longer
  obtain ⟨last, ends, rfl⟩ := Option.map_eq_some_iff.mp continues
  have shown : (selected key rows limit boundary).take limit =
      (rows.filter (beyond key boundary)).take limit := by
    rw [selected, List.take_take, Nat.min_eq_left (Nat.le_succ limit)]
  rw [shown] at ends
  have member : last ∈ rows.filter (beyond key boundary) :=
    List.mem_of_mem_take (List.mem_of_getLast? ends)
  rw [← filter_beyond_beyond (List.mem_filter.mp member).2]
  have parts := List.take_append_drop limit (rows.filter (beyond key boundary))
  have ordered : Decreasing key ((rows.filter (beyond key boundary)).take limit ++
      (rows.filter (beyond key boundary)).drop limit) := by
    rw [parts]
    exact decreasing.filter _
  have rest := filter_below_last ordered ends
  rwa [parts] at rest

/-- A keyset reader: from the first page on, and from every admitted boundary on, it shows the rows
of the next page and returns the cursor of its last row. -/
def Reads {ε : Type w} {γ : Type w} {β : Type w} (key : α → κ) (rows : List α) (limit : Nat)
    (admitted : κ → Prop) (encode : κ → γ) (shown : α → β)
    (read : Option γ → Except ε (List β × Option γ)) : Prop :=
  ∀ boundary, (∀ last ∈ boundary, admitted last) →
    read (boundary.map encode) =
      .ok (((selected key rows limit boundary).take limit).map shown,
        (nextBoundary key rows limit boundary).map encode)

/-- The boundary after a page is the key of a row. -/
theorem exists_row_of_nextBoundary {rows : List α} {limit : Nat} {boundary : Option κ} {next : κ}
    (continues : nextBoundary key rows limit boundary = some next) :
    ∃ row ∈ rows, key row = next := by
  unfold nextBoundary at continues
  split_ifs at continues
  obtain ⟨last, ends, rfl⟩ := Option.map_eq_some_iff.mp continues
  have member := List.mem_of_mem_take (List.mem_of_getLast? ends)
  exact ⟨last, (List.mem_filter.mp (List.mem_of_mem_take member)).1, rfl⟩

/-- Following the cursors of a keyset reader ends, and its pages together are the rows below the
boundary where it started, in order. -/
theorem exists_traversal {ε γ β : Type w} {rows : List α} {limit : Nat} {admitted : κ → Prop}
    {encode : κ → γ} {shown : α → β} {read : Option γ → Except ε (List β × Option γ)}
    (decreasing : Decreasing key rows) (positive : 0 < limit)
    (reads : Reads key rows limit admitted encode shown read)
    (issued : ∀ row ∈ rows, admitted (key row)) (boundary : Option κ)
    (known : ∀ last ∈ boundary, admitted last) :
    ∃ pages, Traverses read (boundary.map encode) pages ∧
      pages.flatten = (rows.filter (beyond key boundary)).map shown := by
  induction remaining : (rows.filter (beyond key boundary)).length using Nat.strong_induction_on
    generalizing boundary with
  | _ count inductionHypothesis =>
      have here := reads boundary known
      cases continues : nextBoundary key rows limit boundary with
      | none =>
          rw [continues] at here
          refine ⟨_, .last here, ?_⟩
          unfold nextBoundary at continues
          have short : ¬ limit < (selected key rows limit boundary).length := by
            intro longer
            rw [if_pos longer, Option.map_eq_none_iff, List.getLast?_eq_none_iff] at continues
            have length := congrArg List.length continues
            rw [List.length_take, List.length_nil] at length
            omega
          rw [selected, List.length_take] at short
          rw [List.flatten_singleton, selected, List.take_take, Nat.min_eq_left (Nat.le_succ limit),
            List.take_of_length_le (by omega)]
      | some next =>
          rw [continues] at here
          have fewer : (rows.filter (beyond key (some next))).length < count := by
            have nonempty : limit < (selected key rows limit boundary).length := by
              unfold nextBoundary at continues
              split_ifs at continues with longer
              exact longer
            rw [selected, List.length_take] at nonempty
            rw [filter_nextBoundary decreasing continues, List.length_drop]
            omega
          obtain ⟨pages, follows, rest⟩ := inductionHypothesis _ fewer (some next)
            (fun last member => by
              cases member
              obtain ⟨row, listed, rfl⟩ := exists_row_of_nextBoundary continues
              exact issued row listed) rfl
          refine ⟨_, .more here follows, ?_⟩
          rw [List.flatten_cons, rest, filter_nextBoundary decreasing continues, selected,
            List.take_take, Nat.min_eq_left (Nat.le_succ limit), ← List.map_append,
            List.take_append_drop]

end Page

end LawyerAssistance.Keyset

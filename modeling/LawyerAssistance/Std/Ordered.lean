import Mathlib.Data.List.Dedup
import Mathlib.Data.List.Sort

/-!
# Ordered collections and stable sorts

Sets and maps which iterate in the order of their keys, as lists, and what a stable sort makes the
first or the last of its elements. Neither a set nor a map depends on the order in which it is
filled, but for the value which a key has last; and the first element of a kind in a stable sort
does not depend on the order of the elements exactly when those which tie are the same.
-/

namespace LawyerAssistance

/-! ## Sets -/

section SortedSet

variable {α : Type} [LinearOrder α] {values others : List α} {value : α}

/-- The elements of a set in order. -/
def sortedSet (values : List α) : List α := values.dedup.insertionSort (· ≤ ·)

@[simp] theorem mem_sortedSet : value ∈ sortedSet values ↔ value ∈ values := by
  rw [sortedSet, List.mem_insertionSort, List.mem_dedup]

theorem nodup_sortedSet : (sortedSet values).Nodup :=
  (List.perm_insertionSort _ _).nodup_iff.mpr (List.nodup_dedup values)

theorem pairwise_sortedSet : (sortedSet values).Pairwise (· < ·) := by
  have sorted : (sortedSet values).Pairwise (· ≤ ·) := List.pairwise_insertionSort _ _
  exact (sorted.and nodup_sortedSet).imp fun both => lt_of_le_of_ne both.1 both.2

theorem sortedSet_eq (same : ∀ value, value ∈ values ↔ value ∈ others) :
    sortedSet values = sortedSet others := by
  have perm : (sortedSet values).Perm (sortedSet others) :=
    (List.perm_ext_iff_of_nodup nodup_sortedSet nodup_sortedSet).mpr fun value => by
      rw [mem_sortedSet, mem_sortedSet, same]
  exact perm.eq_of_pairwise (fun _ _ _ _ first second => absurd (first.trans second) (lt_irrefl _))
    pairwise_sortedSet pairwise_sortedSet

theorem sortedSet_perm (perm : values.Perm others) : sortedSet values = sortedSet others :=
  sortedSet_eq fun _ => perm.mem_iff

/-- One element, however often, is a set of one. -/
theorem sortedSet_eq_singleton :
    sortedSet values = [value] ↔ value ∈ values ∧ ∀ other ∈ values, other = value := by
  constructor
  · intro single
    have among : ∀ other, other ∈ values ↔ other = value := by
      intro other
      rw [← mem_sortedSet, single, List.mem_singleton]
    exact ⟨(among value).mpr rfl, fun other member => (among other).mp member⟩
  · rintro ⟨among, only⟩
    have same : ∀ other, other ∈ values ↔ other ∈ [value] := by
      intro other
      rw [List.mem_singleton]
      exact ⟨only other, fun same => same ▸ among⟩
    rw [sortedSet_eq same]
    rfl

end SortedSet

/-! ## The last value of a list -/

section LastSome

variable {α β : Type} {pick : α → Option β} {values others : List α} {value : α} {picked : β}

/-- The value which is picked last. -/
def lastSome (pick : α → Option β) (values : List α) : Option β := values.reverse.findSome? pick

@[simp] theorem lastSome_nil : lastSome pick [] = none := rfl

theorem lastSome_append :
    lastSome pick (values ++ others) = (lastSome pick others).or (lastSome pick values) := by
  rw [lastSome, List.reverse_append, List.findSome?_append]
  rfl

theorem lastSome_cons :
    lastSome pick (value :: values) = (lastSome pick values).or (pick value) := by
  rw [← List.singleton_append, lastSome_append]
  congr 1
  rw [lastSome, List.reverse_singleton, List.findSome?_singleton]

theorem lastSome_eq_none : lastSome pick values = none ↔ ∀ value ∈ values, pick value = none := by
  rw [lastSome, List.findSome?_eq_none_iff]
  exact forall_congr' fun _ => by rw [List.mem_reverse]

theorem exists_of_lastSome (found : lastSome pick values = some picked) :
    ∃ value ∈ values, pick value = some picked := by
  obtain ⟨value, among, same⟩ := List.exists_of_findSome?_eq_some found
  exact ⟨value, List.mem_reverse.mp among, same⟩

theorem lastSome_map {γ : Type} {compute : γ → α} {outer : List γ} :
    lastSome pick (outer.map compute) = lastSome (fun item => pick (compute item)) outer := by
  rw [lastSome, lastSome, ← List.map_reverse, List.findSome?_map]
  rfl

theorem lastSome_flatMap {γ : Type} {lists : γ → List α} {outer : List γ} :
    lastSome pick (outer.flatMap lists) =
      lastSome (fun list => lastSome pick (lists list)) outer := by
  induction outer with
  | nil => rfl
  | cons first rest inductionHypothesis =>
      rw [List.flatMap_cons, lastSome_append, inductionHypothesis, lastSome_cons]

end LastSome

/-! ## Maps -/

section SortedMap

variable {κ β : Type} [LinearOrder κ] {entries others : List (κ × β)} {key : κ} {value : β}

/-- Maps whose entries are in the order of their keys. -/
abbrev SortedMap (κ β : Type) [LinearOrder κ] :=
  {entries : List (κ × β) // (entries.map Prod.fst).Pairwise (· < ·)}

/-- The value of an entry with a key. -/
def valueAt (key : κ) (entry : κ × β) : Option β := if entry.1 = key then some entry.2 else none

/-- The value which a key has when entries are inserted one after another. -/
def lastValue (entries : List (κ × β)) (key : κ) : Option β := lastSome (valueAt key) entries

theorem valueAt_eq_some {entry : κ × β} : valueAt key entry = some value ↔ entry = (key, value) := by
  rw [valueAt]
  split_ifs with same
  · rw [Option.some_inj, Prod.ext_iff]
    exact (and_iff_right same).symm
  · exact ⟨nofun, fun equal => absurd (congrArg Prod.fst equal) same⟩

theorem lastValue_isSome : (lastValue entries key).isSome = true ↔ key ∈ entries.map Prod.fst := by
  rw [Option.isSome_iff_ne_none, Ne, lastValue, lastSome_eq_none, List.mem_map]
  constructor
  · intro some
    by_contra none
    refine some fun entry among => if_neg fun same => none ⟨entry, among, same⟩
  · rintro ⟨entry, among, rfl⟩ none
    have absent := none entry among
    rw [valueAt, if_pos rfl] at absent
    cases absent

/-- The map into which entries are inserted one after another. -/
def SortedMap.ofList (entries : List (κ × β)) : SortedMap κ β :=
  ⟨(sortedSet (entries.map Prod.fst)).filterMap fun key =>
      (lastValue entries key).map fun value => (key, value), by
    rw [List.map_filterMap]
    refine pairwise_sortedSet.filterMap _ ?_
    intro first second less firstKey found secondKey found'
    simp only [Option.map_eq_some_iff] at found found'
    obtain ⟨_, ⟨_, _, rfl⟩, rfl⟩ := found
    obtain ⟨_, ⟨_, _, rfl⟩, rfl⟩ := found'
    exact less⟩

/-- The entries of a map are those which were inserted last. -/
theorem mem_ofList : (key, value) ∈ (SortedMap.ofList entries).1 ↔
    lastValue entries key = some value := by
  rw [SortedMap.ofList, List.mem_filterMap]
  constructor
  · rintro ⟨other, _, found⟩
    obtain ⟨_, found, same⟩ := Option.map_eq_some_iff.mp found
    cases same
    exact found
  · intro found
    refine ⟨key, mem_sortedSet.mpr (lastValue_isSome.mp ?_), ?_⟩
    · rw [found]
      rfl
    · rw [found]
      rfl

/-- Two maps are the same exactly when each key has the same value last. -/
theorem ofList_eq_iff : SortedMap.ofList entries = SortedMap.ofList others ↔
    ∀ key, lastValue entries key = lastValue others key := by
  constructor
  · intro same key
    refine Option.ext fun value => ?_
    rw [← mem_ofList, ← mem_ofList, same]
  · intro same
    have keys : sortedSet (entries.map Prod.fst) = sortedSet (others.map Prod.fst) :=
      sortedSet_eq fun key => by rw [← lastValue_isSome, ← lastValue_isSome, same]
    refine Subtype.ext ?_
    change (sortedSet _).filterMap _ = (sortedSet _).filterMap _
    rw [keys, funext same]

variable [DecidableEq β]

/-- Whether the insertion of an entry finds another value, behind entries which were inserted. -/
def overwrites (inserted : List (κ × β)) : List (κ × β) → Bool
  | [] => false
  | entry :: rest =>
      (lastValue inserted entry.1).any (fun existing => decide (existing ≠ entry.2)) ||
        overwrites (inserted ++ [entry]) rest

/-- Entries with one value for each key. -/
def SingleValued (entries : List (κ × β)) : Prop :=
  ∀ first ∈ entries, ∀ second ∈ entries, first.1 = second.1 → first.2 = second.2

/-- A key does not have another value last exactly when none of its entries has. -/
theorem any_lastValue_eq_false (single : SingleValued entries) :
    (lastValue entries key).any (fun existing => decide (existing ≠ value)) = false ↔
      ∀ entry ∈ entries, entry.1 = key → entry.2 = value := by
  cases found : lastValue entries key with
  | none =>
      refine iff_of_true rfl fun entry among same => ?_
      have present : key ∈ entries.map Prod.fst := List.mem_map.mpr ⟨entry, among, same⟩
      rw [← lastValue_isSome, found] at present
      cases present
  | some existing =>
      obtain ⟨entry, among, valued⟩ := exists_of_lastSome found
      obtain rfl := valueAt_eq_some.mp valued
      rw [Option.any_some, decide_eq_false_iff_not, not_not]
      constructor
      · rintro rfl other amongToo same
        exact single other amongToo _ among same
      · exact fun all => all _ among rfl

/-- No insertion finds another value exactly when each key has one. -/
theorem overwrites_eq_false {inserted : List (κ × β)} (single : SingleValued inserted) :
    overwrites inserted entries = false ↔ SingleValued (inserted ++ entries) := by
  induction entries generalizing inserted with
  | nil =>
      rw [List.append_nil]
      exact iff_of_true rfl single
  | cons entry rest inductionHypothesis =>
      have regroup : inserted ++ entry :: rest = inserted ++ [entry] ++ rest := by
        rw [List.append_assoc, List.singleton_append]
      rw [overwrites, Bool.or_eq_false_iff, regroup]
      constructor
      · rintro ⟨kept, later⟩
        rw [any_lastValue_eq_false single] at kept
        have agrees : SingleValued (inserted ++ [entry]) := by
          intro first among second among' same
          rw [List.mem_append, List.mem_singleton] at among among'
          obtain among | rfl := among
          · obtain among' | rfl := among'
            · exact single first among second among' same
            · exact kept first among same
          · obtain among' | rfl := among'
            · exact (kept second among' same.symm).symm
            · rfl
        exact (inductionHypothesis agrees).mp later
      · intro all
        have agrees : SingleValued (inserted ++ [entry]) := fun first among second among' =>
          all first (List.mem_append_left _ among) second (List.mem_append_left _ among')
        refine ⟨?_, (inductionHypothesis agrees).mpr all⟩
        rw [any_lastValue_eq_false single]
        exact fun other among same => agrees other (List.mem_append_left _ among) entry
          (List.mem_append_right _ (List.mem_singleton_self _)) same

/-- Whether an insertion finds another value does not depend on the order of the entries. -/
theorem overwrites_eq (same : ∀ entry, entry ∈ entries ↔ entry ∈ others) :
    overwrites [] entries = overwrites [] others := by
  have none : SingleValued ([] : List (κ × β)) := nofun
  rw [Bool.eq_iff_iff, ← not_iff_not, Bool.not_eq_true, Bool.not_eq_true, overwrites_eq_false none,
    overwrites_eq_false none, List.nil_append, List.nil_append]
  simp only [SingleValued, same]

end SortedMap

/-! ## Stable sorts -/

section Stable

variable {α β κ : Type} [LinearOrder κ] {key : α → κ} {pick : α → Option β} {values : List α}
  {chosen value : α} {picked : β}

/-- `sort_by`, on a key: a stable sort. -/
def sortOn (key : α → κ) (values : List α) : List α :=
  values.insertionSort fun first second => key first ≤ key second

theorem perm_sortOn : (sortOn key values).Perm values := List.perm_insertionSort _ _

theorem pairwise_sortOn : (sortOn key values).Pairwise fun first second => key first ≤ key second := by
  have total : Std.Total fun first second : α => key first ≤ key second := ⟨fun _ _ => le_total _ _⟩
  have trans : IsTrans α fun first second => key first ≤ key second := ⟨fun _ _ _ => le_trans⟩
  exact List.pairwise_insertionSort _ _

/-- An element in front of which nothing is picked stays so when an element is inserted of which
nothing is picked, or which is not less. -/
theorem findSome?_orderedInsert_self (least : ∀ other ∈ values, (pick other).isSome = true →
    key chosen ≤ key other) (found : pick chosen = some picked) :
    (values.orderedInsert (fun first second => key first ≤ key second) chosen).findSome? pick =
      some picked := by
  induction values with
  | nil => rw [List.orderedInsert_nil, List.findSome?_singleton, found]
  | cons first rest inductionHypothesis =>
      rw [List.orderedInsert_cons]
      split_ifs with less
      · rw [List.findSome?_cons, found]
      · have none : pick first = none := by
          by_contra some
          exact less (least first List.mem_cons_self (Option.isSome_iff_ne_none.mpr some))
        rw [List.findSome?_cons, none]
        exact inductionHypothesis fun other among => least other (List.mem_cons_of_mem _ among)

/-- The first of the least elements of which something is picked is what a stable sort puts first
of them. -/
theorem findSome?_sortOn_cons (least : ∀ other ∈ values, (pick other).isSome = true →
    key chosen ≤ key other) (found : pick chosen = some picked) :
    (sortOn key (chosen :: values)).findSome? pick = some picked := by
  rw [sortOn, List.insertionSort_cons]
  exact findSome?_orderedInsert_self
    (fun other among => least other ((List.mem_insertionSort _).mp among)) found

/-- What is picked last stays so when an element is inserted of which nothing is picked, or which
is not greater. -/
theorem lastSome_orderedInsert {front back : List α} (quiet : ∀ other ∈ back, pick other = none)
    (greatest : (pick value).isSome = true → key value ≤ key chosen) :
    ∃ front' back', (front ++ chosen :: back).orderedInsert
        (fun first second => key first ≤ key second) value = front' ++ chosen :: back' ∧
      ∀ other ∈ back', pick other = none := by
  induction front with
  | nil =>
      rw [List.nil_append, List.orderedInsert_cons]
      split_ifs with less
      · exact ⟨[value], back, rfl, quiet⟩
      · refine ⟨[], _, rfl, fun other among => ?_⟩
        obtain rfl | among := (List.mem_orderedInsert _).mp among
        · by_contra some
          exact less (greatest (Option.isSome_iff_ne_none.mpr some))
        · exact quiet other among
  | cons first rest inductionHypothesis =>
      rw [List.cons_append, List.orderedInsert_cons]
      split_ifs with less
      · exact ⟨value :: first :: rest, back, rfl, quiet⟩
      · obtain ⟨front, behind, same, silent⟩ := inductionHypothesis
        exact ⟨first :: front, behind, congrArg _ same, silent⟩

/-- The last of the greatest elements of which something is picked is what a stable sort puts last
of them. -/
theorem lastSome_sortOn_concat (greatest : ∀ other ∈ values, (pick other).isSome = true →
    key other ≤ key chosen) (found : pick chosen = some picked) :
    lastSome pick (sortOn key (values ++ [chosen])) = some picked := by
  have placed : ∃ front back, sortOn key (values ++ [chosen]) = front ++ chosen :: back ∧
      ∀ other ∈ back, pick other = none := by
    induction values with
    | nil => exact ⟨[], [], rfl, nofun⟩
    | cons first rest inductionHypothesis =>
        obtain ⟨front, back, same, quiet⟩ := inductionHypothesis fun other among =>
          greatest other (List.mem_cons_of_mem _ among)
        rw [sortOn] at same
        rw [sortOn, List.cons_append, List.insertionSort_cons, same]
        exact lastSome_orderedInsert quiet (greatest first List.mem_cons_self)
  obtain ⟨front, back, same, quiet⟩ := placed
  rw [same, lastSome_append, lastSome_cons, lastSome_eq_none.mpr quiet, Option.none_or, found]
  rfl

variable {relation : α → α → Prop}

/-- An element of which something is picked, and which is related to all of them. -/
structure Least (relation : α → α → Prop) (pick : α → Option β) (values : List α) (chosen : α) :
    Prop where
  mem : chosen ∈ values
  picks : (pick chosen).isSome = true
  least : ∀ other ∈ values, (pick other).isSome = true → relation chosen other

/-- The least elements agree on what is picked of them. -/
def LeastAgree (relation : α → α → Prop) (pick : α → Option β) (values : List α) : Prop :=
  ∀ first second, Least relation pick values first → Least relation pick values second →
    pick first = pick second

/-- What is picked first of a sorted list is picked of a least element. -/
theorem exists_of_findSome? (reflexive : ∀ value, relation value value)
    (sorted : values.Pairwise relation) (found : values.findSome? pick = some picked) :
    ∃ chosen, pick chosen = some picked ∧ Least relation pick values chosen := by
  induction values with
  | nil => cases found
  | cons first rest inductionHypothesis =>
      obtain ⟨firstLess, sorted⟩ := List.pairwise_cons.mp sorted
      rw [List.findSome?_cons] at found
      cases picks : pick first with
      | some other =>
          rw [picks] at found
          refine ⟨first, picks.trans found, List.mem_cons_self, ?_, fun other among _ => ?_⟩
          · rw [picks]
            rfl
          · obtain rfl | among := List.mem_cons.mp among
            · exact reflexive _
            · exact firstLess other among
      | none =>
          rw [picks] at found
          obtain ⟨chosen, same, least⟩ := inductionHypothesis sorted found
          refine ⟨chosen, same, List.mem_cons_of_mem _ least.mem, least.picks, fun other among some => ?_⟩
          obtain rfl | among := List.mem_cons.mp among
          · rw [picks] at some
            cases some
          · exact least.least other among some

/-- Of two sorted lists of the same elements, the same is picked first when the least agree. -/
theorem findSome?_eq_of_leastAgree {others : List α} (agrees : LeastAgree relation pick values)
    (reflexive : ∀ value, relation value value) (same : ∀ value, value ∈ others ↔ value ∈ values)
    (sorted : values.Pairwise relation) (sorted' : others.Pairwise relation) :
    others.findSome? pick = values.findSome? pick := by
  cases found : values.findSome? pick with
  | none =>
      rw [List.findSome?_eq_none_iff] at found ⊢
      exact fun value among => found value ((same value).mp among)
  | some picked =>
      obtain ⟨chosen, picks, least⟩ := exists_of_findSome? reflexive sorted found
      cases found' : others.findSome? pick with
      | none =>
          rw [List.findSome?_eq_none_iff] at found'
          rw [found' chosen ((same chosen).mpr least.mem)] at picks
          cases picks
      | some picked' =>
          obtain ⟨chosen', picks', least'⟩ := exists_of_findSome? reflexive sorted' found'
          have least' : Least relation pick values chosen' :=
            ⟨(same _).mp least'.mem, least'.picks, fun other among => least'.least other
              ((same other).mpr among)⟩
          exact picks'.symm.trans ((agrees _ _ least' least).trans picks)

/-- What a stable sort puts first does not depend on the order when the least elements agree. -/
theorem findSome?_sortOn_perm {others : List α}
    (agrees : LeastAgree (fun first second => key first ≤ key second) pick values)
    (perm : others.Perm values) :
    (sortOn key others).findSome? pick = (sortOn key values).findSome? pick := by
  have agrees' : LeastAgree (fun first second => key first ≤ key second) pick (sortOn key values) :=
    fun first second least least' => agrees first second
      ⟨perm_sortOn.mem_iff.mp least.mem, least.picks, fun other among =>
        least.least other (perm_sortOn.mem_iff.mpr among)⟩
      ⟨perm_sortOn.mem_iff.mp least'.mem, least'.picks, fun other among =>
        least'.least other (perm_sortOn.mem_iff.mpr among)⟩
  exact findSome?_eq_of_leastAgree agrees' (fun _ => le_refl _)
    (fun _ => ((perm_sortOn.trans perm).trans perm_sortOn.symm).mem_iff) pairwise_sortOn
    pairwise_sortOn

/-- What a stable sort puts last does not depend on the order when the greatest elements agree. -/
theorem lastSome_sortOn_perm {others : List α}
    (agrees : LeastAgree (fun first second => key second ≤ key first) pick values)
    (perm : others.Perm values) :
    lastSome pick (sortOn key others) = lastSome pick (sortOn key values) := by
  have mem (list : List α) (value : α) : value ∈ (sortOn key list).reverse ↔ value ∈ list := by
    rw [List.mem_reverse, perm_sortOn.mem_iff]
  have agrees' : LeastAgree (fun first second => key second ≤ key first) pick
      (sortOn key values).reverse :=
    fun first second least least' => agrees first second
      ⟨(mem _ _).mp least.mem, least.picks, fun other among =>
        least.least other ((mem _ _).mpr among)⟩
      ⟨(mem _ _).mp least'.mem, least'.picks, fun other among =>
        least'.least other ((mem _ _).mpr among)⟩
  refine findSome?_eq_of_leastAgree agrees' (fun _ => le_refl _) (fun value => ?_)
    (List.pairwise_reverse.mpr pairwise_sortOn) (List.pairwise_reverse.mpr pairwise_sortOn)
  rw [mem, mem, perm.mem_iff]

end Stable

end LawyerAssistance

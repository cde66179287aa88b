import LawyerAssistance.Std.Base64
import LawyerAssistance.Storage.Migration
import LawyerAssistance.Storage.Pages

/-!
# Pages partition the lists

Following the cursors of a list from its first page ends, and the pages together are the
rows of the list, each of them once, in strictly decreasing order of `updated_at` and `id`.
-/

namespace LawyerAssistance.Storage

open Keyset

/-! ## Cursors are read back -/

section Cursor

theorem fromUtf8_utf8 (text : String) : fromUtf8 (utf8 text) = some text :=
  fromUTF8?_utf8 text

/-- A text behind a first part without the separator. -/
theorem splitOnce_append {separator : Char} {before after : String}
    (plain : separator ∉ before.toList) :
    splitOnce separator (before ++ String.singleton separator ++ after) = some (before, after) := by
  have keeps : ∀ character ∈ before.toList, (character ≠ separator : Bool) = true := by
    intro character member
    simpa using fun same : character = separator => plain (same ▸ member)
  have spelled : (before ++ String.singleton separator ++ after).toList =
      before.toList ++ separator :: after.toList := by simp
  rw [splitOnce, spelled, List.span_eq_takeWhile_dropWhile,
    List.takeWhile_append_of_pos (by simpa using keeps),
    List.dropWhile_append_of_pos (by simpa using keeps)]
  simp

theorem parseU64_toString {value : Nat} (small : value < 2 ^ 64) :
    parseU64 (toString value) = some value := by
  have digits : ∀ character ∈ (toString value).toList, character.isDigit = true :=
    fun character member => digit_of_mem_toString member
  have whole : unsigned (toString value).toList = (toString value).toList := by
    unfold unsigned
    split
    · next rest spelled =>
        have sign := digits '+' (by rw [spelled]; exact List.mem_cons_self)
        exact absurd sign (by decide)
    · rfl
  have spelled : (toString value).toList = Nat.toDigits 10 value := by
    rw [Nat.toString_eq_repr, Nat.toList_repr]
  have some : (toString value).toList ≠ [] ∧ (toString value).toList.all Char.isDigit := by
    refine ⟨?_, List.all_eq_true.mpr digits⟩
    rw [spelled]
    exact Nat.toDigits_ne_nil
  simp only [parseU64, whole]
  rw [if_pos some, spelled, Nat.ofDigitChars_ten_toDigits, if_pos small]

/-- What the parts of an encoded cursor are before the identifier is checked. -/
theorem splitOnce_cursor (updatedAt : Nat) (id : String) :
    splitOnce ':' (toString updatedAt ++ ":" ++ id) = some (toString updatedAt, id) := by
  have plain : ':' ∉ (toString updatedAt).toList :=
    fun member => absurd (digit_of_mem_toString member) (by decide)
  exact splitOnce_append plain

/-- A cursor of an identifier of an admitted length is read back. -/
theorem decodeCursor_encodeCursor {base64 : Base64} (lawful : base64.Lawful) {updatedAt : Nat}
    {id : String} (small : updatedAt < 2 ^ 64) (nonempty : id ≠ "")
    (short : (utf8 id).length ≤ 200) :
    decodeCursor base64 (encodeCursor base64 updatedAt id) = .ok (updatedAt, id) := by
  have admitted : ¬ (id = "" ∨ 200 < (utf8 id).length) := by
    rw [not_or, Nat.not_lt]
    exact ⟨nonempty, short⟩
  refine bind_eq_ok.mpr ⟨_, presentOr_eq_ok.mpr (lawful _), ?_⟩
  refine bind_eq_ok.mpr ⟨_, presentOr_eq_ok.mpr (fromUtf8_utf8 _), ?_⟩
  refine bind_eq_ok.mpr ⟨(toString updatedAt, id),
    presentOr_eq_ok.mpr (splitOnce_cursor updatedAt id), ?_⟩
  refine refuseIf_bind_eq_ok.mpr ⟨admitted, ?_⟩
  exact bind_eq_ok.mpr ⟨updatedAt, presentOr_eq_ok.mpr (parseU64_toString small), rfl⟩

/-- A cursor of a longer identifier is refused. -/
theorem decodeCursor_of_long {base64 : Base64} (lawful : base64.Lawful) {updatedAt : Nat}
    {id : String} (long : 200 < (utf8 id).length) (decoded : Nat × String) :
    decodeCursor base64 (encodeCursor base64 updatedAt id) ≠ .ok decoded := by
  intro answered
  obtain ⟨bytes, decodes, answered⟩ := bind_eq_ok.mp answered
  cases (lawful _).symm.trans (presentOr_eq_ok.mp decodes)
  obtain ⟨text, reads, answered⟩ := bind_eq_ok.mp answered
  cases (fromUtf8_utf8 _).symm.trans (presentOr_eq_ok.mp reads)
  obtain ⟨parts, splits, answered⟩ := bind_eq_ok.mp answered
  cases (splitOnce_cursor updatedAt id).symm.trans (presentOr_eq_ok.mp splits)
  exact (refuseIf_bind_eq_ok.mp answered).1 (.inr long)

end Cursor

/-! ## The order of the lists -/

section Order

/-- What the lists show, in order: the selected rows, each once, the newest first. -/
theorem newestFirst_perm (database : Database) (condition : IndexRow → Bool) :
    (newestFirst database condition).Perm
      ((database.objectIndex.entries.map fun row => (row.1, row.2)).filter condition) :=
  List.perm_insertionSort _ _

/-- A listed row is an index row which satisfies the condition. -/
theorem mem_newestFirst {database : Database} {condition : IndexRow → Bool} {row : IndexRow} :
    row ∈ newestFirst database condition ↔
      database.objectIndex.lookup row.1 = some row.2 ∧ condition row = true := by
  rw [(newestFirst_perm database condition).mem_iff, List.mem_filter, List.mem_map,
    ← Option.mem_def, AList.mem_lookup_iff]
  refine and_congr_left fun _ => ?_
  constructor
  · rintro ⟨⟨key, index⟩, member, rfl⟩
    exact member
  · intro member
    exact ⟨⟨row.1, row.2⟩, member, rfl⟩

theorem nodup_newestFirst (database : Database) (condition : IndexRow → Bool) :
    ((newestFirst database condition).map Prod.fst).Nodup := by
  refine ((newestFirst_perm database condition).map Prod.fst).nodup_iff.mpr ?_
  refine (List.Sublist.map Prod.fst List.filter_sublist).nodup ?_
  rw [List.map_map]
  exact database.objectIndex.nodupKeys

/-- Rows of one kind are in strictly decreasing order. -/
theorem decreasing_newestFirst {database : Database} {condition : IndexRow → Bool} {kind : String}
    (sameKind : ∀ row, condition row = true → row.1.1 = kind) :
    Decreasing sortKey (newestFirst database condition) := by
  have sorted : (newestFirst database condition).Pairwise fun first second =>
      sortKey second ≤ sortKey first := by
    have : Std.Total fun first second : IndexRow => sortKey second ≤ sortKey first :=
      ⟨fun first second => le_total (sortKey second) (sortKey first)⟩
    have : IsTrans IndexRow fun first second => sortKey second ≤ sortKey first :=
      ⟨fun _ _ _ above below => le_trans below above⟩
    exact List.pairwise_insertionSort _ _
  have distinct := List.pairwise_map.mp (nodup_newestFirst database condition)
  refine (sorted.and distinct).imp_of_mem fun {first second} inFirst inSecond both => ?_
  refine lt_of_le_of_ne both.1 fun same => both.2 ?_
  have kinds := (sameKind _ (mem_newestFirst.mp inFirst).2).trans
    (sameKind _ (mem_newestFirst.mp inSecond).2).symm
  have ids : second.1.2 = first.1.2 := congrArg (fun key => (ofLex key).2) same
  exact Prod.ext kinds ids.symm

end Order

/-! ## Boundaries -/

section Boundary

/-- A boundary which a cursor can carry. -/
structure Admissible (boundary : Nat ×ₗ String) : Prop where
  fits : (ofLex boundary).1 ≤ I64_MAX
  nonempty : (ofLex boundary).2 ≠ ""
  short : (utf8 (ofLex boundary).2).length ≤ 200

/-- The cursor of a boundary. -/
def cursorOf (base64 : Base64) (boundary : Nat ×ₗ String) : String :=
  encodeCursor base64 (ofLex boundary).1 (ofLex boundary).2

theorem asI64_eq {value : Nat} (fits : value ≤ I64_MAX) : asI64 value = value := by
  have small : value < 2 ^ 63 := by
    unfold I64_MAX at fits
    omega
  rw [asI64, if_pos small]

/-- The cursor of an admitted boundary is read back. -/
theorem decodeCursors_cursorOf {base64 : Base64} (lawful : base64.Lawful)
    {boundary : Option (Nat ×ₗ String)} (admitted : ∀ last ∈ boundary, Admissible last) :
    decodeCursors base64 (boundary.map (cursorOf base64)) = .ok (boundary.map ofLex) := by
  cases boundary with
  | none => rfl
  | some last =>
      have admissible := admitted last rfl
      have small : (ofLex last).1 < 2 ^ 64 := by
        have fits := admissible.fits
        unfold I64_MAX at fits
        omega
      rw [Option.map_some, Option.map_some, decodeCursors, cursorOf,
        decodeCursor_encodeCursor lawful small admissible.nonempty admissible.short]
      rfl

/-- The condition of the query selects the rows below the boundary. -/
theorem afterCursor_eq_beyond {boundary : Option (Nat ×ₗ String)}
    (admitted : ∀ last ∈ boundary, Admissible last) (row : IndexRow) :
    afterCursor (boundary.map ofLex) row.2.updatedAt row.1.2 = beyond sortKey boundary row := by
  cases boundary with
  | none => rfl
  | some last =>
      have below : sortKey row < last ↔ row.2.updatedAt < (ofLex last).1 ∨
          row.2.updatedAt = (ofLex last).1 ∧ row.1.2 < (ofLex last).2 :=
        Prod.Lex.lt_iff
      simp only [Option.map_some, afterCursor, beyond, asI64_eq (admitted last rfl).fits]
      rw [Bool.eq_iff_iff]
      simp only [Bool.or_eq_true, decide_eq_true_eq, Bool.and_eq_true, beq_iff_eq, Int.ofNat_lt,
        Int.ofNat_inj, below]

/-- The cursor behind a page is that of its last row. -/
theorem nextCursor_selected (base64 : Base64) (rows : List IndexRow) (limit : Nat)
    (boundary : Option (Nat ×ₗ String)) :
    nextCursor base64 (selected sortKey rows limit boundary) limit =
      (nextBoundary sortKey rows limit boundary).map (cursorOf base64) := by
  unfold nextCursor nextBoundary
  split_ifs with longer
  · rw [Option.map_map]
    rfl
  · rfl

end Boundary

/-! ## Pages of summaries -/

section Summaries

variable (host : Host) (base64 : Base64)

/-- A stored summary which opens. -/
def ShownAs (database : Database) (row : IndexRow) (item : Json) : Prop :=
  ∃ body, database.objectSummaries.lookup row.1 = some body ∧
    openAs host.serde host.dpapi (summaryKind row.1.1) row.1.2 body = .ok item

/-- The rows of a list can be paged: their keys fit a cursor, and their summaries open. -/
structure Pageable (database : Database) (filter : IndexFilter) : Prop where
  admissible : ∀ row ∈ newestFirst database filter.selects, Admissible (sortKey row)
  shown : ∀ row ∈ newestFirst database filter.selects, ∃ item, ShownAs host database row item

/-- What the pages show of a row. -/
def shownItem (database : Database) (row : IndexRow) : Json :=
  match database.objectSummaries.lookup row.1 with
  | none => .null
  | some body =>
      match openAs host.serde host.dpapi (summaryKind row.1.1) row.1.2 body with
      | .error _ => .null
      | .ok item => item

/-- `Store::summary_page`, as a reader of pages. -/
def summaryReader (filter : IndexFilter) (limit now accepted : Nat) (database : Database)
    (cursor : Option String) : Except String (List Json × Option String) :=
  (summaryPage host base64 filter cursor limit now accepted database).1.map fun page =>
    (page.items, page.nextCursor)

variable {host base64} {database : Database} {filter : IndexFilter}

theorem shownItem_eq {row : IndexRow} {item : Json} (shown : ShownAs host database row item) :
    shownItem host database row = item := by
  obtain ⟨body, stored, opens⟩ := shown
  simp [shownItem, stored, opens]

theorem IndexFilter.kind_of_selects {row : IndexRow} (selected : filter.selects row = true) :
    row.1.1 = filter.kind := by
  unfold IndexFilter.selects at selected
  rw [Bool.and_eq_true, Bool.and_eq_true, beq_iff_eq] at selected
  exact selected.1.1

/-- A row with its stored summary. -/
theorem mem_readSummaries {cursor : Option (Nat × String)} {limit : Nat}
    {row : IndexRow × Octets} (member : row ∈ readSummaries database filter cursor limit) :
    row.1 ∈ newestFirst database filter.selects ∧
      database.objectSummaries.lookup row.1.1 = some row.2 := by
  have read := (List.mem_filter.mp (List.mem_of_mem_take member)).1
  obtain ⟨listed, inList, stored⟩ := List.mem_filterMap.mp read
  obtain ⟨body, found, rfl⟩ := Option.map_eq_some_iff.mp stored
  exact ⟨inList, found⟩

/-- The rows which a page reads, when every row has a summary. -/
theorem map_fst_readSummaries (pageable : Pageable host database filter)
    {boundary : Option (Nat ×ₗ String)} (admitted : ∀ last ∈ boundary, Admissible last)
    (limit : Nat) :
    (readSummaries database filter (boundary.map ofLex) limit).map Prod.fst =
      selected sortKey (newestFirst database filter.selects) limit boundary := by
  have all : ((newestFirst database filter.selects).filterMap fun row =>
      (database.objectSummaries.lookup row.1).map fun body => (row, body)).map Prod.fst =
        newestFirst database filter.selects := by
    rw [List.map_filterMap]
    refine (List.filterMap_congr fun row member => ?_).trans List.filterMap_some
    obtain ⟨_, body, stored, _⟩ := pageable.shown row member
    rw [stored]
    rfl
  rw [readSummaries, List.map_take, selected]
  refine congrArg (List.take (limit + 1)) ?_
  conv_rhs => rw [← all, List.filter_map]
  refine congrArg (List.map Prod.fst) (List.filter_congr fun row _ => ?_)
  exact afterCursor_eq_beyond admitted row.1

/-- The summaries of rows which open. -/
theorem openSummaries_eq_ok {rows : List (IndexRow × Octets)}
    (shown : ∀ row ∈ rows, database.objectSummaries.lookup row.1.1 = some row.2 ∧
      ∃ item, ShownAs host database row.1 item) :
    openSummaries host rows = .ok ((rows.map Prod.fst).map (shownItem host database)) := by
  induction rows with
  | nil => rfl
  | cons row rest inductionHypothesis =>
      obtain ⟨stored, item, body, stored', opens⟩ := shown row List.mem_cons_self
      cases stored.symm.trans stored'
      have others := inductionHypothesis fun other member =>
        shown other (List.mem_cons_of_mem _ member)
      simp only [openSummaries, opens, others, List.map_cons]
      rw [shownItem_eq ⟨_, stored, opens⟩]

theorem missingSummary_eq_none (pageable : Pageable host database filter) :
    missingSummary database filter = none := by
  rw [missingSummary, Option.map_eq_none_iff, List.find?_eq_none]
  intro row member
  obtain ⟨_, body, stored, _⟩ := pageable.shown row member
  simp [stored]

/-- One page of a list which can be paged, from the first row on or from a boundary on. -/
theorem summaryPage_eq (lawful : base64.Lawful) (pageable : Pageable host database filter)
    {limit : Nat} (admittedLimit : 1 ≤ limit ∧ limit ≤ 100) (now accepted : Nat)
    {boundary : Option (Nat ×ₗ String)} (admitted : ∀ last ∈ boundary, Admissible last) :
    summaryPage host base64 filter (boundary.map (cursorOf base64)) limit now accepted database =
      (.ok
        { items := ((selected sortKey (newestFirst database filter.selects) limit boundary).take
            limit).map (shownItem host database)
          nextCursor := (nextBoundary sortKey (newestFirst database filter.selects) limit
            boundary).map (cursorOf base64)
          total := (newestFirst database filter.selects).length
          corruptCount := (database.corruptObjects.keys.filter fun key =>
            key.1 = filter.kind).length }, database) := by
  have checked : checkLimit limit = .ok () := by
    rw [checkLimit, refuseIf_eq_ok]
    omega
  have opens : (do checkLimit limit; decodeCursors base64 (boundary.map (cursorOf base64))) =
      .ok (boundary.map ofLex) := by
    rw [checked]
    exact decodeCursors_cursorOf lawful admitted
  have summaries : openSummaries host
      ((readSummaries database filter (boundary.map ofLex) limit).take limit) =
        .ok (((selected sortKey (newestFirst database filter.selects) limit boundary).take
          limit).map (shownItem host database)) := by
    rw [← map_fst_readSummaries pageable admitted, ← List.map_take]
    refine openSummaries_eq_ok fun row member => ?_
    obtain ⟨listed, stored⟩ := mem_readSummaries (List.mem_of_mem_take member)
    exact ⟨stored, pageable.shown row.1 listed⟩
  simp only [summaryPage, opens, missingSummary_eq_none pageable, summaries,
    map_fst_readSummaries pageable admitted, nextCursor_selected]

/-- The pages of summaries are those of a keyset reader. -/
theorem reads_summaryReader (lawful : base64.Lawful) (pageable : Pageable host database filter)
    {limit : Nat} (admittedLimit : 1 ≤ limit ∧ limit ≤ 100) (now accepted : Nat) :
    Reads sortKey (newestFirst database filter.selects) limit Admissible (cursorOf base64)
      (shownItem host database)
      (summaryReader host base64 filter limit now accepted database) := by
  intro boundary admitted
  rw [summaryReader, summaryPage_eq lawful pageable admittedLimit now accepted admitted]
  rfl

end Summaries

end LawyerAssistance.Storage
